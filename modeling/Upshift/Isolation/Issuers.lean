import Mathlib.Data.Finset.Filter
import Upshift.Isolation.Writable

namespace Upshift
open Guard KeyedStore History

/-- What the issuers of mints can do beside the instructions of the system: a permanent delegate transfers and burns
what anybody holds of its mint, and a freeze authority stops and releases accounts. Both powers can be handed on,
so whoever signs is let use them. -/
inductive IssuerInstruction
  | transfer (source mint destination authority : Pubkey) (amount : UInt64)
  | burn (account mint authority : Pubkey) (amount : UInt64)
  | freeze (account mint authority : Pubkey)
  | thaw (account mint authority : Pubkey)

inductive WideInstruction
  | system (i : Instruction)
  | issuer (i : IssuerInstruction)

def IssuerInstruction.signers : IssuerInstruction → List Pubkey
  | .transfer _ _ _ authority _ => [authority]
  | .burn _ _ authority _ => [authority]
  | .freeze _ _ authority => [authority]
  | .thaw _ _ authority => [authority]

def WideInstruction.signers : WideInstruction → List Pubkey
  | .system i => i.signers
  | .issuer i => i.signers

/-- The instruction of the system, unless an issuer acts. -/
def WideInstruction.plain : WideInstruction → Option Instruction
  | .system i => some i
  | .issuer _ => none

/-- The chain, with the token accounts that are frozen. -/
structure Issued where
  chain : Chain
  frozen : Finset Pubkey

/-- The accounts that must not be frozen. Freezing stops neither the closing of an account nor a look at it. -/
def Instruction.moves : Instruction → List Pubkey
  | .vault (.closeVault _) | .queue (.initializeQueue ..) | .token (.closeAccount ..) => []
  | .vault i => i.writable
  | .queue i => i.writable
  | .token i => i.writable
  | .clock _ | .setUpgradeAuthority _ => []

/-- A mint with a permanent delegate. -/
def Bank.Seizable (b : Bank) (mint : Pubkey) : Prop :=
  ∃ m, b.mints.lookup mint = some m ∧ .permanentDelegate ∈ m.extensions

/-- A mint without one. -/
def Bank.Unseizable (b : Bank) (mint : Pubkey) : Prop :=
  ∃ m, b.mints.lookup mint = some m ∧ .permanentDelegate ∉ m.extensions

/-- A transfer by the permanent delegate, whose authority is not limited by an allowance. -/
def Bank.seize (b : Bank) (source mint destination : Pubkey) (amount : Nat) : Result Bank := do
  let src ← b.account source
  let dst ← b.account destination
  let m ← b.mint mint
  require (amount ≤ src.amount) (.token .insufficientFunds)
  require (src.mint = mint) (.token .mintMismatch)
  require (dst.mint = mint) (.token .mintMismatch)
  require (.permanentDelegate ∈ m.extensions) (.token .ownerMismatch)
  if source = destination then
    return b
  else do
    let received ← okOr (checkedAdd u64Max dst.amount amount) (.token .overflow)
    return { b with
      accounts := (b.accounts.insert source { src with amount := src.amount - amount }).insert
        destination { dst with amount := received } }

def Bank.seizeToBurn (b : Bank) (account mint : Pubkey) (amount : Nat) : Result Bank := do
  let src ← b.account account
  let m ← b.mint mint
  require (amount ≤ src.amount) (.token .insufficientFunds)
  require (src.mint = mint) (.token .mintMismatch)
  require (.permanentDelegate ∈ m.extensions) (.token .ownerMismatch)
  let supply ← okOr (checkedSub m.supply amount) (.token .overflow)
  return {
    mints := b.mints.insert mint { m with supply := supply }
    accounts := b.accounts.insert account { src with amount := src.amount - amount } }

/-- An account of a mint that has a freeze authority. -/
def Bank.freezable (b : Bank) (account mint : Pubkey) : Result TokenAccount := do
  let t ← b.account account
  require (t.mint = mint) (.token .mintMismatch)
  let m ← b.mint mint
  require (m.freezeAuthority.isSome) (.token .mintCannotFreeze)
  return t

def Issued.executeIssuer (w : Issued) : IssuerInstruction → Result Issued
  | .transfer source mint destination _ amount => do
    require (source ∉ w.frozen ∧ destination ∉ w.frozen) (.token .accountFrozen)
    let bank ← w.chain.bank.seize source mint destination amount.toNat
    return { w with chain := { w.chain with bank := bank } }
  | .burn account mint _ amount => do
    require (account ∉ w.frozen) (.token .accountFrozen)
    let bank ← w.chain.bank.seizeToBurn account mint amount.toNat
    return { w with chain := { w.chain with bank := bank } }
  | .freeze account mint _ => do
    let _ ← w.chain.bank.freezable account mint
    require (account ∉ w.frozen) (.token .invalidState)
    return { w with frozen := insert account w.frozen }
  | .thaw account mint _ => do
    let _ ← w.chain.bank.freezable account mint
    require (account ∈ w.frozen) (.token .invalidState)
    return { w with frozen := w.frozen.erase account }

/-- An account that is closed takes its mark with it. -/
def Issued.process (w : Issued) : WideInstruction → Result Issued
  | .system i => do
    require (∀ k ∈ i.moves, k ∉ w.frozen) (.token .accountFrozen)
    let c ← w.chain.process i
    return ⟨c, w.frozen.filter fun k => (c.bank.accounts.lookup k).isSome⟩
  | .issuer i => do
    require (i.signers.all Pubkey.canSign) (.anchor .accountNotSigner)
    w.executeIssuer i

def WideStep (w : Issued) (x : WideInstruction) (w' : Issued) : Prop := w.process x = .ok w'

/-- The wide chain after a transaction. A refused one leaves it as it was. -/
def Issued.next (w : Issued) (x : WideInstruction) : Issued := (w.process x).toOption.getD w

def Issued.runAll (w : Issued) (script : List WideInstruction) : Issued := script.foldl Issued.next w

/-- The transactions of a script that succeed, each with what it found, latest first. -/
def Issued.events (w : Issued) (script : List WideInstruction) : List (Issued × WideInstruction) :=
  match script with
  | [] => []
  | x :: rest => (w.next x).events rest ++ if (w.process x).toOption.isSome then [(w, x)] else []

/-- The events in which no issuer acts. -/
def plainEvents (between : List (Issued × WideInstruction)) : List (Chain × Instruction) :=
  between.filterMap fun event => event.2.plain.map (event.1.chain, ·)

section Seizure
variable {b b' : Bank}

theorem Bank.Unseizable.apart {mint other : Pubkey} (unseizable : b.Unseizable mint) (seizable : b.Seizable other) :
    mint ≠ other := by
  rintro rfl
  obtain ⟨m, atMint, without⟩ := unseizable
  obtain ⟨m', atMint', delegated⟩ := seizable
  cases Option.some.inj (atMint.symm.trans atMint')
  exact without delegated

theorem Bank.Unseizable.respects {A : Pubkey → Prop} {mint : Pubkey} (unseizable : b.Unseizable mint)
    (run : b.Respects A b') : b'.Unseizable mint := by
  obtain ⟨m, atMint, without⟩ := unseizable
  obtain ⟨m', atMint', ⟨_, _, _, extensions⟩, _⟩ := run.mint atMint
  exact ⟨m', atMint', extensions ▸ without⟩

theorem Bank.seize_eq_ok {source mint destination : Pubkey} {amount : Nat}
    (ran : b.seize source mint destination amount = .ok b') : ∃ src dst,
      b.accounts.lookup source = some src ∧ b.accounts.lookup destination = some dst ∧ src.mint = mint ∧
        dst.mint = mint ∧ b.Seizable mint ∧
          (b' = b ∨ b' = { b with
            accounts := (b.accounts.insert source { src with amount := src.amount - amount }).insert destination
              { dst with amount := dst.amount + amount } }) := by
  simp only [Bank.seize, Bank.account, Bank.mint, bind_eq_ok, fetch_eq_ok, require_eq_ok, exists_const] at ran
  obtain ⟨src, atSource, dst, atDestination, m, atMint, _, sourceMint, destinationMint, delegated, outcome⟩ := ran
  refine ⟨src, dst, atSource, atDestination, sourceMint, destinationMint, ⟨m, atMint, delegated⟩, ?_⟩
  split at outcome
  · exact Or.inl (pure_eq_ok.mp outcome).symm
  · simp only [bind_eq_ok, okOr_eq_ok, checkedAdd_eq_some, pure_eq_ok] at outcome
    obtain ⟨_, ⟨_, rfl⟩, rfl⟩ := outcome
    exact Or.inr rfl

theorem Bank.seizeToBurn_eq_ok {account mint : Pubkey} {amount : Nat}
    (ran : b.seizeToBurn account mint amount = .ok b') : ∃ src m,
      b.accounts.lookup account = some src ∧ src.mint = mint ∧ b.mints.lookup mint = some m ∧
        .permanentDelegate ∈ m.extensions ∧
          b' = ⟨b.mints.insert mint { m with supply := m.supply - amount },
            b.accounts.insert account { src with amount := src.amount - amount }⟩ := by
  simp only [Bank.seizeToBurn, Bank.account, Bank.mint, bind_eq_ok, fetch_eq_ok, require_eq_ok, okOr_eq_ok,
    checkedSub_eq_some, pure_eq_ok, exists_const] at ran
  obtain ⟨src, found, m, atMint, _, sameMint, delegated, _, ⟨_, rfl⟩, rfl⟩ := ran
  exact ⟨src, m, found, sameMint, atMint, delegated, rfl⟩

/-- What no issuer can touch. -/
structure Bank.Spared (b b' : Bank) : Prop where
  account : ∀ {k t}, b.accounts.lookup k = some t → b.Unseizable t.mint → b'.accounts.lookup k = some t
  mint : ∀ {k}, b.Unseizable k → b'.mints.lookup k = b.mints.lookup k

theorem Bank.Spared.refl (b : Bank) : b.Spared b := ⟨fun found _ => found, fun _ => rfl⟩

theorem Bank.Spared.unseizable (spared : b.Spared b') {mint : Pubkey} (unseizable : b.Unseizable mint) :
    b'.Unseizable mint := by
  rw [Bank.Unseizable, spared.mint unseizable]
  exact unseizable

/-- A permanent delegate reaches the accounts of its mint alone. -/
theorem Bank.seize_spares {source mint destination : Pubkey} {amount : Nat}
    (ran : b.seize source mint destination amount = .ok b') : b.Spared b' := by
  obtain ⟨src, dst, atSource, atDestination, sourceMint, destinationMint, seizable, rfl | rfl⟩ := Bank.seize_eq_ok ran
  · exact .refl _
  refine ⟨fun {k t} found unseizable => ?_, fun _ => rfl⟩
  have other : ∀ {x s}, b.accounts.lookup x = some s → s.mint = mint → k ≠ x := by
    rintro x s atKey sameMint rfl
    cases Option.some.inj (atKey.symm.trans found)
    exact unseizable.apart seizable sameMint
  rw [Finmap.lookup_insert_of_ne _ (other atDestination destinationMint),
    Finmap.lookup_insert_of_ne _ (other atSource sourceMint)]
  exact found

theorem Bank.seizeToBurn_spares {account mint : Pubkey} {amount : Nat}
    (ran : b.seizeToBurn account mint amount = .ok b') : b.Spared b' := by
  obtain ⟨src, m, atAccount, sameMint, atMint, delegated, rfl⟩ := Bank.seizeToBurn_eq_ok ran
  constructor
  · intro k t found unseizable
    refine (Finmap.lookup_insert_of_ne _ ?_).trans found
    rintro rfl
    cases Option.some.inj (atAccount.symm.trans found)
    exact unseizable.apart ⟨m, atMint, delegated⟩ sameMint
  · exact fun unseizable => Finmap.lookup_insert_of_ne _ (unseizable.apart ⟨m, atMint, delegated⟩)

end Seizure

section Step
variable {w w' : Issued} {i : Instruction}

/-- An instruction of the system does in the wide one what it does there, unless it meets a frozen account. -/
theorem WideStep.system_iff : WideStep w (.system i) w' ↔ Step w.chain i w'.chain ∧ (∀ k ∈ i.moves, k ∉ w.frozen) ∧
    w'.frozen = w.frozen.filter fun k => (w'.chain.bank.accounts.lookup k).isSome := by
  simp only [WideStep, Issued.process, Step, bind_eq_ok, require_eq_ok, pure_eq_ok, exists_const]
  constructor
  · rintro ⟨thawed, c, ran, rfl⟩
    exact ⟨ran, thawed, rfl⟩
  · rintro ⟨ran, thawed, kept⟩
    refine ⟨thawed, w'.chain, ran, ?_⟩
    rw [← kept]

/-- An issuer moves tokens of its own mint, and nothing else. -/
theorem WideStep.issuer_spares {i : IssuerInstruction} (taken : WideStep w (.issuer i) w') :
    w'.chain = { w.chain with bank := w'.chain.bank } ∧ w.chain.bank.Spared w'.chain.bank := by
  simp only [WideStep, Issued.process, bind_eq_ok, require_eq_ok, exists_const] at taken
  obtain ⟨_, ran⟩ := taken
  cases i with
  | transfer =>
    simp only [Issued.executeIssuer, bind_eq_ok, require_eq_ok, pure_eq_ok, exists_const] at ran
    obtain ⟨_, bank, seizes, rfl⟩ := ran
    exact ⟨rfl, Bank.seize_spares seizes⟩
  | burn =>
    simp only [Issued.executeIssuer, bind_eq_ok, require_eq_ok, pure_eq_ok, exists_const] at ran
    obtain ⟨_, bank, seizes, rfl⟩ := ran
    exact ⟨rfl, Bank.seizeToBurn_spares seizes⟩
  | freeze | thaw =>
    simp only [Issued.executeIssuer, bind_eq_ok, require_eq_ok, pure_eq_ok, exists_const] at ran
    obtain ⟨_, _, _, rfl⟩ := ran
    exact ⟨rfl, .refl _⟩

end Step

theorem Issued.runAll_run (w : Issued) (script : List WideInstruction) :
    Run WideStep w (w.events script) (w.runAll script) := by
  induction script generalizing w with
  | nil => exact .start
  | cons x rest ih =>
    have later := ih (w.next x)
    cases ran : w.process x with
    | ok w' =>
      have here : w.next x = w' := by rw [Issued.next, ran]; rfl
      have first : Run WideStep w [(w, x)] (w.next x) := .next .start (ran.trans (congrArg _ here.symm))
      simp only [Issued.events, ran, Except.toOption, Option.isSome_some, if_true]
      exact first.trans later
    | error e =>
      have here : w.next x = w := by rw [Issued.next, ran]; rfl
      simp only [Issued.events, ran, Except.toOption, Option.isSome_none, Bool.false_eq_true, if_false,
        List.append_nil]
      rw [here] at later ⊢
      simpa only [Issued.runAll, List.foldl_cons, here] using later

/-- A wide run in which no issuer acts is a run of the system. -/
theorem wide_run_plain {w w' : Issued} {between : List (Issued × WideInstruction)} (run : Run WideStep w between w')
    (plain : ∀ event ∈ between, event.2.plain.isSome) : Run Step w.chain (plainEvents between) w'.chain := by
  induction run with
  | start => exact .start
  | @next between t x u _ taken ih =>
    obtain ⟨now, past⟩ := List.forall_mem_cons.mp plain
    cases x with
    | system i => exact .next (ih past) (WideStep.system_iff.mp taken).1
    | issuer => cases now

/-- The runs of the system are the wide runs from an unfrozen chain in which no issuer acts. What is proved of the
system assumes no more of the issuers than this. -/
theorem plain_runs {c c' : Chain} {history : List (Chain × Instruction)} :
    Run Step c history c' ↔ ∃ between, Run WideStep ⟨c, ∅⟩ between ⟨c', ∅⟩ ∧
      (∀ event ∈ between, event.2.plain.isSome) ∧ plainEvents between = history := by
  constructor
  · intro run
    induction run with
    | start => exact ⟨[], .start, List.forall_mem_nil _, rfl⟩
    | @next history t i u _ taken ih =>
      obtain ⟨between, wide, plain, events⟩ := ih
      have step : WideStep ⟨t, ∅⟩ (.system i) ⟨u, ∅⟩ :=
        WideStep.system_iff.mpr ⟨taken, fun _ _ => Finset.notMem_empty _, rfl⟩
      refine ⟨(⟨t, ∅⟩, .system i) :: between, .next wide step, List.forall_mem_cons.mpr ⟨rfl, plain⟩, ?_⟩
      rw [← events]
      rfl
  · rintro ⟨between, wide, plain, rfl⟩
    exact wide_run_plain wide plain

end Upshift
