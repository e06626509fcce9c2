import Upshift.Queue.Soundness
import Upshift.Vault.Price

namespace Upshift
open Guard KeyedStore History

/-- The shares of a mint in the token accounts of some owners. -/
def Bank.heldBy (b : Bank) (owners : Pubkey → Bool) (mint : Pubkey) : Nat :=
  total (fun t => if owners t.owner then t.holding mint else 0) b.accounts

/-- The shares in the live requests of some owners at a queue. -/
def Chain.escrowedBy (c : Chain) (owners : Pubkey → Bool) (queue : Pubkey) : Nat :=
  total (fun r => if owners r.owner then r.pending queue else 0) c.requests

/-- What the members hold of a vault, in wallets and in escrowed requests. -/
def Chain.sharesOf (c : Chain) (members : Pubkey → Bool) (k : Pubkey) (v : VaultState) : Nat :=
  c.bank.heldBy members v.shareMint + c.escrowedBy members (.withdrawalQueue k)

/-- What everyone else holds. The queue's escrow is one of their accounts, less what it keeps for
members. -/
def Chain.sharesOfOthers (c : Chain) (members : Pubkey → Bool) (k : Pubkey) (v : VaultState) : Nat :=
  c.bank.heldBy (fun owner => !members owner) v.shareMint - c.escrowedBy members (.withdrawalQueue k)

/-- Whose money an instruction trades for shares. -/
def Instruction.trader : Instruction → Option Pubkey
  | .vault (.deposit a _) | .vault (.depositChecked a _ _) => some a.signer
  | .vault (.redeem a _) | .vault (.redeemChecked a _ _) => some a.signer
  | .queue (.finalizeWithdrawal a _) => some a.owner
  | _ => none

def Instruction.closes (i : Instruction) (k : Pubkey) : Bool :=
  match i with
  | .vault (.closeVault a) => a.vaultState = k
  | _ => false

/-- The rules of the game at a vault: only members trade, the operator moves no more than is
recorded, and nothing is reported. -/
def Instruction.fair (i : Instruction) (c : Chain) (k : Pubkey) (members : Pubkey → Bool) : Bool :=
  !i.closes k && (!(i.action c k).trades || i.trader.any members) &&
    (c.vaults.lookup k).all fun v => (i.action c k).moderate (c.book v)

/-- What the members pay in with an instruction. -/
def Instruction.deposited (i : Instruction) (c : Chain) (k : Pubkey) (members : Pubkey → Bool) : Nat :=
  if i.trader.any members then (i.action c k).deposited else 0

/-- The gross amount that an instruction redeems for the members. -/
def Instruction.redeemed (i : Instruction) (c : Chain) (k : Pubkey) (members : Pubkey → Bool) : Nat :=
  if i.trader.any members then (c.vaults.lookup k).elim 0 fun v => (i.action c k).redeemed (c.book v) else 0

/-- The same amount less the fee. -/
def Instruction.received (i : Instruction) (c : Chain) (k : Pubkey) (members : Pubkey → Bool) : Nat :=
  match c.vaults.lookup k with
  | some v =>
    match Redeem.fees (i.redeemed c k members) v.withdrawalFee with
    | .ok fees => i.redeemed c k members - fees
    | .error _ => 0
  | none => 0

theorem Instruction.received_le (i : Instruction) (c : Chain) (k : Pubkey) (members : Pubkey → Bool) :
    i.received c k members ≤ i.redeemed c k members := by
  unfold Instruction.received
  split
  · split
    · exact Nat.sub_le _ _
    · exact Nat.zero_le _
  · exact Nat.zero_le _

section Holders
variable {c : Chain} {k : Pubkey} {v : VaultState} {members : Pubkey → Bool}

/-- A queue knows its vault's mints. -/
theorem WithdrawalQueue.WellFormed.mints {q : WithdrawalQueue} {queue : Pubkey} (formed : q.WellFormed queue)
    (vault : v.WellFormed q.vaultState) : q.depositMint = v.depositMint ∧ q.shareMint = v.shareMint := by
  obtain ⟨vaultVersion, key, shareMint⟩ := formed.vault
  obtain ⟨depositMint, version⟩ := vault.mint_eq key
  rw [shareMint, vault.shareMint, depositMint, version]
  exact ⟨rfl, rfl⟩

theorem Bank.Sound.heldBy_add (sound : c.bank.Sound) (mint : Pubkey) :
    c.bank.heldBy members mint + c.bank.heldBy (fun owner => !members owner) mint = c.bank.supply mint := by
  rw [← sound.conserved, Bank.held, Bank.heldBy, Bank.heldBy, ← total_add]
  refine total_congr fun _ t _ => ?_
  cases members t.owner <;> simp

/-- The escrow holds what the members have asked to withdraw. -/
theorem Reachable.escrowedBy_le (reach : Reachable c) (vault : c.vaults.lookup k = some v)
    (signs : ∀ a, members a = true → a.canSign = true) :
    c.escrowedBy members (.withdrawalQueue k) ≤ c.bank.heldBy (fun owner => !members owner) v.shareMint := by
  by_cases nothing : c.escrowedBy members (.withdrawalQueue k) = 0
  · omega
  · obtain ⟨key, r, live, counts⟩ := exists_of_total_pos (Nat.pos_of_ne_zero nothing)
    have here : r.queue = .withdrawalQueue k := by
      by_contra elsewhere
      simp only [(WithdrawalRequest.weight_elsewhere elsewhere).2, ite_self] at counts
      omega
    obtain ⟨_, _, _, q, queue, _⟩ := reach.requests_sound key r live
    rw [here] at queue
    have sound := reach.queues_sound _ q queue
    have sameVault : q.vaultState = k := by
      have keys := sound.formed.key
      simp only [Pubkey.withdrawalQueue.injEq] at keys
      exact keys.symm
    have sameMint := (sound.formed.mints (sameVault ▸ (reach.vaults_sound k v vault).formed)).2
    obtain ⟨t, atEscrow, owner, mint⟩ := sound.escrows.shares
    have outside : members t.owner = false := by
      rw [owner]
      by_contra inside
      have derived : false = true := signs _ (Bool.of_not_eq_false inside)
      cases derived
    have asked : c.escrowedBy members (.withdrawalQueue k) ≤ q.pendingShares := by
      rw [sound.counted.2]
      refine total_le fun _ r _ => ?_
      split
      · exact le_rfl
      · exact Nat.zero_le _
    have kept := sound.covered
    have part := le_total (fun t => if !members t.owner then t.holding v.shareMint else 0) atEscrow
    simp only [Chain.escrow, Escrow.Covered, Bank.balance_of_lookup atEscrow] at kept
    simp only [outside, Bool.not_false, if_true, TokenAccount.holding, mint.trans sameMint] at part
    exact asked.trans (kept.trans part)

/-- The supply is what the members hold and what everyone else holds. -/
theorem Reachable.shares_split (reach : Reachable c) (vault : c.vaults.lookup k = some v)
    (signs : ∀ a, members a = true → a.canSign = true) :
    c.sharesOf members k v + c.sharesOfOthers members k v = c.bank.supply v.shareMint := by
  have split := @Bank.Sound.heldBy_add c members reach.bank_sound v.shareMint
  have within := reach.escrowedBy_le vault signs
  unfold Chain.sharesOf Chain.sharesOfOthers
  omega

end Holders

section Game
variable {c c' : Chain} {i : Instruction} {k : Pubkey} {v v' : VaultState} {members : Pubkey → Bool}
  {history : List (Chain × Instruction)}

/-- One fair step keeps the vault, does not lower its price, and changes its total by the trades. -/
theorem Step.fair_step (reach : Reachable c) (taken : Step c i c') (vault : c.vaults.lookup k = some v)
    (fair : i.fair c k members = true) : ∃ v', c'.vaults.lookup k = some v' ∧
      v'.resolvedShareOffset = v.resolvedShareOffset ∧ c.sharePrice v ≤ c'.sharePrice v' ∧
      v'.localAum + v'.deployedAum + i.redeemed c k members =
        v.localAum + v.deployedAum + i.deposited c k members := by
  simp only [Instruction.fair, vault, Option.all_some, Bool.and_eq_true] at fair
  obtain ⟨⟨stays, trader⟩, moderate⟩ := fair
  rcases taken.vault_stays vault with ⟨v', vault'⟩ | ⟨a, _, _, _, rfl, rfl, _⟩
  · have sound := reach.vaults_sound k v vault
    have step := taken.book reach.bank_sound sound.formed sound.backed vault vault'
    have total := step.total_add moderate
    have unmarked : ∀ newAum, i.action c k = .report newAum → (c.book v).deployedAum ≤ newAum := by
      intro newAum reports
      rw [reports] at moderate
      cases moderate
    refine ⟨v', vault', step.offset_eq, step.price_le v.resolvedShareOffset_pos unmarked, ?_⟩
    simp only [Instruction.redeemed, Instruction.deposited, vault, Option.elim_some]
    -- What nobody among the members trades is no trade at all.
    cases inside : i.trader.any members with
    | true => exact total
    | false =>
      simp only [inside, Bool.or_false, Bool.not_eq_true'] at trader
      cases action : i.action c k with
      | deposit => rw [action] at trader; cases trader
      | redeem => rw [action] at trader; cases trader
      | _ => rw [action] at total; exact total
  · simp only [Instruction.closes, decide_true, Bool.not_true, Bool.false_eq_true] at stays

theorem fair_run (run : Run Step c history c') (reach : Reachable c) (vault : c.vaults.lookup k = some v)
    (fair : ∀ event ∈ history, event.2.fair event.1 k members = true) : ∃ v', c'.vaults.lookup k = some v' ∧
      v'.resolvedShareOffset = v.resolvedShareOffset ∧ c.sharePrice v ≤ c'.sharePrice v' ∧
      v'.localAum + v'.deployedAum + (history.map fun event => event.2.redeemed event.1 k members).sum =
        v.localAum + v.deployedAum + (history.map fun event => event.2.deposited event.1 k members).sum := by
  induction run with
  | start => exact ⟨v, vault, rfl, le_rfl, rfl⟩
  | @next history t i u previous taken ih =>
    obtain ⟨w, atMiddle, offset, risen, total⟩ := ih fun event member => fair event (List.mem_cons_of_mem _ member)
    obtain ⟨v', vault', offset', risen', total'⟩ :=
      taken.fair_step (reach.extend previous) atMiddle (fair (t, i) List.mem_cons_self)
    refine ⟨v', vault', offset'.trans offset, risen.trans risen', ?_⟩
    simp only [List.map_cons, List.sum_cons]
    omega

/-- Members who end with no fewer shares, everyone else holding what they held, have redeemed no
more than they deposited. -/
theorem Reachable.no_value_extraction (reach : Reachable c) (run : Run Step c history c')
    (vault : c.vaults.lookup k = some v) (vault' : c'.vaults.lookup k = some v')
    (signs : ∀ a, members a = true → a.canSign = true)
    (fair : ∀ event ∈ history, event.2.fair event.1 k members = true)
    (others : c'.sharesOfOthers members k v' = c.sharesOfOthers members k v)
    (kept : c.sharesOf members k v ≤ c'.sharesOf members k v') :
    (history.map fun event => event.2.redeemed event.1 k members).sum ≤
        (history.map fun event => event.2.deposited event.1 k members).sum ∧
      (history.map fun event => event.2.received event.1 k members).sum ≤
        (history.map fun event => event.2.deposited event.1 k members).sum := by
  obtain ⟨w, atEnd, offset, risen, total⟩ := fair_run run reach vault fair
  cases Option.some.inj (vault'.symm.trans atEnd)
  have supply := reach.shares_split vault signs
  have last : Reachable c' := reach.extend run
  have supply' := last.shares_split vault' signs
  have grown : c.bank.supply v.shareMint ≤ c'.bank.supply v'.shareMint := by omega
  unfold Chain.sharePrice sharePrice at risen
  rw [offset] at risen
  have held := OffsetPrice.assets_le_of_price_le (Nat.cast_pos.mpr v.resolvedShareOffset_pos) (Nat.cast_nonneg _)
    (Nat.cast_nonneg _) (Nat.cast_nonneg _) (Nat.cast_le.mpr grown) risen
  have assets : v.localAum + v.deployedAum ≤ v'.localAum + v'.deployedAum := Nat.cast_le.mp held
  have gross : (history.map fun event => event.2.redeemed event.1 k members).sum ≤
      (history.map fun event => event.2.deposited event.1 k members).sum := by omega
  have net : (history.map fun event => event.2.received event.1 k members).sum ≤
      (history.map fun event => event.2.redeemed event.1 k members).sum :=
    List.sum_le_sum fun event _ => Instruction.received_le event.2 event.1 k members
  exact ⟨gross, net.trans gross⟩

end Game

namespace Sample

def redeem : Redeem := ⟨vault, reserve, wallet user, shares user, wallet admin, shareMint, mint, user⟩

/-- A round trip of the depositor around a deployment. -/
def roundTrip : List Instruction :=
  [.vault (.deposit deposit 50000),
    .vault (.operatorWithdraw ⟨vault, reserve, wallet operator, mint, operator, none⟩ 100000),
    .vault (.redeem redeem 50000)]

def vaultDeployed : VaultState :=
  { vaultOpened with localAum := 100000, deployedAum := 100000, deployedPrincipal := 100000 }

end Sample

open Sample in
theorem round_trip_extracts_nothing :
    ((opened.events roundTrip).map fun event => event.2.redeemed event.1 vault (· = user)).sum ≤
        ((opened.events roundTrip).map fun event => event.2.deposited event.1 vault (· = user)).sum ∧
      ((opened.events roundTrip).map fun event => event.2.received event.1 vault (· = user)).sum ≤
        ((opened.events roundTrip).map fun event => event.2.deposited event.1 vault (· = user)).sum :=
  @Reachable.no_value_extraction opened (opened.runAll roundTrip) vault vaultOpened vaultDeployed (· = user) _
    (Chain.runAll_reachable _ _) (Chain.runAll_run _ _) opened_vault (by decide +kernel)
    (fun _ member => of_decide_eq_true member ▸ rfl) (by decide +kernel) (by decide +kernel) (by decide +kernel)

end Upshift
