import Upshift.Queue.Equivalence
import Upshift.Queue.Payments

namespace Upshift
open Guard KeyedStore History Replay

/-- The request and the stamp that an event of the queue at `k` opens. -/
def QueueEvent.opens (k : Pubkey) : QueueEvent → Option (Pubkey × Nat)
  | .withdrawalRequested _ queue request _ _ sequence _ _ _ _ _ _ =>
    if queue = k then some (request, sequence) else none
  | _ => none

def requestedKeys (k : Pubkey) (log : List QueueEvent) : List (Pubkey × Nat) := log.filterMap (QueueEvent.opens k)

/-- The address and the stamp of a request. -/
def WithdrawalRequest.key (r : WithdrawalRequest) : Pubkey × Nat :=
  (.withdrawalRequest r.queue r.owner r.requestId, r.sequence)

section Run
variable {c c₀ c' : Chain} {i : Instruction} {k : Pubkey} {q : WithdrawalQueue}
  {history : List (Chain × Instruction)}

theorem openedIn_quiet (none : i.opening c = none) : openedIn ((c, i) :: history) k = openedIn history k :=
  List.filterMap_cons_none (by rw [none, Option.filter_none])

theorem openedIn_here {o : WithdrawalRequest} (opening : i.opening c = some o) (here : o.queue = k) :
    openedIn ((c, i) :: history) k = o :: openedIn history k :=
  List.filterMap_cons_some (by rw [opening, Option.filter_some, if_pos (decide_eq_true here)])

theorem openedIn_elsewhere {o : WithdrawalRequest} (opening : i.opening c = some o) (other : o.queue ≠ k) :
    openedIn ((c, i) :: history) k = openedIn history k :=
  List.filterMap_cons_none (by rw [opening, Option.filter_some, if_neg (by simpa using other)])

theorem requestedKeys_quiet {e : QueueEvent} (none : e.opens k = none) (log : List QueueEvent) :
    requestedKeys k (e :: log) = requestedKeys k log :=
  List.filterMap_cons_none none

theorem requestedKeys_here {r : WithdrawalRequest} (here : r.queue = k) (vault key : Pubkey) (log : List QueueEvent) :
    requestedKeys k (r.requestedEvent vault key :: log) = (key, r.sequence) :: requestedKeys k log :=
  List.filterMap_cons_some (if_pos here)

theorem requestedKeys_elsewhere {r : WithdrawalRequest} (other : r.queue ≠ k) (vault key : Pubkey)
    (log : List QueueEvent) : requestedKeys k (r.requestedEvent vault key :: log) = requestedKeys k log :=
  List.filterMap_cons_none (if_neg other)

/-- A step that keeps every stamp counter opens nothing. -/
theorem Step.opens_nothing (taken : Step c i c')
    (queues : ∀ {k q q'}, c.queues.lookup k = some q → c'.queues.lookup k = some q' → q.Configured q') :
    i.opening c = none := by
  by_contra opened
  obtain ⟨o, opening⟩ := Option.ne_none_iff_exists'.mp opened
  obtain ⟨q, q', queue, queue', stamp, counter⟩ := taken.opens opening
  have kept := (queues queue queue').sequence
  omega

/-- The events announce the requests that are opened, in the same order. -/
theorem Step.requested_keys (taken : Step c i c')
    (before : requestedKeys k c.log = (openedIn history k).map WithdrawalRequest.key) :
    requestedKeys k c'.log = (openedIn ((c, i) :: history) k).map WithdrawalRequest.key := by
  cases taken.log_move with
  | silent _ queues log => rw [log, before, openedIn_quiet (taken.opens_nothing queues)]
  | @general _ e _ queues log other =>
    rw [log, openedIn_quiet (taken.opens_nothing queues), ← before]
    refine requestedKeys_quiet ?_ _
    cases e with
    | withdrawalRequested | withdrawalExpedited | withdrawalFinalized | withdrawalCancelled => cases other
    | queueInitialized | queueConfigUpdated | vaultReleased | escrowSwept => rfl
  | expedited label | cancelled label | finalized label =>
    subst label
    rw [openedIn_quiet rfl, ← before]
    exact requestedKeys_quiet rfl _
  | @opened a requestId shares minAssetsOut finalizer q v escrowed label ran =>
    subst label
    have opening : (Instruction.queue (.requestWithdrawal a requestId shares minAssetsOut finalizer)).opening c = some
        (RequestWithdrawal.record c a requestId.toNat shares.toNat minAssetsOut.toNat finalizer q) := by
      simp only [Instruction.opening, ran.queue, Option.map_some]
    by_cases here : a.queue = k
    · have key : (RequestWithdrawal.record c a requestId.toNat shares.toNat minAssetsOut.toNat finalizer q).key =
          (a.request, q.sequence + 1) := congrArg (·, q.sequence + 1) ran.key.symm
      rw [openedIn_here opening here, List.map_cons, ← before, key]
      exact requestedKeys_here here _ _ _
    · rw [openedIn_elsewhere opening here, ← before]
      exact requestedKeys_elsewhere here _ _ _

theorem requested_keys (first : c₀.Genesis) (run : Run Step c₀ history c) :
    requestedKeys k c.log = (openedIn history k).map WithdrawalRequest.key := by
  induction run with
  | start =>
    obtain ⟨_, rfl⟩ := first
    rfl
  | next _ taken ih => exact taken.requested_keys ih

/-- Every event of the log found the pending set that the earlier ones tell. -/
theorem log_accurate (first : c₀.Genesis) (run : Run Step c₀ history c) {later earlier : List QueueEvent}
    {e : QueueEvent} (split : c.log = later ++ e :: earlier) : e.Accurate k (pendingSet k earlier) := by
  induction run generalizing later with
  | start =>
    obtain ⟨_, rfl⟩ := first
    exact absurd split.symm (List.append_ne_nil_of_right_ne_nil _ (List.cons_ne_nil _ _))
  | @next history t i u previous taken ih =>
    have reach : Reachable t := ⟨c₀, history, first.initial, previous⟩
    rcases taken.accurate (reach.told k) with log | ⟨e', log, accurate⟩
    · exact ih (log.symm.trans split)
    · rw [log] at split
      rcases List.cons_eq_append_iff.mp split with ⟨_, same⟩ | ⟨later', _, rest⟩
      · cases same
        exact accurate
      · exact ih rest

/-- What the log of a queue tells of it after a history. What a finalization logs as paid has gone from its escrow to
the recipient. -/
structure Reconstructs (history : List (Chain × Instruction)) (c : Chain) (k : Pubkey) (q : WithdrawalQueue) :
    Prop where
  pending : ∀ x p, (pendingSet k c.log).lookup x = some p ↔
    ∃ r, c.requests.lookup x.1 = some r ∧ r.queue = k ∧ r.sequence = x.2 ∧ r.entry = p
  keys : (requestedKeys k c.log).Nodup
  accurate : ∀ later e earlier, c.log = later ++ e :: earlier → e.Accurate k (pendingSet k earlier)
  paid : paidIn k c.log = sentFrom history q.escrowAssets
  forwarded : ∀ event ∈ history, ∀ a n, event.2 = .queue (.finalizeWithdrawal a n) → a.queue = k →
    a.escrowAssets = q.escrowAssets ∧ ∃ assets,
      paidIn k (event.1.next event.2).log = paidIn k event.1.log + assets ∧
        a.Forwards event.1 (event.1.midway event.2) (event.1.next event.2) assets

/-- In every run from before either program existed, the events of every queue reconstruct it. -/
theorem log_reconstructs (first : c₀.Genesis) (run : Run Step c₀ history c) (queue : c.queues.lookup k = some q) :
    Reconstructs history c k q := by
  have reach : Reachable c := ⟨c₀, history, first.initial, run⟩
  have formed := (reach.queues_sound k q queue).formed
  obtain ⟨vaultVersion, vault, _⟩ := formed.vault
  have here : k = .withdrawalQueue (.vaultState q.depositMint vaultVersion) := vault ▸ formed.key
  constructor
  · intro x p
    rw [(reach.told k).mirrors x]
    exact Chain.pendingEntry_eq_some
  · have stamps := opened_stamps run k
    rw [requested_keys first run]
    refine List.Nodup.of_map Prod.snd ?_
    rwa [List.map_map]
  · exact fun later e earlier split => log_accurate first run split
  · rw [formed.escrowAssets]
    exact paid_total first run here
  · rintro ⟨before, _⟩ member a n rfl rfl
    obtain ⟨_, after, _, previous, taken⟩ := Run.at_event run member
    obtain ⟨q', _, _, _, _, _, _, _, _, _, _, ran, _⟩ := FinalizeWithdrawal.handler_eq_ok.mp taken.executed
    have formed' := (Reachable.queues_sound ⟨c₀, _, first.initial, previous⟩ a.queue q' ran.valid.queue).formed
    refine ⟨?_, taken.next_eq ▸ taken.forwards⟩
    rw [← ran.valid.escrowAssets, (formed'.named here).1, (formed.named here).1]

end Run

namespace Sample

/-- The request is paid, its id used again, the new one expedited, and the vault released and attached again. -/
def telling : List Instruction :=
  [.queue (.finalizeWithdrawal (requestOpened.finalization (request 7) queueOpened vaultMatured (wallet admin) user) 1),
    .queue (.requestWithdrawal (requesting 7) 7 40000 0 .default),
    .queue (.expediteRequest ⟨queue, vault, operator, request 7⟩ 2),
    .queue (.releaseVault ⟨queue, vault, mint, admin⟩),
    .vault (.attachWithdrawalQueue ⟨vault, mint, admin⟩ queue)]

def told : Chain := (Chain.genesis (some admin)).runAll (opening ++ queueing ++ maturing ++ telling)

def queueTold : WithdrawalQueue := { queueOpened with sequence := 2, pendingShares := 40000 }

/-- The log of the run pays 49500 and leaves the second request pending. -/
example : paidIn queue told.log = 49500 ∧ requestedKeys queue told.log = [(request 7, 2), (request 7, 1)] := by
  decide +kernel

end Sample

open Sample in
theorem told_reconstructs : Reconstructs
    ((Chain.genesis (some admin)).events (opening ++ queueing ++ maturing ++ telling)) told queue queueTold :=
  log_reconstructs ⟨some admin, rfl⟩ (Chain.runAll_run _ (opening ++ queueing ++ maturing ++ telling))
    (by decide +kernel)

end Upshift
