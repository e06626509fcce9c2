import Upshift.Queue.Custody

namespace Upshift
open Guard KeyedStore History

/-- The request that an instruction opens, as it is first written. -/
def Instruction.opening (i : Instruction) (c : Chain) : Option WithdrawalRequest :=
  match i with
  | .queue (.requestWithdrawal a requestId shares minAssetsOut finalizer) =>
    (c.queues.lookup a.queue).map
      (RequestWithdrawal.record c a requestId.toNat shares.toNat minAssetsOut.toNat finalizer)
  | _ => none

/-- The request that an instruction closes, by a finalization or by a cancellation. -/
def Instruction.closing (i : Instruction) (c : Chain) : Option WithdrawalRequest :=
  match i with
  | .queue (.finalizeWithdrawal a _) => c.requests.lookup a.request
  | .queue (.cancelWithdrawal a _) => c.requests.lookup a.request
  | _ => none

/-- The queue, the request and the stamp that a finalization, a cancellation or an expedite quotes. -/
def Instruction.quotes : Instruction → Option (Pubkey × Pubkey × Nat)
  | .queue (.finalizeWithdrawal a expectedSequence) => some (a.queue, a.request, expectedSequence.toNat)
  | .queue (.cancelWithdrawal a expectedSequence) => some (a.queue, a.request, expectedSequence.toNat)
  | .queue (.expediteRequest a expectedSequence) => some (a.queue, a.request, expectedSequence.toNat)
  | _ => none

/-- The requests of one queue that a history opened, latest first. -/
def openedIn (history : List (Chain × Instruction)) (k : Pubkey) : List WithdrawalRequest :=
  history.filterMap fun event => (event.2.opening event.1).filter (·.queue = k)

def closedIn (history : List (Chain × Instruction)) (k : Pubkey) : List WithdrawalRequest :=
  history.filterMap fun event => (event.2.closing event.1).filter (·.queue = k)

/-- The same request, which may have been expedited since it was written. -/
def WithdrawalRequest.Same (r o : WithdrawalRequest) : Prop := r = { o with eligibleAt := r.eligibleAt }

/-- An expedite of the request at `key` that carried the stamp `sequence`. -/
def ExpeditedIn (history : List (Chain × Instruction)) (key : Pubkey) (sequence : Nat) : Prop :=
  ∃ t a expectedSequence q v r, (t, .queue (.expediteRequest a expectedSequence)) ∈ history ∧ a.request = key ∧
    r.sequence = sequence ∧ ExpediteRequest.Ran t a expectedSequence.toNat q v r

/-- What every event of a history did to an escrow account, added up. -/
def overEvents (amount : EscrowAction → Nat → Nat → Nat) (history : List (Chain × Instruction))
    (k escrow : Pubkey) : Nat :=
  (history.map fun event => amount (event.2.escrowAction event.1 k) (event.1.bank.balance escrow)
    ((event.1.next event.2).bank.balance escrow)).sum

def escrowedIn : List (Chain × Instruction) → Pubkey → Pubkey → Nat :=
  overEvents fun action before after => action.escrowed before after

def burnedIn : List (Chain × Instruction) → Pubkey → Pubkey → Nat :=
  overEvents fun action before after => action.burned before after

def returnedIn : List (Chain × Instruction) → Pubkey → Pubkey → Nat :=
  overEvents fun action before after => action.returned before after

theorem WithdrawalRequest.Same.refl (r : WithdrawalRequest) : r.Same r := rfl

theorem WithdrawalRequest.Same.queue {r o : WithdrawalRequest} (same : r.Same o) : r.queue = o.queue := by
  have written : r = { o with eligibleAt := r.eligibleAt } := same
  rw [written]

theorem WithdrawalRequest.Same.sequence {r o : WithdrawalRequest} (same : r.Same o) : r.sequence = o.sequence := by
  have written : r = { o with eligibleAt := r.eligibleAt } := same
  rw [written]

section Lists
variable {history : List (Chain × Instruction)} {k : Pubkey} {c : Chain} {i : Instruction} {r : WithdrawalRequest}

theorem mem_openedIn : r ∈ openedIn history k ↔
    ∃ event ∈ history, event.2.opening event.1 = some r ∧ r.queue = k := by
  simp only [openedIn, List.mem_filterMap, Option.filter_eq_some_iff, decide_eq_true_eq]

theorem openedIn_cons : openedIn ((c, i) :: history) k = openedIn history k ∨
    ∃ o, i.opening c = some o ∧ o.queue = k ∧ openedIn ((c, i) :: history) k = o :: openedIn history k := by
  simp only [openedIn, List.filterMap_cons]
  split
  · exact Or.inl rfl
  · rename_i o found
    simp only [Option.filter_eq_some_iff, decide_eq_true_eq] at found
    exact Or.inr ⟨o, found.1, found.2, rfl⟩

theorem closedIn_cons : closedIn ((c, i) :: history) k = closedIn history k ∨
    ∃ d, i.closing c = some d ∧ d.queue = k ∧ closedIn ((c, i) :: history) k = d :: closedIn history k := by
  simp only [closedIn, List.filterMap_cons]
  split
  · exact Or.inl rfl
  · rename_i d found
    simp only [Option.filter_eq_some_iff, decide_eq_true_eq] at found
    exact Or.inr ⟨d, found.1, found.2, rfl⟩

end Lists

section Step
variable {c c' : Chain} {i : Instruction} {k key : Pubkey} {r o d : WithdrawalRequest}

/-- A new request takes the next stamp of its queue. -/
theorem Step.opens (taken : Step c i c') (opening : i.opening c = some o) :
    ∃ q q', c.queues.lookup o.queue = some q ∧ c'.queues.lookup o.queue = some q' ∧
      o.sequence = q.sequence + 1 ∧ q'.sequence = o.sequence := by
  have ran := taken.executed
  unfold Instruction.opening at opening
  split at opening
  · obtain ⟨q, _, _, spec, rfl⟩ := RequestWithdrawal.handler_eq_ok ran
    rw [spec.queue, Option.map_some, Option.some.injEq] at opening
    subst opening
    exact ⟨q, _, spec.queue, Finmap.lookup_insert _, rfl, rfl⟩
  · cases opening

/-- A request that is closed was live, and is live no more. -/
theorem Step.closes (taken : Step c i c') (closing : i.closing c = some d) :
    ∃ key, c.requests.lookup key = some d ∧ c'.requests = c.requests.erase key := by
  have ran := taken.executed
  unfold Instruction.closing at closing
  split at closing
  · obtain ⟨_, _, _, _, _, _, _, _, _, _, _, spec, rfl⟩ := FinalizeWithdrawal.handler_eq_ok.mp ran
    exact ⟨_, closing, rfl⟩
  · obtain ⟨_, _, _, spec, rfl⟩ := CancelWithdrawal.handler_eq_ok.mp ran
    exact ⟨_, closing, rfl⟩
  · cases closing

/-- What an instruction quotes is what it finds. -/
theorem Step.quoted (taken : Step c i c') {sequence : Nat} (quotes : i.quotes = some (k, key, sequence)) :
    ∃ r, c.requests.lookup key = some r ∧ r.queue = k ∧ r.sequence = sequence := by
  have ran := taken.executed
  unfold Instruction.quotes at quotes
  split at quotes
  · cases quotes
    obtain ⟨_, r, _, _, _, _, _, _, _, _, _, spec, _⟩ := FinalizeWithdrawal.handler_eq_ok.mp ran
    exact ⟨r, spec.valid.request, spec.valid.requestQueue, spec.sequence⟩
  · cases quotes
    obtain ⟨_, r, _, spec, _⟩ := CancelWithdrawal.handler_eq_ok.mp ran
    exact ⟨r, spec.request, spec.requestQueue, spec.sequence⟩
  · cases quotes
    obtain ⟨_, _, r, spec, _⟩ := ExpediteRequest.handler_eq_ok ran
    exact ⟨r, spec.request, spec.requestQueue, spec.sequence⟩
  · cases quotes

end Step

section Run
variable {c c₀ : Chain} {k key : Pubkey} {r o d : WithdrawalRequest} {history : List (Chain × Instruction)}

/-- Every live request was opened in the past, and has been expedited since if its eligibility has changed. -/
theorem live_opened (first : c₀.Genesis) (run : Run Step c₀ history c) (live : c.requests.lookup key = some r) :
    ∃ later t i earlier o, history = later ++ (t, i) :: earlier ∧ i.opening t = some o ∧ r.Same o ∧
      (r.eligibleAt = o.eligibleAt ∨ ExpeditedIn later key r.sequence) := by
  induction run generalizing r with
  | start =>
    obtain ⟨_, rfl⟩ := first
    cases live
  | @next history t i u previous taken ih =>
    rcases taken.request_source live with before | ⟨a, n, q, v, r₀, rfl, rfl, ran, rfl⟩ |
      ⟨a, _, _, _, _, q, _, _, rfl, rfl, ran, rfl, _⟩
    · obtain ⟨later, t₀, i₀, earlier, o, rfl, opening, same, eligible⟩ := ih before
      refine ⟨(t, i) :: later, t₀, i₀, earlier, o, rfl, opening, same, eligible.imp_right ?_⟩
      rintro ⟨t₁, a, n, q, v, r₁, member, rest⟩
      exact ⟨t₁, a, n, q, v, r₁, List.mem_cons_of_mem _ member, rest⟩
    · obtain ⟨later, t₀, i₀, earlier, o, rfl, opening, same, _⟩ := ih ran.request
      have written : r₀ = { o with eligibleAt := r₀.eligibleAt } := same
      refine ⟨(t, _) :: later, t₀, i₀, earlier, o, rfl, opening, ?_, Or.inr ?_⟩
      · rw [written]
        rfl
      · exact ⟨t, a, n, q, v, r₀, List.mem_cons_self, rfl, rfl, ran⟩
    · refine ⟨[], t, _, history, _, rfl, ?_, .refl _, Or.inl rfl⟩
      simp only [Instruction.opening, ran.queue, Option.map_some]

theorem live_mem (first : c₀.Genesis) (run : Run Step c₀ history c) (live : c.requests.lookup key = some r)
    (here : r.queue = k) : ∃ o ∈ openedIn history k, r.Same o := by
  obtain ⟨later, t, i, earlier, o, rfl, opening, same, _⟩ := live_opened first run live
  exact ⟨o, mem_openedIn.mpr ⟨(t, i), List.mem_append_right _ List.mem_cons_self, opening, same.queue ▸ here⟩, same⟩

/-- A queue's counter is never behind a stamp that it gave out. -/
theorem opened_le (run : Run Step c₀ history c) (opened : o ∈ openedIn history k) :
    ∃ q, c.queues.lookup k = some q ∧ o.sequence ≤ q.sequence := by
  induction run with
  | start => cases opened
  | @next history t i u previous taken ih =>
    have kept : o ∈ openedIn history k → ∃ q, u.queues.lookup k = some q ∧ o.sequence ≤ q.sequence := by
      intro before
      obtain ⟨q, queue, bound⟩ := ih before
      obtain ⟨q', queue'⟩ := Option.isSome_iff_exists.mp (taken.queue_stays (Option.isSome_of_eq_some queue))
      exact ⟨q', queue', bound.trans (taken.sequence_le queue queue')⟩
    rcases @openedIn_cons history k t i with same | ⟨o', opening, rfl, more⟩
    · exact kept (same ▸ opened)
    · rw [more] at opened
      rcases List.mem_cons.mp opened with rfl | before
      · obtain ⟨_, q', _, queue', _, stamp⟩ := taken.opens opening
        exact ⟨q', queue', stamp.ge⟩
      · exact kept before

/-- The stamps of a queue's requests rise. -/
theorem opened_rising (run : Run Step c₀ history c) (k : Pubkey) :
    (openedIn history k).Pairwise fun later earlier => earlier.sequence < later.sequence := by
  induction run with
  | start => exact .nil
  | @next history t i u previous taken ih =>
    rcases @openedIn_cons history k t i with same | ⟨o, opening, rfl, more⟩
    · exact same ▸ ih
    · rw [more]
      refine .cons (fun o' before => ?_) ih
      obtain ⟨q, queue, bound⟩ := opened_le previous before
      obtain ⟨q', _, queue', _, stamp, _⟩ := taken.opens opening
      cases Option.some.inj (queue.symm.trans queue')
      omega

theorem opened_stamps (run : Run Step c₀ history c) (k : Pubkey) :
    ((openedIn history k).map WithdrawalRequest.sequence).Nodup :=
  List.pairwise_map.mpr ((opened_rising run k).imp fun rises => rises.ne')

/-- A request that was closed had been opened before. -/
theorem closed_opened (first : c₀.Genesis) (run : Run Step c₀ history c) (closed : d ∈ closedIn history k) :
    ∃ o ∈ openedIn history k, d.Same o := by
  induction run with
  | start => cases closed
  | @next history t i u previous taken ih =>
    have kept : (∃ o ∈ openedIn history k, d.Same o) → ∃ o ∈ openedIn ((t, i) :: history) k, d.Same o := by
      rintro ⟨o, opened, same⟩
      obtain ⟨event, member, rest⟩ := mem_openedIn.mp opened
      exact ⟨o, mem_openedIn.mpr ⟨event, List.mem_cons_of_mem _ member, rest⟩, same⟩
    rcases @closedIn_cons history k t i with same | ⟨d', closing, here, more⟩
    · exact kept (ih (same ▸ closed))
    · rw [more] at closed
      rcases List.mem_cons.mp closed with rfl | before
      · obtain ⟨key, live, _⟩ := taken.closes closing
        exact kept (live_mem first previous live here)
      · exact kept (ih before)

/-- The stamp of a live request has not been closed. -/
theorem live_unclosed (first : c₀.Genesis) (run : Run Step c₀ history c) (live : c.requests.lookup key = some r)
    (here : r.queue = k) (closed : d ∈ closedIn history k) : d.sequence ≠ r.sequence := by
  induction run generalizing r with
  | start => cases closed
  | @next history t i u previous taken ih =>
    have reach : Reachable t := ⟨c₀, history, first.initial, previous⟩
    rcases taken.request_origin live with ⟨r₀, _, before, rfl⟩ | ⟨a, _, _, _, _, q, _, _, rfl, rfl, ran, rfl, _⟩
    · have prior : d ∈ closedIn history k → d.sequence ≠ r₀.sequence := ih before here
      rcases @closedIn_cons history k t i with same | ⟨d', closing, sameQueue, more⟩
      · exact prior (same ▸ closed)
      · rw [more] at closed
        rcases List.mem_cons.mp closed with rfl | earlier
        · -- The request just closed is the only live one with its stamp, and is gone.
          obtain ⟨key', live', requests⟩ := taken.closes closing
          rw [requests] at live
          intro sameStamp
          exact (lookup_erase_cases live).1
            (reach.stamps_distinct key key' r₀ d before live' (here.trans sameQueue.symm) sameStamp.symm)
        · exact prior earlier
    · have sameQueue : a.queue = k := here
      subst sameQueue
      rcases @closedIn_cons history a.queue t _ with same | ⟨_, closing, _⟩
      · obtain ⟨o, opened, written⟩ := closed_opened first previous (same ▸ closed)
        obtain ⟨q', queue, bound⟩ := opened_le previous opened
        cases Option.some.inj (ran.queue.symm.trans queue)
        rw [written.sequence]
        exact Nat.ne_of_lt (Nat.lt_succ_of_le bound)
      · cases closing

/-- No stamp is closed twice. -/
theorem closed_once (first : c₀.Genesis) (run : Run Step c₀ history c) (k : Pubkey) :
    ((closedIn history k).map WithdrawalRequest.sequence).Nodup := by
  induction run with
  | start => exact .nil
  | @next history t i u previous taken ih =>
    rcases @closedIn_cons history k t i with same | ⟨d, closing, here, more⟩
    · exact same ▸ ih
    · rw [more, List.map_cons]
      refine List.nodup_cons.mpr ⟨fun again => ?_, ih⟩
      obtain ⟨d', closed, sameStamp⟩ := List.mem_map.mp again
      obtain ⟨key, live, _⟩ := taken.closes closing
      exact live_unclosed first previous live here closed sameStamp

/-- In one step the pending shares move with what is escrowed, burned and returned. -/
theorem Step.pending_flow {t u : Chain} {i : Instruction} {escrow : Pubkey} (reach : Reachable t)
    (taken : Step t i u) (kept : ∀ q, u.queues.lookup k = some q → q.escrowShares = escrow) :
    u.pendingAt k + (i.escrowAction t k).burned (t.bank.balance escrow) (u.bank.balance escrow) +
        (i.escrowAction t k).returned (t.bank.balance escrow) (u.bank.balance escrow) =
      t.pendingAt k + (i.escrowAction t k).escrowed (t.bank.balance escrow) (u.bank.balance escrow) := by
  cases queue : t.queues.lookup k with
  | some q =>
    obtain ⟨q', queue'⟩ := Option.isSome_iff_exists.mp (taken.queue_stays (Option.isSome_of_eq_some queue))
    have sound := reach.queues_sound k q queue
    have flow := (taken.escrow reach.bank_sound sound.formed sound.escrows queue queue').pending_add
    simp only [Chain.escrow, taken.escrow_kept kept q queue, kept q' queue'] at flow
    rw [Chain.pendingAt, Chain.pendingAt, queue, queue', Option.elim_some, Option.elim_some]
    exact flow
  | none =>
    rw [taken.pending_fresh queue, taken.escrowAction_absent queue, Chain.pendingAt, queue]
    rfl

/-- At every moment the shares ever escrowed are pending, burned or returned. -/
theorem shares_conserved {escrow : Pubkey} (first : c₀.Genesis) (run : Run Step c₀ history c)
    (kept : ∀ q, c.queues.lookup k = some q → q.escrowShares = escrow) :
    escrowedIn history k escrow = c.pendingAt k + burnedIn history k escrow + returnedIn history k escrow := by
  induction run with
  | start =>
    obtain ⟨_, rfl⟩ := first
    rfl
  | @next history t i u previous taken ih =>
    have reach : Reachable t := ⟨c₀, history, first.initial, previous⟩
    have flow := taken.pending_flow reach kept
    have total := ih (taken.escrow_kept kept)
    simp only [escrowedIn, burnedIn, returnedIn, overEvents, List.map_cons, List.sum_cons, taken.next_eq] at total ⊢
    omega

/-- The life of the requests of a queue over a whole history. -/
structure Lifecycle (history : List (Chain × Instruction)) (k : Pubkey) (q : WithdrawalQueue) : Prop where
  stamps : ((openedIn history k).map WithdrawalRequest.sequence).Nodup
  closings : ((closedIn history k).map WithdrawalRequest.sequence).Nodup
  closed : ∀ later t i earlier d, history = later ++ (t, i) :: earlier → i.closing t = some d → d.queue = k →
    ∃ o ∈ openedIn earlier k, d.Same o
  acts : ∀ later t i earlier key sequence, history = later ++ (t, i) :: earlier →
    i.quotes = some (k, key, sequence) → ∃ r, t.requests.lookup key = some r ∧ ∃ o ∈ openedIn earlier k,
      r.Same o ∧ o.sequence = sequence ∧ key = .withdrawalRequest k o.owner o.requestId ∧
        ∀ o' ∈ openedIn history k, o'.sequence = sequence → o' = o
  conserved : escrowedIn history k q.escrowShares =
    q.pendingShares + burnedIn history k q.escrowShares + returnedIn history k q.escrowShares

theorem request_lifecycle {q : WithdrawalQueue} (first : c₀.Genesis) (run : Run Step c₀ history c)
    (queue : c.queues.lookup k = some q) : Lifecycle history k q := by
  constructor
  · exact opened_stamps run k
  · exact closed_once first run k
  · rintro later t i earlier d rfl closing here
    obtain ⟨_, before, taken, _⟩ := run.split
    obtain ⟨key, live, _⟩ := taken.closes closing
    exact live_mem first before live here
  · rintro later t i earlier key sequence rfl quotes
    obtain ⟨_, before, taken, _⟩ := run.split
    obtain ⟨r, live, here, stamp⟩ := taken.quoted quotes
    obtain ⟨o, opened, same⟩ := live_mem first before live here
    have reach : Reachable t := ⟨c₀, earlier, first.initial, before⟩
    have address := (reach.requests_sound key r live).key
    have written : r = { o with eligibleAt := r.eligibleAt } := same
    refine ⟨r, live, o, opened, same, same.sequence ▸ stamp, ?_, fun o' opened' sameStamp => ?_⟩
    · rw [address, here, written]
    · obtain ⟨event, member, rest⟩ := mem_openedIn.mp opened
      have opened : o ∈ openedIn (later ++ (t, i) :: earlier) k :=
        mem_openedIn.mpr ⟨event, List.mem_append_right _ (List.mem_cons_of_mem _ member), rest⟩
      exact List.inj_on_of_nodup_map (opened_stamps run k) opened' opened
        (sameStamp.trans (stamp.symm.trans same.sequence))
  · have conserved := @shares_conserved c c₀ k history q.escrowShares first run fun q' queue' => by
      cases Option.some.inj (queue.symm.trans queue')
      rfl
    rwa [Chain.pendingAt, queue, Option.elim_some] at conserved

end Run

namespace Sample

/-- The request is cancelled and its id used again, and a cancellation that quotes the old stamp fails. -/
def replaying : List Instruction :=
  [.queue (.cancelWithdrawal ⟨queue, user, request 7, escrowShares, shareMint, shares user⟩ 1),
    .queue (.requestWithdrawal (requesting 7) 7 40000 0 .default),
    .queue (.cancelWithdrawal ⟨queue, user, request 7, escrowShares, shareMint, shares user⟩ 1)]

def replayed : Chain := (Chain.genesis (some admin)).runAll (opening ++ queueing ++ replaying)

def queueReplayed : WithdrawalQueue := { queueOpened with sequence := 2, pendingShares := 40000 }

end Sample

open Sample in
theorem replayed_lifecycle :
    Lifecycle ((Chain.genesis (some admin)).events (opening ++ queueing ++ replaying)) queue queueReplayed :=
  request_lifecycle ⟨some admin, rfl⟩ (Chain.runAll_run _ (opening ++ queueing ++ replaying)) (by decide +kernel)

end Upshift
