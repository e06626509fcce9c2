import Mathlib.Data.Set.Basic
import Upshift.Queue.Lifecycle
import Upshift.Vault.Handover

namespace Upshift
open Guard KeyedStore History

/-- A fulfillment window is off, or leaves at least a day. -/
def WithdrawalQueue.WindowBounded (q : WithdrawalQueue) : Prop :=
  q.fulfillmentWindowSeconds ≠ 0 → minFulfillmentWindowSeconds ≤ q.fulfillmentWindowSeconds

/-- The timestamps of a request made under the settings of `q`, which an expedite may since have brought
forward. -/
structure WithdrawalRequest.Scheduled (r : WithdrawalRequest) (q : WithdrawalQueue) : Prop where
  asked : r.requestedAt ≤ r.eligibleAt
  due : r.eligibleAt ≤ r.scheduledEligibleAt
  scheduled : r.scheduledEligibleAt = r.requestedAt + q.cooldownSeconds
  forever : r.expiresAt = 0 ↔ q.fulfillmentWindowSeconds = 0
  deadline : q.fulfillmentWindowSeconds ≠ 0 →
    r.expiresAt = r.scheduledEligibleAt + q.fulfillmentWindowSeconds ∧
      r.scheduledEligibleAt + minFulfillmentWindowSeconds ≤ r.expiresAt

/-- The instants at which a request may be finalized. -/
def WithdrawalRequest.window (r : WithdrawalRequest) : Set Int :=
  {t | r.eligibleAt ≤ t ∧ (r.expiresAt ≠ 0 → t < r.expiresAt)}

theorem WithdrawalRequest.mem_window {r : WithdrawalRequest} {t : Int} :
    t ∈ r.window ↔ r.isEligible t = true ∧ r.isExpired t = false := by
  simp only [WithdrawalRequest.window, WithdrawalRequest.isEligible, WithdrawalRequest.isExpired, Set.mem_ofPred_eq,
    decide_eq_true_eq, decide_eq_false_iff_not, not_and, Int.not_le]

section Step
variable {c c' : Chain} {i : Instruction} {k key : Pubkey} {q : WithdrawalQueue} {r r' : WithdrawalRequest}

/-- Every setter of the window keeps it in bounds. -/
theorem Step.window_bounded (taken : Step c i c')
    (bounded : ∀ k q, c.queues.lookup k = some q → q.WindowBounded) :
    ∀ k q, c'.queues.lookup k = some q → q.WindowBounded := by
  have ran := taken.executed
  have rewritten : ∀ {k₀ q₀}, q₀.WindowBounded → ∀ k q, (c.queues.insert k₀ q₀).lookup k = some q →
      q.WindowBounded := by
    intro k₀ q₀ within k q found
    rcases lookup_insert_cases found with ⟨_, rfl⟩ | ⟨_, before⟩
    · exact within
    · exact bounded k q before
  cases taken.move with
  | quiet _ _ _ _ queues => exact queues ▸ bounded
  | configured _ _ _ _ _ _ queues => exact queues ▸ bounded
  | detached _ _ _ _ _ _ queues => exact queues ▸ bounded
  | scheduled label =>
    unfold Instruction.schedules at label
    split at label
    · rename_i a seconds
      have ran : SetCooldown.handler c a seconds.toNat = .ok c' := ran
      obtain ⟨q, _, q', queue, _, _, _, _, changed, rfl⟩ := QueueAdmin.update_eq_ok ran
      obtain ⟨_, rfl⟩ := WithdrawalQueue.setCooldown_eq_ok.mp changed
      exact rewritten (bounded _ q queue)
    · rename_i a seconds
      have ran : SetFulfillmentWindow.handler c a seconds.toNat = .ok c' := ran
      obtain ⟨_, _, q', _, _, _, _, _, changed, rfl⟩ := QueueAdmin.update_eq_ok ran
      obtain ⟨within, _, rfl⟩ := WithdrawalQueue.setFulfillmentWindow_eq_ok.mp changed
      exact rewritten within
    · cases label
  | opened => exact rewritten fun some => absurd rfl some
  | @requested a _ _ _ _ q _ _ _ spec =>
    have before : q.WindowBounded := bounded a.queue q spec.queue
    exact rewritten before
  | @cancelled a _ q _ _ _ spec =>
    have before : q.WindowBounded := bounded a.queue q spec.queue
    exact rewritten before
  | @finalized a _ q _ _ _ _ _ _ _ _ _ _ _ spec =>
    have before : q.WindowBounded := bounded a.queue q spec.valid.queue
    exact rewritten before
  | attached | reported | registered | deregistered | settled | expedited | initialized | closed => exact bounded
  | deposited | redeemed | withdrew | returned | swept | banked => exact bounded

theorem Reachable.window_bounded (reach : Reachable c) : ∀ k q, c.queues.lookup k = some q → q.WindowBounded := by
  refine reach.preserves ?_ (fun _ _ _ bounded => bounded) fun _ _ _ _ bounded taken => taken.window_bounded bounded
  intro authority k q queue
  cases queue

/-- A request that stays live keeps everything but its eligibility, which an expedite brings forward to the present. -/
theorem Step.rescheduled (taken : Step c i c') (live : c.requests.lookup key = some r)
    (live' : c'.requests.lookup key = some r') : r'.Same r ∧ (r'.eligibleAt = r.eligibleAt ∨
      (∃ a expectedSequence, i = .queue (.expediteRequest a expectedSequence) ∧ a.request = key) ∧
        r'.eligibleAt < r.eligibleAt ∧ r'.eligibleAt = c'.clock) := by
  rcases taken.request_source live' with before | ⟨a, n, q, v, r₀, label, rfl, ran, rfl⟩ |
    ⟨a, _, _, _, _, q, _, _, _, rfl, ran, _⟩
  · cases Option.some.inj (live.symm.trans before)
    exact ⟨.refl r, Or.inl rfl⟩
  · cases Option.some.inj (live.symm.trans ran.request)
    subst label
    obtain ⟨_, _, _, _, rfl⟩ := ExpediteRequest.handler_eq_ok taken.executed
    have early : ¬r.eligibleAt ≤ c.clock := of_decide_eq_false ran.early
    exact ⟨rfl, Or.inr ⟨⟨a, n, rfl, rfl⟩, Int.not_le.mp early, rfl⟩⟩
  · cases ran.fresh.symm.trans live

theorem WithdrawalRequest.Same.expiresAt (same : r'.Same r) : r'.expiresAt = r.expiresAt := by
  have written : r' = { r with eligibleAt := r'.eligibleAt } := same
  rw [written]

/-- No instant still to come is taken out of the window. -/
theorem WithdrawalRequest.Same.window (same : r'.Same r) (sooner : r'.eligibleAt ≤ r.eligibleAt) :
    r.window ⊆ r'.window := by
  rintro t ⟨eligible, open'⟩
  refine ⟨sooner.trans eligible, ?_⟩
  rw [same.expiresAt]
  exact open'

end Step

section Run
variable {c c₀ d : Chain} {key : Pubkey} {q : WithdrawalQueue} {r r' o : WithdrawalRequest}
  {history after : List (Chain × Instruction)}

theorem clock_nonneg (first : c₀.Genesis) (run : Run Step c₀ history c)
    (forward : ∀ event ∈ history, event.2.rewinds event.1 = false) : 0 ≤ c.clock := by
  induction run with
  | start =>
    obtain ⟨_, rfl⟩ := first
    exact le_rfl
  | next previous taken ih =>
    obtain ⟨now, past⟩ := List.forall_mem_cons.mp forward
    exact (ih past).trans (taken.clock_le now)

/-- A request is first written with the schedule that its queue's settings and the clock give it. -/
theorem RequestWithdrawal.Ran.scheduled {a : RequestWithdrawal} {requestId shares minAssetsOut : Nat}
    {finalizer : Pubkey} {v : VaultState} {escrowed : Bank}
    (ran : RequestWithdrawal.Ran c a requestId shares q v escrowed)
    (reach : Reachable c) (now : 0 ≤ c.clock) :
    (RequestWithdrawal.record c a requestId shares minAssetsOut finalizer q).Scheduled q := by
  have bounded : q.WindowBounded := reach.window_bounded a.queue q ran.queue
  unfold WithdrawalQueue.WindowBounded at bounded
  have least : (0 : Int) < minFulfillmentWindowSeconds := by decide
  constructor
  · simp only [RequestWithdrawal.record]
    omega
  · exact le_rfl
  · rfl
  · simp only [RequestWithdrawal.record]
    by_cases off : q.fulfillmentWindowSeconds = 0
    · simp only [off, if_true]
    · rw [if_neg off]
      omega
  · intro on
    have wide := bounded on
    refine ⟨if_neg on, ?_⟩
    simp only [RequestWithdrawal.record, if_neg on]
    omega

/-- Every live request still has the schedule it was made with, apart from an earlier eligibility. -/
theorem live_scheduled (first : c₀.Genesis) (run : Run Step c₀ history c)
    (forward : ∀ event ∈ history, event.2.rewinds event.1 = false) (live : c.requests.lookup key = some r) :
    ∃ later t i earlier o q, history = later ++ (t, i) :: earlier ∧ i.opening t = some o ∧ r.Same o ∧
      t.queues.lookup r.queue = some q ∧ r.requestedAt = t.clock ∧ r.Scheduled q := by
  induction run generalizing r with
  | start =>
    obtain ⟨_, rfl⟩ := first
    cases live
  | @next history t i u previous taken ih =>
    obtain ⟨now, past⟩ := List.forall_mem_cons.mp forward
    rcases taken.request_source live with before | ⟨a, n, q, v, r₀, rfl, rfl, ran, rfl⟩ |
      ⟨a, _, _, _, _, q, _, _, rfl, rfl, ran, rfl, _⟩
    · obtain ⟨later, t₀, i₀, earlier, o, q, rfl, rest⟩ := ih past before
      exact ⟨(t, i) :: later, t₀, i₀, earlier, o, q, rfl, rest⟩
    · obtain ⟨later, t₀, i₀, earlier, o, q, rfl, opening, same, queue, asked, scheduled⟩ := ih past ran.request
      have onward := clock_past previous past _ (List.mem_append_right _ List.mem_cons_self)
      have early : ¬r₀.eligibleAt ≤ t.clock := of_decide_eq_false ran.early
      have due := scheduled.due
      have written : r₀ = { o with eligibleAt := r₀.eligibleAt } := same
      refine ⟨(t, _) :: later, t₀, i₀, earlier, o, q, rfl, opening, ?_, queue, asked, ⟨?_, ?_, scheduled.scheduled,
        scheduled.forever, scheduled.deadline⟩⟩
      · rw [written]
        rfl
      · exact asked ▸ onward
      · simp only
        omega
    · have reach : Reachable t := ⟨c₀, history, first.initial, previous⟩
      refine ⟨[], t, _, history, _, q, rfl, ?_, .refl _, ran.queue, rfl,
        ran.scheduled reach (clock_nonneg first previous past)⟩
      simp only [Instruction.opening, ran.queue, Option.map_some]

/-- A request found later at the address of a live one is the same one, or carries a later stamp. -/
theorem live_again (sound : c.RequestsSound) (run : Run Step c after d) (live : c.requests.lookup key = some r)
    (live' : d.requests.lookup key = some r') : r'.Same r ∨ r.sequence < r'.sequence := by
  obtain ⟨q, queue, _, stamp⟩ := (sound key r live).stamped
  have address := (sound key r live).key
  have issued : ∀ {after d}, Run Step c after d → ∃ q, d.queues.lookup r.queue = some q ∧ r.sequence ≤ q.sequence := by
    intro after d run
    induction run with
    | start => exact ⟨q, queue, stamp⟩
    | next _ taken ih =>
      obtain ⟨q, queue, stamp⟩ := ih
      obtain ⟨q', queue'⟩ := Option.isSome_iff_exists.mp (taken.queue_stays (Option.isSome_of_eq_some queue))
      exact ⟨q', queue', stamp.trans (taken.sequence_le queue queue')⟩
  induction run generalizing r' with
  | start =>
    cases Option.some.inj (live.symm.trans live')
    exact Or.inl (.refl r)
  | @next history t i u previous taken ih =>
    rcases taken.request_origin live' with ⟨r₀, eligibleAt, before, rfl⟩ |
      ⟨a, _, _, _, _, q₀, _, _, _, rfl, ran, rfl, _⟩
    · rcases ih before with same | later
      · have written : r₀ = { r with eligibleAt := r₀.eligibleAt } := same
        refine Or.inl ?_
        rw [written]
        rfl
      · exact Or.inr later
    · obtain ⟨q', queue', stamp'⟩ := issued previous
      have here := address.symm.trans ran.key
      simp only [Pubkey.withdrawalRequest.injEq] at here
      rw [here.1, ran.queue] at queue'
      cases queue'
      exact Or.inr (Nat.lt_succ_of_le stamp')

/-- What is fixed about the schedule of the live request at `key` after a history. -/
structure Chain.ScheduleStable (c : Chain) (history : List (Chain × Instruction)) (key : Pubkey)
    (r : WithdrawalRequest) : Prop where
  opened : ∃ later t i earlier o q, history = later ++ (t, i) :: earlier ∧ i.opening t = some o ∧ r.Same o ∧
    t.queues.lookup r.queue = some q ∧ r.requestedAt = t.clock ∧ r.Scheduled q
  gate : ∀ t, t ∈ r.window ↔ r.isEligible t = true ∧ r.isExpired t = false
  finalizes : ∀ a expectedSequence c', Step c (.queue (.finalizeWithdrawal a expectedSequence)) c' →
    a.request = key → c.clock ∈ r.window
  stays : ∀ i c' r', Step c i c' → c'.requests.lookup key = some r' → r'.Same r ∧ r.window ⊆ r'.window ∧
    (r'.eligibleAt = r.eligibleAt ∨ (∃ a expectedSequence, i = .queue (.expediteRequest a expectedSequence) ∧
      a.request = key) ∧ r'.eligibleAt < r.eligibleAt ∧ r'.eligibleAt = c'.clock)
  expired : r.isExpired c.clock = true → ∀ after d, Run Step c after d →
    (∀ event ∈ after, event.2.rewinds event.1 = false) →
      (∀ a expectedSequence d', Step d (.queue (.finalizeWithdrawal a expectedSequence)) d' → a.request = key →
        expectedSequence.toNat ≠ r.sequence) ∧
      ∀ a expectedSequence d', Step d (.queue (.expediteRequest a expectedSequence)) d' → a.request = key →
        expectedSequence.toNat ≠ r.sequence

/-- An expired request stays expired as long as it is there. -/
theorem expired_again (sound : c.RequestsSound) (run : Run Step c after d)
    (forward : ∀ event ∈ after, event.2.rewinds event.1 = false) (live : c.requests.lookup key = some r)
    (expired : r.isExpired c.clock = true) (live' : d.requests.lookup key = some r')
    (stamp : r'.sequence = r.sequence) : r'.isExpired d.clock = true := by
  have onward : c.clock ≤ d.clock := run.measure_le trivial (fun _ _ _ _ _ => trivial) forward
    fun _ _ _ _ taken now => taken.clock_le now
  rcases live_again sound run live live' with same | later
  · unfold WithdrawalRequest.isExpired at expired ⊢
    rw [same.expiresAt]
    simp only [decide_eq_true_eq] at expired ⊢
    exact ⟨expired.1, expired.2.trans onward⟩
  · omega

/-- In every run whose clock does not go back, the schedule of every live request is stable. -/
theorem schedule_stable (first : c₀.Genesis) (run : Run Step c₀ history c)
    (forward : ∀ event ∈ history, event.2.rewinds event.1 = false) (live : c.requests.lookup key = some r) :
    c.ScheduleStable history key r := by
  have sound := Reachable.requests_sound ⟨c₀, history, first.initial, run⟩
  refine ⟨live_scheduled first run forward live, fun t => WithdrawalRequest.mem_window, fun a n c' taken here => ?_,
    fun i c' r' taken live' => ?_, fun expired after d onward future => ⟨fun a n d' taken here stamp => ?_,
      fun a n d' taken here stamp => ?_⟩⟩
  · subst here
    obtain ⟨_, _, _, _, _, _, _, _, _, _, _, ran, _⟩ := FinalizeWithdrawal.handler_eq_ok.mp taken.executed
    cases Option.some.inj (live.symm.trans ran.valid.request)
    exact WithdrawalRequest.mem_window.mpr ⟨ran.eligible, ran.unexpired⟩
  · obtain ⟨same, moved⟩ := taken.rescheduled live live'
    refine ⟨same, same.window ?_, moved⟩
    rcases moved with kept | ⟨_, sooner, _⟩
    · exact kept.le
    · exact sooner.le
  · subst here
    obtain ⟨_, r', _, _, _, _, _, _, _, _, _, ran, _⟩ := FinalizeWithdrawal.handler_eq_ok.mp taken.executed
    have again := expired_again sound onward future live expired ran.valid.request (ran.sequence.trans stamp)
    cases ran.unexpired.symm.trans again
  · subst here
    obtain ⟨_, _, r', ran, _⟩ := ExpediteRequest.handler_eq_ok taken.executed
    have again := expired_again sound onward future live expired ran.request (ran.sequence.trans stamp)
    cases ran.unexpired.symm.trans again

end Run

namespace Sample

/-- With a window of two days set, a request is made, the settings change and the request is expedited. -/
def scheduling : List Instruction :=
  [.queue (.initializeQueue ⟨vault, admin, mint, shareMint, queue, escrowShares, escrowAssets⟩ 3600),
    .vault (.attachWithdrawalQueue ⟨vault, mint, admin⟩ queue),
    .queue (.setFulfillmentWindow ⟨queue, vault, admin⟩ 172800),
    .clock 1000,
    .queue (.requestWithdrawal (requesting 7) 7 50000 0 .default),
    .queue (.setCooldown ⟨queue, vault, admin⟩ 0),
    .queue (.setFulfillmentWindow ⟨queue, vault, admin⟩ 0),
    .clock 2000,
    .queue (.expediteRequest ⟨queue, vault, operator, request 7⟩ 1)]

def scheduled : Chain := (Chain.genesis (some admin)).runAll (opening ++ scheduling)

def requestScheduled : WithdrawalRequest where
  queue := queue
  owner := user
  recipientTokenAccount := wallet user
  finalizer := .default
  shares := 50000
  requestId := 7
  sequence := 1
  requestedAt := 1000
  scheduledEligibleAt := 4600
  eligibleAt := 2000
  expiresAt := 177400
  minAssetsOut := 0

end Sample

open Sample in
theorem scheduled_stable :
    scheduled.ScheduleStable ((Chain.genesis (some admin)).events (opening ++ scheduling)) (request 7)
      requestScheduled :=
  schedule_stable ⟨_, rfl⟩ (Chain.runAll_run _ _) (by decide +kernel) (by decide +kernel)

end Upshift
