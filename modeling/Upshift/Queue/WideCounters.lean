import Mathlib.Data.UInt
import Upshift.Lib.InPlace
import Upshift.Queue.State

namespace Upshift
open Guard InPlace

/-- `open_request` as it runs on the account, with its reads and writes in the order of the source. -/
def WithdrawalQueue.openRequestInPlace (shares : Nat) : Method Error WithdrawalQueue Nat := do
  let sequence ← compute fun self => okOr (checkedAdd u64Max self.sequence 1) (.queue .mathError)
  let pendingRequests ← compute fun self => okOr (checkedAdd u64Max self.pendingRequests 1) (.queue .mathError)
  let pendingShares ← compute fun self => okOr (checkedAdd u64Max self.pendingShares shares) (.queue .mathError)
  assign fun self => { self with sequence := sequence }
  assign fun self => { self with pendingRequests := pendingRequests }
  assign fun self => { self with pendingShares := pendingShares }
  return sequence

def WithdrawalQueue.closeRequestInPlace (shares : Nat) : Method Error WithdrawalQueue Unit := do
  let pendingRequests ← compute fun self => okOr (checkedSub self.pendingRequests 1) (.queue .mathError)
  let pendingShares ← compute fun self => okOr (checkedSub self.pendingShares shares) (.queue .mathError)
  assign fun self => { self with pendingRequests := pendingRequests }
  assign fun self => { self with pendingShares := pendingShares }

inductive CounterCall
  | openRequest (shares : UInt64)
  | closeRequest (shares : UInt64)
  deriving DecidableEq

/-- What a call returns and leaves behind. Only `open_request` returns a value. -/
def CounterCall.call (q : WithdrawalQueue) : CounterCall → Except Error (Option Nat) × WithdrawalQueue
  | .openRequest shares =>
    let (returned, after) := (WithdrawalQueue.openRequestInPlace shares.toNat).call q
    (returned.map some, after)
  | .closeRequest shares =>
    let (returned, after) := (WithdrawalQueue.closeRequestInPlace shares.toNat).call q
    (returned.map fun _ => none, after)

/-- The account after some calls, whatever each of them returned. -/
def WithdrawalQueue.afterCalls (q : WithdrawalQueue) (calls : List CounterCall) : WithdrawalQueue :=
  calls.foldl (fun q call => (call.call q).2) q

/-- The same counters without a bound. -/
structure Counters where
  sequence : Int
  pendingRequests : Int
  pendingShares : Int

def WithdrawalQueue.counters (q : WithdrawalQueue) : Counters := ⟨q.sequence, q.pendingRequests, q.pendingShares⟩

/-- A queue with any three machine words for its counters. -/
def WithdrawalQueue.counting (q : WithdrawalQueue) (sequence pendingRequests pendingShares : UInt64) :
    WithdrawalQueue :=
  { q with
    sequence := sequence.toNat
    pendingRequests := pendingRequests.toNat
    pendingShares := pendingShares.toNat }

def Counters.next (m : Counters) : CounterCall → Counters
  | .openRequest shares => ⟨m.sequence + 1, m.pendingRequests + 1, m.pendingShares + shares.toNat⟩
  | .closeRequest shares => ⟨m.sequence, m.pendingRequests - 1, m.pendingShares - shares.toNat⟩

/-- What a call has to return for the counters it leads to. -/
def CounterCall.returns (m : Counters) : CounterCall → Option Int
  | .openRequest _ => some m.sequence
  | .closeRequest _ => none

def Counters.InRange (m : Counters) : Prop :=
  (0 ≤ m.sequence ∧ m.sequence ≤ u64Max) ∧ (0 ≤ m.pendingRequests ∧ m.pendingRequests ≤ u64Max) ∧
    0 ≤ m.pendingShares ∧ m.pendingShares ≤ u64Max

instance (m : Counters) : Decidable m.InRange := inferInstanceAs (Decidable (_ ∧ _ ∧ _))

/-- A run of the model that leaves out what would go out of range. -/
def Counters.track (m : Counters) (calls : List CounterCall) : Counters :=
  calls.foldl (fun m call => if (m.next call).InRange then m.next call else m) m

/-- A run of the model without a bound. -/
def Counters.run (m : Counters) (calls : List CounterCall) : Counters := calls.foldl Counters.next m

/-- One call on the account next to the same call on the model. -/
structure CounterCall.Refines (call : CounterCall) (q : WithdrawalQueue) (m : Counters) : Prop where
  counters : q.counters = m
  accepted : (m.next call).InRange → ∃ returned after, call.call q = (.ok returned, after) ∧
    after.counters = m.next call ∧ returned.map Int.ofNat = call.returns (m.next call)
  refused : ¬(m.next call).InRange → call.call q = (.error (.queue .mathError), q)
  grows : q.sequence ≤ (call.call q).2.sequence
  closing : ∀ shares, call = .closeRequest shares → (call.call q).2.sequence = q.sequence

/-- A sequence of calls on the account next to the same calls on the model, from counters `m`. -/
structure WithdrawalQueue.RefinesCounters (q : WithdrawalQueue) (m : Counters) (calls : List CounterCall) : Prop where
  each : ∀ earlier call later, calls = earlier ++ call :: later → call.Refines (q.afterCalls earlier) (m.track earlier)
  final : (q.afterCalls calls).counters = m.track calls
  unbounded : (∀ earlier, earlier <+: calls → (m.run earlier).InRange) →
    (q.afterCalls calls).counters = m.run calls ∧ ∀ earlier call later, calls = earlier ++ call :: later →
      ∃ returned, (call.call (q.afterCalls earlier)).1 = .ok returned
  grows : q.sequence ≤ (q.afterCalls calls).sequence
  others : { q.afterCalls calls with
    sequence := q.sequence, pendingRequests := q.pendingRequests, pendingShares := q.pendingShares } = q

section Methods
variable {q : WithdrawalQueue} {shares : Nat}

theorem WithdrawalQueue.openRequest_atomic (q : WithdrawalQueue) (shares : Nat) :
    Atomic (WithdrawalQueue.openRequestInPlace shares) q (q.openRequest shares)
      fun result => (result.2, result.1) := by
  refine Atomic.compute fun sequence _ => ?_
  refine Atomic.compute fun pendingRequests _ => ?_
  refine Atomic.compute fun pendingShares _ => ?_
  exact Writes.atomic (.assign (.assign (.assign (.pure _ _))))

theorem WithdrawalQueue.closeRequest_atomic (q : WithdrawalQueue) (shares : Nat) :
    Atomic (WithdrawalQueue.closeRequestInPlace shares) q (q.closeRequest shares) fun closed => ((), closed) := by
  refine Atomic.compute fun pendingRequests _ => ?_
  refine Atomic.compute fun pendingShares _ => ?_
  exact Writes.atomic (.assign (.pure _ _))

theorem WithdrawalQueue.openRequest_fails : FailsWith (· = .queue .mathError) (q.openRequest shares) :=
  .bind (.okOr fun _ => rfl) fun _ _ => .bind (.okOr fun _ => rfl) fun _ _ =>
    .bind (.okOr fun _ => rfl) fun _ _ => .pure _

theorem WithdrawalQueue.closeRequest_fails : FailsWith (· = .queue .mathError) (q.closeRequest shares) :=
  .bind (.okOr fun _ => rfl) fun _ _ => .bind (.okOr fun _ => rfl) fun _ _ => .pure _

end Methods

section Call
variable {q : WithdrawalQueue} {shares : UInt64}

theorem WithdrawalQueue.open_inRange : (q.counters.next (.openRequest shares)).InRange ↔ q.sequence + 1 ≤ u64Max ∧
    q.pendingRequests + 1 ≤ u64Max ∧ q.pendingShares + shares.toNat ≤ u64Max := by
  simp only [Counters.InRange, Counters.next, WithdrawalQueue.counters]
  omega

theorem WithdrawalQueue.close_inRange (range : q.counters.InRange) :
    (q.counters.next (.closeRequest shares)).InRange ↔ 1 ≤ q.pendingRequests ∧ shares.toNat ≤ q.pendingShares := by
  simp only [Counters.InRange, Counters.next, WithdrawalQueue.counters] at range ⊢
  omega

theorem CounterCall.Refines.of_refused {call : CounterCall} (outside : ¬(q.counters.next call).InRange)
    (ran : call.call q = (.error (.queue .mathError), q)) : call.Refines q q.counters := by
  refine ⟨rfl, fun within => absurd within outside, fun _ => ran, ?_, fun _ _ => ?_⟩
  · rw [ran]
  · rw [ran]

theorem CounterCall.open_refines : (openRequest shares).Refines q q.counters := by
  have atomic := q.openRequest_atomic shares.toNat
  cases outcome : q.openRequest shares.toNat with
  | ok result =>
    obtain ⟨opened, sequence⟩ := result
    obtain ⟨sequenceFits, requestsFit, sharesFit, rfl, rfl⟩ := WithdrawalQueue.openRequest_eq_ok.mp outcome
    have ran : (openRequest shares).call q = (.ok (some (q.sequence + 1)), q.opened shares.toNat) := by
      simp only [CounterCall.call, atomic.accepted outcome, Except.map]
    have within := WithdrawalQueue.open_inRange.mpr ⟨sequenceFits, requestsFit, sharesFit⟩
    refine ⟨rfl, fun _ => ⟨_, _, ran, ?_, rfl⟩, fun outside => absurd within outside, ?_, ?_⟩
    · simp only [WithdrawalQueue.counters, WithdrawalQueue.opened, Counters.next, Nat.cast_add, Nat.cast_one]
    · rw [ran]
      exact Nat.le_succ q.sequence
    · rintro _ ⟨⟩
  | error e =>
    cases WithdrawalQueue.openRequest_fails e outcome
    have ran : (openRequest shares).call q = (.error (.queue .mathError), q) := by
      simp only [CounterCall.call, atomic.refused outcome, Except.map]
    refine .of_refused (fun within => ?_) ran
    obtain ⟨sequenceFits, requestsFit, sharesFit⟩ := WithdrawalQueue.open_inRange.mp within
    cases outcome.symm.trans
      (WithdrawalQueue.openRequest_eq_ok.mpr ⟨sequenceFits, requestsFit, sharesFit, rfl, rfl⟩)

theorem CounterCall.close_refines (range : q.counters.InRange) : (closeRequest shares).Refines q q.counters := by
  have atomic := q.closeRequest_atomic shares.toNat
  cases outcome : q.closeRequest shares.toNat with
  | ok closed =>
    obtain ⟨counted, covered, rfl⟩ := WithdrawalQueue.closeRequest_eq_ok.mp outcome
    have ran : (closeRequest shares).call q = (.ok none, q.closed shares.toNat) := by
      simp only [CounterCall.call, atomic.accepted outcome, Except.map]
    have within := (WithdrawalQueue.close_inRange range).mpr ⟨counted, covered⟩
    refine ⟨rfl, fun _ => ⟨_, _, ran, ?_, rfl⟩, fun outside => absurd within outside, ?_, ?_⟩
    · simp only [WithdrawalQueue.counters, WithdrawalQueue.closed, Counters.next, Nat.cast_sub counted,
        Nat.cast_sub covered, Nat.cast_one]
    · rw [ran]
      exact Nat.le_refl q.sequence
    · intro _ _
      rw [ran]
      rfl
  | error e =>
    cases WithdrawalQueue.closeRequest_fails e outcome
    have ran : (closeRequest shares).call q = (.error (.queue .mathError), q) := by
      simp only [CounterCall.call, atomic.refused outcome, Except.map]
    refine .of_refused (fun within => ?_) ran
    obtain ⟨counted, covered⟩ := (WithdrawalQueue.close_inRange range).mp within
    cases outcome.symm.trans (WithdrawalQueue.closeRequest_eq_ok.mpr ⟨counted, covered, rfl⟩)

theorem CounterCall.refines (call : CounterCall) (range : q.counters.InRange) : call.Refines q q.counters := by
  cases call with
  | openRequest shares => exact open_refines
  | closeRequest shares => exact close_refines range

end Call

section Run
variable {q : WithdrawalQueue} {m : Counters} {call : CounterCall} {calls : List CounterCall}

/-- One call on the account is one step of the model. -/
theorem CounterCall.Refines.step (refines : call.Refines q m) :
    (call.call q).2.counters = if (m.next call).InRange then m.next call else m := by
  by_cases within : (m.next call).InRange
  · obtain ⟨_, _, ran, counters, _⟩ := refines.accepted within
    rw [ran, if_pos within]
    exact counters
  · rw [refines.refused within, if_neg within]
    exact refines.counters

theorem CounterCall.call_others (call : CounterCall) (q : WithdrawalQueue) : { (call.call q).2 with
    sequence := q.sequence, pendingRequests := q.pendingRequests, pendingShares := q.pendingShares } = q := by
  cases call with
  | openRequest shares =>
    have atomic := q.openRequest_atomic shares.toNat
    cases outcome : q.openRequest shares.toNat with
    | ok result =>
      obtain ⟨opened, sequence⟩ := result
      obtain ⟨_, _, _, rfl, rfl⟩ := WithdrawalQueue.openRequest_eq_ok.mp outcome
      simp only [CounterCall.call, atomic.accepted outcome, WithdrawalQueue.opened]
    | error e => simp only [CounterCall.call, atomic.refused outcome]
  | closeRequest shares =>
    have atomic := q.closeRequest_atomic shares.toNat
    cases outcome : q.closeRequest shares.toNat with
    | ok closed =>
      obtain ⟨_, _, rfl⟩ := WithdrawalQueue.closeRequest_eq_ok.mp outcome
      simp only [CounterCall.call, atomic.accepted outcome, WithdrawalQueue.closed]
    | error e => simp only [CounterCall.call, atomic.refused outcome]

theorem Counters.track_inRange (m : Counters) (range : m.InRange) (calls : List CounterCall) :
    (m.track calls).InRange := by
  induction calls generalizing m with
  | nil => exact range
  | cons call calls ih =>
    refine ih (if (m.next call).InRange then m.next call else m) ?_
    by_cases within : (m.next call).InRange
    · rwa [if_pos within]
    · rwa [if_neg within]

/-- The account follows the model through every run. -/
theorem WithdrawalQueue.afterCalls_counters (q : WithdrawalQueue) (range : q.counters.InRange)
    (calls : List CounterCall) : (q.afterCalls calls).counters = q.counters.track calls := by
  induction calls generalizing q with
  | nil => rfl
  | cons call calls ih =>
    have step := (call.refines range).step
    have within : (call.call q).2.counters.InRange := by
      have tracked := q.counters.track_inRange range [call]
      rwa [Counters.track, List.foldl_cons, List.foldl_nil, ← step] at tracked
    have later := ih (call.call q).2 within
    rw [step] at later
    exact later

theorem WithdrawalQueue.afterCalls_refines (q : WithdrawalQueue) (range : q.counters.InRange)
    (calls : List CounterCall) (call : CounterCall) : call.Refines (q.afterCalls calls) (q.counters.track calls) := by
  have followed := q.afterCalls_counters range calls
  have within := q.counters.track_inRange range calls
  rw [← followed] at within ⊢
  exact call.refines within

/-- Where the unbounded model never leaves the range, nothing is left out. -/
theorem Counters.track_run (m : Counters) (calls : List CounterCall)
    (bounded : ∀ earlier, earlier <+: calls → (m.run earlier).InRange) : m.track calls = m.run calls := by
  induction calls generalizing m with
  | nil => rfl
  | cons call calls ih =>
    have within : (m.next call).InRange := bounded [call] ⟨calls, rfl⟩
    have later := ih (m.next call) fun earlier start => bounded (call :: earlier) (List.cons_prefix_cons.mpr ⟨rfl, start⟩)
    rw [Counters.track, List.foldl_cons, if_pos within]
    exact later

theorem WithdrawalQueue.afterCalls_grows (q : WithdrawalQueue) (range : q.counters.InRange) (calls : List CounterCall) :
    q.sequence ≤ (q.afterCalls calls).sequence := by
  induction calls using List.reverseRecOn with
  | nil => exact Nat.le_refl _
  | append_singleton calls call ih =>
    have grows := (q.afterCalls_refines range calls call).grows
    rw [WithdrawalQueue.afterCalls, List.foldl_append, List.foldl_cons, List.foldl_nil]
    exact ih.trans grows

theorem WithdrawalQueue.afterCalls_others (q : WithdrawalQueue) (calls : List CounterCall) :
    { q.afterCalls calls with
      sequence := q.sequence, pendingRequests := q.pendingRequests, pendingShares := q.pendingShares } = q := by
  induction calls using List.reverseRecOn with
  | nil => rfl
  | append_singleton calls call ih =>
    have others := call.call_others (q.afterCalls calls)
    rw [WithdrawalQueue.afterCalls, List.foldl_append, List.foldl_cons, List.foldl_nil]
    rw [WithdrawalQueue.afterCalls] at ih others
    rw [← others] at ih
    exact ih

theorem WithdrawalQueue.refinesCounters (q : WithdrawalQueue) (range : q.counters.InRange) (calls : List CounterCall) :
    q.RefinesCounters q.counters calls := by
  refine ⟨fun earlier call _ _ => q.afterCalls_refines range earlier call, q.afterCalls_counters range calls,
    fun bounded => ⟨?_, ?_⟩, q.afterCalls_grows range calls, q.afterCalls_others calls⟩
  · rw [q.afterCalls_counters range calls]
    exact q.counters.track_run calls bounded
  · rintro earlier call later rfl
    have prior : q.counters.track earlier = q.counters.run earlier :=
      q.counters.track_run earlier fun first start => bounded first (start.trans (List.prefix_append _ _))
    have within : (q.counters.run (earlier ++ [call])).InRange := bounded _ ⟨later, List.append_assoc _ [call] later⟩
    rw [Counters.run, List.foldl_append, List.foldl_cons, List.foldl_nil] at within
    have refines := q.afterCalls_refines range earlier call
    rw [prior] at refines
    obtain ⟨returned, _, ran, _⟩ := refines.accepted within
    exact ⟨returned, by rw [ran]⟩

end Run

/-- From any three machine words and over every sequence of calls the counters of a queue are those of the unbounded
model, as long as these fit, and a call that would take one of them out of range changes none. -/
theorem counters_refine_integers (q : WithdrawalQueue) (sequence pendingRequests pendingShares : UInt64)
    (calls : List CounterCall) : (q.counting sequence pendingRequests pendingShares).RefinesCounters
      ⟨sequence.toNat, pendingRequests.toNat, pendingShares.toNat⟩ calls := by
  refine WithdrawalQueue.refinesCounters (q.counting sequence pendingRequests pendingShares) ?_ calls
  have sequenceFits := sequence.toNat_lt
  have requestsFit := pendingRequests.toNat_lt
  have sharesFit := pendingShares.toNat_lt
  simp only [Counters.InRange, WithdrawalQueue.counters, WithdrawalQueue.counting, u64Max]
  omega

end Upshift
