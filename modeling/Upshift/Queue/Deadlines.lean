import Mathlib.Data.UInt
import Upshift.Lib.InPlace
import Upshift.Queue.Cancel

namespace Upshift
open Guard InPlace

/-- The deadline of a request that is due at `scheduled`. Zero is the sentinel of a disabled window. -/
def expiresAfter (scheduled : Int) (windowSeconds : Nat) : Result Int :=
  match windowSeconds with
  | 0 => return 0
  | w => do
    let window ← secs w
    addSeconds scheduled window

/-- `schedule` as it runs on the account, with its writes in the order of the source. -/
def WithdrawalRequest.scheduleInPlace (now : Int) (cooldownSeconds windowSeconds : Nat) :
    Method Error WithdrawalRequest Unit := do
  let cooldown ← compute fun _ => secs cooldownSeconds
  let scheduled ← compute fun _ => addSeconds now cooldown
  let expires ← compute fun _ => expiresAfter scheduled windowSeconds
  assign fun self => { self with requestedAt := now }
  assign fun self => { self with scheduledEligibleAt := scheduled }
  assign fun self => { self with eligibleAt := scheduled }
  assign fun self => { self with expiresAt := expires }

/-- An integer that an `i64` holds. -/
def FitsI64 (x : Int) : Prop := i64Min ≤ x ∧ x ≤ i64Max

instance (x : Int) : Decidable (FitsI64 x) := inferInstanceAs (Decidable (_ ∧ _))

/-- Every instant of a schedule, computed without a bound, fits. -/
def ScheduleFits (now : Int) (cooldownSeconds windowSeconds : Nat) : Prop :=
  FitsI64 cooldownSeconds ∧ FitsI64 (now + cooldownSeconds) ∧
    (windowSeconds = 0 ∨ FitsI64 windowSeconds ∧ FitsI64 (now + cooldownSeconds + windowSeconds))

/-- The four timestamps of a request. -/
def WithdrawalRequest.timestamps (r : WithdrawalRequest) : Int × Int × Int × Int :=
  (r.requestedAt, r.scheduledEligibleAt, r.eligibleAt, r.expiresAt)

/-- Scheduling a request against the same schedule in unbounded integers. -/
structure WithdrawalRequest.SchedulesExactly (r : WithdrawalRequest) (now : Int)
    (cooldownSeconds windowSeconds : Nat) : Prop where
  succeeds : ((scheduleInPlace now cooldownSeconds windowSeconds).call r).1 = .ok () ↔
    ScheduleFits now cooldownSeconds windowSeconds
  stamped : ∀ r', (scheduleInPlace now cooldownSeconds windowSeconds).call r = (.ok (), r') →
    r'.timestamps = (now, now + cooldownSeconds, now + cooldownSeconds,
      if windowSeconds = 0 then 0 else now + cooldownSeconds + windowSeconds)
  sentinel : ∀ r', (scheduleInPlace now cooldownSeconds windowSeconds).call r = (.ok (), r') →
    (r'.expiresAt = 0 ↔ windowSeconds = 0)
  refused : ∀ e r', (scheduleInPlace now cooldownSeconds windowSeconds).call r = (.error e, r') →
    r'.timestamps = r.timestamps
  open_between : ∀ r', (scheduleInPlace now cooldownSeconds windowSeconds).call r = (.ok (), r') → ∀ probe,
    (r'.isEligible probe = true ∧ r'.isExpired probe = false) ↔
      now + cooldownSeconds ≤ probe ∧ (windowSeconds = 0 ∨ probe < now + cooldownSeconds + windowSeconds)

section Schedule
variable {r r' : WithdrawalRequest} {now : Int} {cooldownSeconds windowSeconds : Nat}

theorem secs_eq_ok {s : Nat} {x : Int} : secs s = .ok x ↔ FitsI64 s ∧ x = s := by
  have above : i64Min ≤ (s : Int) := Int.le_trans (by decide) (Int.natCast_nonneg s)
  simp only [secs, FitsI64, bind_eq_ok, require_eq_ok, pure_eq_ok, exists_const, above, true_and, @eq_comm _ _ x]

theorem addSeconds_eq_ok {a b x : Int} : addSeconds a b = .ok x ↔ FitsI64 (a + b) ∧ x = a + b := by
  simp only [addSeconds, FitsI64, bind_eq_ok, require_eq_ok, pure_eq_ok, exists_const, @eq_comm _ _ x]

theorem expiresAfter_eq_ok {scheduled expires : Int} : expiresAfter scheduled windowSeconds = .ok expires ↔
    (windowSeconds = 0 ∨ FitsI64 windowSeconds ∧ FitsI64 (scheduled + windowSeconds)) ∧
      expires = if windowSeconds = 0 then 0 else scheduled + windowSeconds := by
  cases windowSeconds with
  | zero =>
    simp only [expiresAfter, pure_eq_ok, true_or, true_and, if_true]
    exact eq_comm
  | succ w =>
    simp only [expiresAfter, bind_eq_ok, secs_eq_ok, addSeconds_eq_ok, Nat.succ_ne_zero, false_or, if_false]
    constructor
    · rintro ⟨_, ⟨window, rfl⟩, fits, rfl⟩
      exact ⟨⟨window, fits⟩, rfl⟩
    · rintro ⟨⟨window, fits⟩, rfl⟩
      exact ⟨_, ⟨window, rfl⟩, fits, rfl⟩

theorem WithdrawalRequest.schedule_eq (r : WithdrawalRequest) (now : Int) (cooldownSeconds windowSeconds : Nat) :
    r.schedule now cooldownSeconds windowSeconds = do
      let cooldown ← secs cooldownSeconds
      let scheduled ← addSeconds now cooldown
      let expires ← expiresAfter scheduled windowSeconds
      return { r with
        requestedAt := now
        scheduledEligibleAt := scheduled
        eligibleAt := scheduled
        expiresAt := expires } := by
  cases windowSeconds with
  | zero => rfl
  | succ w => simp only [WithdrawalRequest.schedule, expiresAfter, bind_assoc]

/-- Every instant is computed before any timestamp is written. -/
theorem WithdrawalRequest.schedule_atomic (r : WithdrawalRequest) (now : Int) (cooldownSeconds windowSeconds : Nat) :
    Atomic (scheduleInPlace now cooldownSeconds windowSeconds) r (r.schedule now cooldownSeconds windowSeconds)
      fun scheduled => ((), scheduled) := by
  rw [WithdrawalRequest.schedule_eq]
  refine Atomic.compute fun cooldown _ => ?_
  refine Atomic.compute fun scheduled _ => ?_
  refine Atomic.compute fun expires _ => ?_
  exact Writes.atomic (.assign (.assign (.assign (.pure _ _))))

theorem WithdrawalRequest.schedule_defined :
    (∃ scheduled, r.schedule now cooldownSeconds windowSeconds = .ok scheduled) ↔
      ScheduleFits now cooldownSeconds windowSeconds := by
  simp only [WithdrawalRequest.schedule_eq, bind_eq_ok, secs_eq_ok, addSeconds_eq_ok, expiresAfter_eq_ok, pure_eq_ok]
  constructor
  · rintro ⟨_, _, ⟨cooldown, rfl⟩, _, ⟨scheduled, rfl⟩, _, ⟨expires, rfl⟩, _⟩
    exact ⟨cooldown, scheduled, expires⟩
  · rintro ⟨cooldown, scheduled, expires⟩
    exact ⟨_, _, ⟨cooldown, rfl⟩, _, ⟨scheduled, rfl⟩, _, ⟨expires, rfl⟩, rfl⟩

/-- A successful call has stored the unbounded schedule. -/
theorem WithdrawalRequest.schedule_stamped
    (ran : (scheduleInPlace now cooldownSeconds windowSeconds).call r = (.ok (), r')) :
    r' = { r with
      requestedAt := now
      scheduledEligibleAt := now + cooldownSeconds
      eligibleAt := now + cooldownSeconds
      expiresAt := if windowSeconds = 0 then 0 else now + cooldownSeconds + windowSeconds } := by
  have atomic := r.schedule_atomic now cooldownSeconds windowSeconds
  cases outcome : r.schedule now cooldownSeconds windowSeconds with
  | ok scheduled =>
    cases (atomic.accepted outcome).symm.trans ran
    exact WithdrawalRequest.schedule_eq_ok outcome
  | error e => cases (atomic.refused outcome).symm.trans ran

theorem WithdrawalRequest.schedule_refused {e : Error}
    (ran : (scheduleInPlace now cooldownSeconds windowSeconds).call r = (.error e, r')) : r' = r := by
  have atomic := r.schedule_atomic now cooldownSeconds windowSeconds
  cases outcome : r.schedule now cooldownSeconds windowSeconds with
  | ok scheduled => cases (atomic.accepted outcome).symm.trans ran
  | error e =>
    cases (atomic.refused outcome).symm.trans ran
    rfl

theorem WithdrawalRequest.schedule_succeeds :
    ((scheduleInPlace now cooldownSeconds windowSeconds).call r).1 = .ok () ↔
      ScheduleFits now cooldownSeconds windowSeconds := by
  have atomic := r.schedule_atomic now cooldownSeconds windowSeconds
  rw [← @WithdrawalRequest.schedule_defined r]
  cases outcome : r.schedule now cooldownSeconds windowSeconds with
  | ok scheduled =>
    rw [atomic.accepted outcome]
    exact iff_of_true rfl ⟨scheduled, rfl⟩
  | error e =>
    rw [atomic.refused outcome]
    refine iff_of_false (fun is => by cases is) ?_
    rintro ⟨_, is⟩
    cases is

end Schedule

/-- Scheduling agrees with integer time: it fails only where an instant does not fit, then writes nothing, and the
request it leaves can be finalized exactly from the end of the cooldown to the end of the window. -/
theorem schedule_agrees (r : WithdrawalRequest) (now : Int64) (cooldownSeconds windowSeconds : UInt64)
    (past : 0 ≤ now.toInt) : r.SchedulesExactly now.toInt cooldownSeconds.toNat windowSeconds.toNat := by
  generalize now.toInt = now at past ⊢
  generalize cooldownSeconds.toNat = cooldownSeconds
  generalize windowSeconds.toNat = windowSeconds
  refine ⟨WithdrawalRequest.schedule_succeeds, fun r' ran => ?_, fun r' ran => ?_, fun e r' ran => ?_,
    fun r' ran probe => ?_⟩
  · rw [WithdrawalRequest.schedule_stamped ran]
    rfl
  · rw [WithdrawalRequest.schedule_stamped ran]
    by_cases disabled : windowSeconds = 0
    · simp only [disabled, if_true]
    · simp only [disabled, if_false, iff_false]
      omega
  · rw [WithdrawalRequest.schedule_refused ran]
  · rw [WithdrawalRequest.isExpired_eq_false, WithdrawalRequest.isEligible, decide_eq_true_eq,
      WithdrawalRequest.schedule_stamped ran]
    by_cases disabled : windowSeconds = 0
    · simp only [disabled, if_true, true_or, and_true]
    · simp only [disabled, if_false, false_or]
      omega

open Sample in
/-- The last instant an `i64` holds can be a deadline. -/
theorem last_schedule_agrees : requestOpened.SchedulesExactly 1700000000 3600 9223372035154772207 :=
  schedule_agrees requestOpened 1700000000 3600 9223372035154772207 (by decide)

end Upshift
