import Upshift.Address

namespace Upshift

/-- The counters of one queue and the shares in its escrow account. -/
structure Escrow where
  sequence : Nat
  pendingRequests : Nat
  pendingShares : Nat
  balance : Nat
  deriving DecidableEq

/-- What an instruction means to one queue. -/
inductive EscrowAction
  | drift
  | request (shares : Nat)
  | cancel (shares : Nat)
  | finalize (shares : Nat)
  | sweep
  deriving DecidableEq

/-- The shares an action takes out of the pending set. -/
def EscrowAction.released : EscrowAction → Nat
  | .cancel shares | .finalize shares => shares
  | _ => 0

/-- The life of a queue's counters. Outsiders can only add to the escrow. -/
inductive Escrow.Step (E : Escrow) : EscrowAction → Escrow → Prop
  | drift {balance} (donated : E.balance ≤ balance) : Step E .drift { E with balance := balance }
  | request {shares} (positive : 0 < shares) (stamped : E.sequence + 1 ≤ u64Max) :
      Step E (.request shares)
        ⟨E.sequence + 1, E.pendingRequests + 1, E.pendingShares + shares, E.balance + shares⟩
  | cancel {shares} (counted : 1 ≤ E.pendingRequests) (pending : shares ≤ E.pendingShares)
      (held : shares ≤ E.balance) :
      Step E (.cancel shares)
        ⟨E.sequence, E.pendingRequests - 1, E.pendingShares - shares, E.balance - shares⟩
  | finalize {shares} (counted : 1 ≤ E.pendingRequests) (pending : shares ≤ E.pendingShares)
      (held : shares ≤ E.balance) :
      Step E (.finalize shares)
        ⟨E.sequence, E.pendingRequests - 1, E.pendingShares - shares, E.balance - shares⟩
  | sweep (stray : E.pendingShares < E.balance) : Step E .sweep { E with balance := E.pendingShares }

/-- What arrives in the escrow by anything but a request. -/
def EscrowAction.unsolicited (before after : Nat) : EscrowAction → Nat
  | .request _ => 0
  | _ => after - before

def EscrowAction.swept (before after : Nat) : EscrowAction → Nat
  | .sweep => before - after
  | _ => 0

/-- What a request brings into the escrow, a finalization burns from it and a cancellation returns. -/
def EscrowAction.escrowed (before after : Nat) : EscrowAction → Nat
  | .request _ => after - before
  | _ => 0

def EscrowAction.burned (before after : Nat) : EscrowAction → Nat
  | .finalize _ => before - after
  | _ => 0

def EscrowAction.returned (before after : Nat) : EscrowAction → Nat
  | .cancel _ => before - after
  | _ => 0

/-- The escrow holds every pending share. -/
def Escrow.Covered (E : Escrow) : Prop := E.pendingShares ≤ E.balance

theorem Escrow.Step.congr {E E' E'' : Escrow} {action : EscrowAction} (step : E.Step action E')
    (sequence : E''.sequence = E'.sequence) (requests : E''.pendingRequests = E'.pendingRequests)
    (shares : E''.pendingShares = E'.pendingShares) (balance : E''.balance = E'.balance) : E.Step action E'' := by
  cases E'
  cases E''
  simp only at sequence requests shares balance
  subst sequence requests shares balance
  exact step

theorem Escrow.Step.covered {E E' : Escrow} {action : EscrowAction} (step : E.Step action E')
    (covered : E.Covered) : E'.Covered := by
  unfold Escrow.Covered at *
  cases step with
  | drift donated => exact Nat.le_trans covered donated
  | request => exact Nat.add_le_add_right covered _
  | cancel => exact Nat.sub_le_sub_right covered _
  | finalize => exact Nat.sub_le_sub_right covered _
  | sweep => exact Nat.le_refl _

/-- The balance moves with the pending shares, but for what is sent in and swept out. -/
theorem Escrow.Step.balance_add {E E' : Escrow} {action : EscrowAction} (step : E.Step action E') :
    E'.balance + action.swept E.balance E'.balance + E.pendingShares =
      E.balance + action.unsolicited E.balance E'.balance + E'.pendingShares := by
  cases step with
  | drift donated =>
    simp only [EscrowAction.swept, EscrowAction.unsolicited]
    omega
  | request =>
    simp only [EscrowAction.swept, EscrowAction.unsolicited]
    omega
  | cancel =>
    simp only [EscrowAction.swept, EscrowAction.unsolicited]
    omega
  | finalize =>
    simp only [EscrowAction.swept, EscrowAction.unsolicited]
    omega
  | sweep =>
    simp only [EscrowAction.swept, EscrowAction.unsolicited]
    omega

/-- The pending shares are those that requests brought in, less those burned and those returned. -/
theorem Escrow.Step.pending_add {E E' : Escrow} {action : EscrowAction} (step : E.Step action E') :
    E'.pendingShares + action.burned E.balance E'.balance + action.returned E.balance E'.balance =
      E.pendingShares + action.escrowed E.balance E'.balance := by
  cases step with
  | drift => rfl
  | request =>
    simp only [EscrowAction.burned, EscrowAction.returned, EscrowAction.escrowed]
    omega
  | cancel =>
    simp only [EscrowAction.burned, EscrowAction.returned, EscrowAction.escrowed]
    omega
  | finalize =>
    simp only [EscrowAction.burned, EscrowAction.returned, EscrowAction.escrowed]
    omega
  | sweep => rfl

theorem Escrow.Step.finalize_balance {E E' : Escrow} {shares : Nat} (step : E.Step (.finalize shares) E') :
    E'.balance + shares = E.balance := by
  cases step with
  | finalize _ _ held => exact Nat.sub_add_cancel held

theorem Escrow.Step.sequence_fits {E E' : Escrow} {action : EscrowAction} (step : E.Step action E')
    (fits : E.sequence ≤ u64Max) : E'.sequence ≤ u64Max := by
  cases step with
  | request _ stamped => exact stamped
  | _ => exact fits

end Upshift
