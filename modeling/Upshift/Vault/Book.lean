import Upshift.Vault.State

namespace Upshift

/-- The money of one vault: shares outstanding, recorded assets and the tokens in the reserve. -/
structure Book where
  offset : Nat
  supply : Nat
  localAum : Nat
  deployedAum : Nat
  reserve : Nat
  deriving DecidableEq

/-- What an instruction means to one vault. The flag of a redemption says that the fee went to the
reserve itself. -/
inductive BookAction
  | drift
  | deposit (amount : Nat)
  | redeem (shares : Nat) (feeReturned : Bool)
  | withdraw (amount : Nat)
  | restore (amount : Nat)
  | report (newAum : Nat)
  deriving DecidableEq

def Book.total (B : Book) : Nat := B.localAum + B.deployedAum

/-- The life of a vault's money. Outsiders can only burn shares and add to the reserve. -/
inductive Book.Step (B : Book) : BookAction → Book → Prop
  | drift {supply reserve} (burned : supply ≤ B.supply) (donated : B.reserve ≤ reserve) :
      Step B .drift { B with supply := supply, reserve := reserve }
  | deposit {amount shares} (bounded : B.total ≤ u64Max)
      (priced : VaultState.sharesForDepositWithOffset B.supply B.total amount B.offset = .ok shares) :
      Step B (.deposit amount) { B with
        supply := B.supply + shares
        localAum := B.localAum + amount
        reserve := B.reserve + amount }
  | redeem {shares assets returned feeReturned} (bounded : B.total ≤ u64Max)
      (priced : VaultState.assetsForRedeemWithOffset B.supply B.total shares B.offset = .ok assets)
      (held : shares ≤ B.supply) (liquid : assets ≤ B.localAum) (paid : returned ≤ assets)
      (whole : feeReturned = false → returned = 0) (covered : assets - returned ≤ B.reserve) :
      Step B (.redeem shares feeReturned) { B with
        supply := B.supply - shares
        localAum := B.localAum - assets
        reserve := B.reserve - (assets - returned) }
  | withdraw {amount} (covered : amount ≤ B.reserve) (bounded : B.deployedAum + amount ≤ u64Max) :
      Step B (.withdraw amount) { B with
        localAum := B.localAum - amount
        deployedAum := B.deployedAum + amount
        reserve := B.reserve - amount }
  | restore {amount} :
      Step B (.restore amount) { B with
        localAum := B.localAum + amount
        deployedAum := B.deployedAum - amount
        reserve := B.reserve + amount }
  | report {newAum} (bounded : newAum ≤ u64Max) : Step B (.report newAum) { B with deployedAum := newAum }

/-- The gross amount a redemption is quoted, zero where there is no quote. -/
def Book.quote (B : Book) (shares : Nat) : Nat :=
  match VaultState.assetsForRedeemWithOffset B.supply B.total shares B.offset with
  | .ok assets => assets
  | .error _ => 0

def BookAction.trades : BookAction → Bool
  | .deposit _ | .redeem _ _ => true
  | _ => false

def BookAction.deposited : BookAction → Nat
  | .deposit amount => amount
  | _ => 0

def BookAction.redeemed (B : Book) : BookAction → Nat
  | .redeem shares _ => B.quote shares
  | _ => 0

/-- The operator moves no more than is recorded, and reports nothing. -/
def BookAction.moderate (B : Book) : BookAction → Bool
  | .withdraw amount => amount ≤ B.localAum
  | .restore amount => amount ≤ B.deployedAum
  | .report _ => false
  | _ => true

/-- Apart from reports and saturation, only trades change the total, by exactly their amounts. -/
theorem Book.Step.total_add {B B' : Book} {action : BookAction} (step : B.Step action B')
    (moderate : action.moderate B = true) : B'.total + action.redeemed B = B.total + action.deposited := by
  cases step with
  | drift => rfl
  | deposit =>
    simp only [BookAction.redeemed, BookAction.deposited, Book.total]
    omega
  | @redeem shares assets _ _ _ priced _ liquid =>
    have quoted : B.quote shares = assets := by simp only [Book.quote, priced]
    simp only [BookAction.redeemed, BookAction.deposited, quoted, Book.total]
    omega
  | withdraw =>
    have within := of_decide_eq_true moderate
    simp only [BookAction.redeemed, BookAction.deposited, Book.total]
    omega
  | restore =>
    have within := of_decide_eq_true moderate
    simp only [BookAction.redeemed, BookAction.deposited, Book.total]
    omega
  | report => cases moderate

def Book.Solvent (B : Book) : Prop := B.localAum ≤ B.reserve

theorem Book.Step.solvent {B B' : Book} {action : BookAction} (step : B.Step action B') (solvent : B.Solvent) :
    B'.Solvent := by
  unfold Book.Solvent at *
  cases step with
  | drift burned donated => exact Nat.le_trans solvent donated
  | deposit => exact Nat.add_le_add_right solvent _
  | redeem => simp only; omega
  | withdraw => simp only; omega
  | restore => exact Nat.add_le_add_right solvent _
  | report => exact solvent

theorem Book.Step.congr {B B' B'' : Book} {action : BookAction} (step : B.Step action B')
    (offset : B''.offset = B'.offset) (supply : B''.supply = B'.supply) (localAum : B''.localAum = B'.localAum)
    (deployedAum : B''.deployedAum = B'.deployedAum) (reserve : B''.reserve = B'.reserve) : B.Step action B'' := by
  cases B'
  cases B''
  simp only at offset supply localAum deployedAum reserve
  subst offset supply localAum deployedAum reserve
  exact step

theorem Book.Step.offset_eq {B B' : Book} {action : BookAction} (step : B.Step action B') :
    B'.offset = B.offset := by
  cases step <;> rfl

theorem Book.Step.deployed_le {B B' : Book} {action : BookAction} (step : B.Step action B')
    (bounded : B.deployedAum ≤ u64Max) : B'.deployedAum ≤ u64Max := by
  cases step with
  | drift => exact bounded
  | deposit => exact bounded
  | redeem => exact bounded
  | withdraw _ fits => exact fits
  | restore => exact Nat.le_trans (Nat.sub_le _ _) bounded
  | report fits => exact fits

end Upshift
