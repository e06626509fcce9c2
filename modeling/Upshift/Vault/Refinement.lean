import Upshift.Vault.Invariant

namespace Upshift
open Guard KeyedStore

theorem VaultState.WellFormed.mint_eq {v : VaultState} {k depositMint : Pubkey} {vaultVersion : Nat}
    (formed : v.WellFormed k) (key : k = .vaultState depositMint vaultVersion) :
    v.depositMint = depositMint ∧ v.vaultVersion = vaultVersion := by
  have same := formed.key.symm.trans key
  simp only [Pubkey.vaultState.injEq] at same
  exact same

/-- The addresses a vault instruction was given are the vault's own. -/
theorem VaultState.WellFormed.addresses {v : VaultState} {k depositMint shareMint reserve : Pubkey}
    (formed : v.WellFormed k) (key : k = .vaultState depositMint v.vaultVersion)
    (shareMintKey : shareMint = .shareMint depositMint v.vaultVersion)
    (reserveKey : reserve = .vaultToken depositMint v.vaultVersion) :
    v.depositMint = depositMint ∧ v.shareMint = shareMint ∧ v.reserve = reserve := by
  obtain ⟨sameMint, _⟩ := formed.mint_eq key
  rw [formed.shareMint, VaultState.reserve, sameMint]
  exact ⟨rfl, shareMintKey.symm, reserveKey.symm⟩

/-- Accounts of different owners, or of different mints, are different accounts. -/
theorem Bank.ne_of_owner {b : Bank} {k k' : Pubkey} {owner owner' : Pubkey}
    (found : ∃ t, b.accounts.lookup k = some t ∧ t.owner = owner)
    (found' : ∃ t, b.accounts.lookup k' = some t ∧ t.owner = owner') (different : owner ≠ owner') : k ≠ k' := by
  rintro rfl
  obtain ⟨t, atKey, rfl⟩ := found
  obtain ⟨t', atKey', rfl⟩ := found'
  cases Option.some.inj (atKey.symm.trans atKey')
  exact different rfl

theorem Bank.ne_of_mint {b : Bank} {k k' : Pubkey} {mint mint' : Pubkey}
    (found : ∃ t, b.accounts.lookup k = some t ∧ t.mint = mint)
    (found' : ∃ t, b.accounts.lookup k' = some t ∧ t.mint = mint') (different : mint ≠ mint') : k ≠ k' := by
  rintro rfl
  obtain ⟨t, atKey, rfl⟩ := found
  obtain ⟨t', atKey', rfl⟩ := found'
  cases Option.some.inj (atKey.symm.trans atKey')
  exact different rfl

theorem Pubkey.ne_of_canSign {a k : Pubkey} (signs : a.canSign = true) (derived : k.canSign = false) : a ≠ k := by
  rintro rfl
  exact absurd (signs.symm.trans derived) Bool.noConfusion

theorem Deposit.Ran.book {c : Chain} {a : Deposit} {amount minSharesOut : Nat} {v : VaultState} {m : Mint}
    {shares : Nat} {paid minted : Bank} (ran : Deposit.Ran c a amount minSharesOut v m shares paid minted)
    (formed : v.WellFormed a.vaultState) (signs : a.signer.canSign = true) :
    (c.book v).Step (.deposit amount)
      ((Deposit.after c a amount v minted).book { v with localAum := v.localAum + amount }) := by
  have valid := ran.valid
  obtain ⟨_, shareMint, reserve⟩ := formed.addresses valid.key valid.shareMintKey valid.reserveKey
  obtain ⟨t, atReserve, reserveOwner, reserveMint⟩ := valid.reserve
  obtain ⟨s, atSender, senderOwner, _⟩ := valid.senderToken
  obtain ⟨u, atShare, _, shareTokenMint⟩ := valid.senderShare
  have payer : a.senderTokenAccount ≠ a.vaultTokenAta :=
    Bank.ne_of_owner ⟨s, atSender, senderOwner⟩ ⟨t, atReserve, reserveOwner⟩ (Pubkey.ne_of_canSign signs formed.derived)
  have receiver : a.senderShareAccount ≠ a.vaultTokenAta :=
    Bank.ne_of_mint ⟨u, atShare, shareTokenMint⟩ ⟨t, atReserve, reserveMint⟩
      (valid.shareMintKey ▸ Pubkey.shareMint_ne_depositMint _ _)
  have supply : minted.supply v.shareMint = c.bank.supply v.shareMint + shares := by
    rw [Bank.mintTo_supply ran.mints, if_pos shareMint, Bank.transfer_supply ran.pays]
  have tokens : minted.balance v.reserve = c.bank.balance v.reserve + amount := by
    rw [reserve, Bank.mintTo_balance ran.mints, if_neg receiver.symm, Bank.transfer_balance ran.pays,
      if_neg payer, if_pos rfl]
  have priced := ran.quoted
  rw [← Bank.supply_of_lookup valid.shareMint, ← shareMint] at priced
  have step : (c.book v).Step (.deposit amount) _ := .deposit ran.total priced
  exact step.congr rfl supply rfl rfl tokens

/-- A fee is charged, and the fee account is the reserve itself. -/
def Redeem.returnsFee (a : Redeem) (c : Chain) : Bool :=
  a.feeRecipientAccount = a.vaultDepositAta ∧ (c.vaults.lookup a.vaultState).any fun v => v.withdrawalFee ≠ 0

section Valid
variable {c : Chain} {a : Redeem} {v : VaultState} {m : Mint}

/-- Shares are never burned from the reserve, which is an account of another mint. -/
theorem Redeem.Valid.burner (valid : a.Valid c v m) : a.senderShareAccount ≠ a.vaultDepositAta := by
  obtain ⟨t, atReserve, _, reserveMint⟩ := valid.reserve
  obtain ⟨u, atShare, _, shareTokenMint⟩ := valid.senderShare
  exact Bank.ne_of_mint ⟨u, atShare, shareTokenMint⟩ ⟨t, atReserve, reserveMint⟩
    (valid.shareMintKey ▸ Pubkey.shareMint_ne_depositMint _ _)

/-- Nor are they burned from an account that is paid. -/
theorem Redeem.Valid.burner_apart (valid : a.Valid c v m) : a.senderShareAccount ≠ a.senderTokenAccount ∧
    a.senderShareAccount ≠ a.feeRecipientAccount := by
  obtain ⟨u, atShare, _, shareTokenMint⟩ := valid.senderShare
  obtain ⟨t, atSender, _, senderMint⟩ := valid.senderToken
  obtain ⟨f, atFee, _, feeMint⟩ := valid.feeRecipient
  have different : a.shareMint ≠ a.depositMint := valid.shareMintKey ▸ Pubkey.shareMint_ne_depositMint _ _
  exact ⟨Bank.ne_of_mint ⟨u, atShare, shareTokenMint⟩ ⟨t, atSender, senderMint⟩ different,
    Bank.ne_of_mint ⟨u, atShare, shareTokenMint⟩ ⟨f, atFee, feeMint⟩ different⟩

/-- The redeemer is not the vault, so the reserve is not what is paid. -/
theorem Redeem.Valid.receiver_apart (valid : a.Valid c v m) (signer : a.signer ≠ a.vaultState) :
    a.senderTokenAccount ≠ a.vaultDepositAta := by
  obtain ⟨t, atReserve, reserveOwner, _⟩ := valid.reserve
  obtain ⟨w, atSender, senderOwner, _⟩ := valid.senderToken
  exact Bank.ne_of_owner ⟨w, atSender, senderOwner⟩ ⟨t, atReserve, reserveOwner⟩ signer

end Valid

/-- The redemption's own movements, whoever signs for the shares. -/
theorem Redeem.Ran.book {c : Chain} {a : Redeem} {shares minAssetsOut : Nat} {v : VaultState} {m : Mint}
    {assets fees : Nat} {paid : Bank} (ran : Redeem.Ran c a shares minAssetsOut v m assets fees paid)
    (formed : v.WellFormed a.vaultState) (signer : a.signer ≠ a.vaultState) :
    (c.book v).Step (.redeem shares (a.returnsFee c))
      ((Redeem.after c a v assets paid).book { v with localAum := v.localAum - assets }) := by
  have valid := ran.valid
  obtain ⟨_, shareMint, reserve⟩ := formed.addresses valid.key valid.shareMintKey valid.reserveKey
  have receiver := valid.receiver_apart signer
  have supply : paid.supply v.shareMint = c.bank.supply v.shareMint - shares := by
    rw [Redeem.interactions_supply ran.interactions, if_pos shareMint]
  have tokens := Redeem.interactions_reserve ran.interactions valid.burner receiver
  have held := (Redeem.interactions_covered ran.interactions).2
  have priced := ran.quoted
  have afforded := ran.afforded
  rw [← Bank.supply_of_lookup valid.shareMint, ← shareMint] at priced
  rw [← shareMint] at held
  by_cases aliased : a.feeRecipientAccount = a.vaultDepositAta
  · rw [if_pos aliased, ← reserve] at tokens
    have covered : assets - fees ≤ (c.book v).reserve := by
      simp only [Chain.book]
      omega
    have whole : a.returnsFee c = false → fees = 0 := by
      simp only [Redeem.returnsFee, aliased, valid.vault, Option.any_some, true_and, decide_eq_false_iff_not,
        decide_eq_true_eq, not_not]
      intro free
      rw [Redeem.fees_eq_ok ran.charged, free, Redeem.feeOf, Nat.mul_zero]
    have step : (c.book v).Step (.redeem shares (a.returnsFee c)) _ :=
      .redeem ran.total priced held ran.liquid afforded whole covered
    refine step.congr rfl supply rfl rfl ?_
    simp only [Chain.book, Redeem.after]
    change paid.balance v.reserve = _
    omega
  · rw [if_neg aliased, ← reserve] at tokens
    have covered : assets - 0 ≤ (c.book v).reserve := by
      simp only [Chain.book]
      omega
    have step : (c.book v).Step (.redeem shares (a.returnsFee c)) _ :=
      .redeem ran.total priced held ran.liquid (Nat.zero_le _) (fun _ => rfl) covered
    refine step.congr rfl supply rfl rfl ?_
    simp only [Chain.book, Redeem.after]
    change paid.balance v.reserve = _
    omega

theorem OperatorWithdraw.Ran.book {c : Chain} {a : OperatorTransfer} {amount : Nat} {v : VaultState}
    {dest : TokenAccount} {entry : Option Subaccount} {paid : Bank} {subaccounts : Store Pubkey Subaccount}
    (ran : OperatorWithdraw.Ran c a amount v dest entry paid subaccounts) (formed : v.WellFormed a.vaultState) :
    (c.book v).Step (.withdraw amount) ((OperatorWithdraw.after c a amount v paid subaccounts).book
      { v with
        localAum := v.localAum - amount
        deployedAum := v.deployedAum + amount
        deployedPrincipal := v.deployedPrincipal + amount }) := by
  obtain ⟨_, _, reserve⟩ := formed.addresses ran.valid.key rfl ran.valid.reserveKey
  have receiver : a.vaultDepositAta ≠ a.operatorTokenAccount := by
    rw [ran.valid.reserveKey, ran.valid.associated]
    exact Pubkey.noConfusion
  have tokens : paid.balance v.reserve = c.bank.balance v.reserve - amount := by
    rw [reserve, Bank.transfer_balance ran.pays, if_neg receiver, if_neg receiver, if_pos rfl]
  have covered := Bank.transfer_covered ran.pays
  rw [← reserve] at covered
  have step : (c.book v).Step (.withdraw amount) _ := .withdraw covered ran.deployed
  exact step.congr rfl (Bank.transfer_supply ran.pays _) rfl rfl tokens

theorem OperatorDeposit.Ran.book {c : Chain} {a : OperatorTransfer} {amount : Nat} {v : VaultState}
    {source : TokenAccount} {entry : Option Subaccount} {paid : Bank}
    (ran : OperatorDeposit.Ran c a amount v source entry paid) (formed : v.WellFormed a.vaultState)
    {v' : VaultState} (found : (OperatorDeposit.after c a amount v entry paid).vaults.lookup a.vaultState = some v') :
    (c.book v).Step (.restore amount) ((OperatorDeposit.after c a amount v entry paid).book v') := by
  obtain ⟨_, _, reserve⟩ := formed.addresses ran.valid.key rfl ran.valid.reserveKey
  have payer : a.operatorTokenAccount ≠ a.vaultDepositAta := by
    rw [ran.valid.reserveKey, ran.valid.associated]
    exact Pubkey.noConfusion
  have tokens : paid.balance v.reserve = c.bank.balance v.reserve + amount := by
    rw [reserve, Bank.transfer_balance ran.pays, if_neg payer, if_pos rfl]
  have step : (c.book v).Step (.restore amount) _ := .restore
  simp only [OperatorDeposit.after, Finmap.lookup_insert, Option.some.injEq] at found
  subst found
  exact step.congr rfl (Bank.transfer_supply ran.pays _) rfl rfl tokens

section Finalization
variable {c : Chain} {a : FinalizeWithdrawal} {expectedSequence : Nat} {q : WithdrawalQueue} {r : WithdrawalRequest}
  {recipient escrow escrow' : TokenAccount} {v : VaultState} {m : Mint} {assets fees : Nat} {paid forwarded : Bank}

theorem FinalizeWithdrawal.Valid.signer (valid : a.Valid c q r recipient escrow) (redeem : a.redeem.Valid c v m) :
    a.queue ≠ a.vaultState := by
  have key : a.vaultState = .vaultState a.depositMint v.vaultVersion := redeem.key
  rw [valid.queueKey, key]
  exact Pubkey.noConfusion

/-- The recipient is neither the reserve, which the vault owns, nor the share escrow. -/
theorem FinalizeWithdrawal.Ran.recipient_apart
    (ran : FinalizeWithdrawal.Ran c a expectedSequence q r recipient escrow escrow' v m assets fees paid forwarded) :
    a.recipientTokenAccount ≠ a.vaultDepositAta ∧ a.recipientTokenAccount ≠ a.escrowShares := by
  have valid := ran.redeem.valid
  obtain ⟨t, atReserve, reserveOwner, _⟩ := valid.reserve
  obtain ⟨s, atShares, _, sharesMint⟩ := valid.senderShare
  have different : a.redeem.shareMint ≠ a.redeem.depositMint :=
    valid.shareMintKey ▸ Pubkey.shareMint_ne_depositMint _ _
  have notVault : recipient.owner ≠ a.vaultState := ran.valid.queueVault ▸ ran.recipientOwner.2
  have sameMint : recipient.mint = a.depositMint := ran.recipientMint.trans ran.valid.depositMint
  exact ⟨Bank.ne_of_owner ⟨recipient, ran.valid.atRecipient, rfl⟩ ⟨t, atReserve, reserveOwner⟩ notVault,
    (Bank.ne_of_mint ⟨s, atShares, sharesMint⟩ ⟨recipient, ran.valid.atRecipient, sameMint⟩ different).symm⟩

/-- What a finalization forwards neither comes from the reserve nor goes back to it. -/
theorem FinalizeWithdrawal.Ran.reserve_kept
    (ran : FinalizeWithdrawal.Ran c a expectedSequence q r recipient escrow escrow' v m assets fees paid forwarded) :
    forwarded.balance a.vaultDepositAta = paid.balance a.vaultDepositAta := by
  have payer : a.escrowAssets ≠ a.vaultDepositAta := ran.redeem.valid.receiver_apart (ran.valid.signer ran.redeem.valid)
  rw [Bank.transfer_balance ran.forwards, if_neg ran.recipient_apart.1.symm, if_neg payer.symm, ite_self]

theorem FinalizeWithdrawal.Ran.book {payout : Nat}
    (ran : FinalizeWithdrawal.Ran c a expectedSequence q r recipient escrow escrow' v m assets fees paid forwarded)
    (formed : v.WellFormed a.vaultState) :
    (c.book v).Step (.redeem r.shares (a.redeem.returnsFee c))
      ((FinalizeWithdrawal.after c a q r v assets payout forwarded).book
        { v with localAum := v.localAum - assets }) := by
  have valid := ran.redeem.valid
  have key : a.vaultState = .vaultState a.depositMint v.vaultVersion := valid.key
  have reserve : v.reserve = a.vaultDepositAta := (formed.addresses key rfl valid.reserveKey).2.2
  have tokens : forwarded.balance v.reserve = paid.balance v.reserve := reserve ▸ ran.reserve_kept
  exact (ran.redeem.book formed (ran.valid.signer valid)).congr rfl (Bank.transfer_supply ran.forwards _) rfl rfl tokens

end Finalization

/-- What an instruction means to the vault at `k`. -/
def Instruction.action (i : Instruction) (c : Chain) (k : Pubkey) : BookAction :=
  match i with
  | .vault (.deposit a amount) => if a.vaultState = k then .deposit amount.toNat else .drift
  | .vault (.depositChecked a amount _) => if a.vaultState = k then .deposit amount.toNat else .drift
  | .vault (.redeem a shares) => if a.vaultState = k then .redeem shares.toNat (a.returnsFee c) else .drift
  | .vault (.redeemChecked a shares _) => if a.vaultState = k then .redeem shares.toNat (a.returnsFee c) else .drift
  | .vault (.operatorWithdraw a amount) => if a.vaultState = k then .withdraw amount.toNat else .drift
  | .vault (.operatorDeposit a amount) => if a.vaultState = k then .restore amount.toNat else .drift
  | .vault (.operatorUpdateAum a newAum) => if a.vaultState = k then .report newAum.toNat else .drift
  | .queue (.finalizeWithdrawal a _) =>
    if a.vaultState = k then
      .redeem ((c.requests.lookup a.request).elim 0 WithdrawalRequest.shares) (a.redeem.returnsFee c)
    else .drift
  | _ => .drift

theorem Instruction.deposits_action {i : Instruction} {a : Deposit} {amount minSharesOut : Nat}
    (label : i.deposits = some (a, amount, minSharesOut)) (c : Chain) (k : Pubkey) :
    i.action c k = if a.vaultState = k then .deposit amount else .drift := by
  obtain ⟨_, rfl, rfl, _⟩ | ⟨_, _, rfl, rfl, _⟩ := Instruction.deposits_eq_some label
  · rfl
  · rfl

theorem Instruction.redeems_action {i : Instruction} {a : Redeem} {shares minAssetsOut : Nat}
    (label : i.redeems = some (a, shares, minAssetsOut)) (c : Chain) (k : Pubkey) :
    i.action c k = if a.vaultState = k then .redeem shares (a.returnsFee c) else .drift := by
  obtain ⟨_, rfl, rfl, _⟩ | ⟨_, _, rfl, rfl, _⟩ := Instruction.redeems_eq_some label
  · rfl
  · rfl

theorem Instruction.quiet_action {i : Instruction} (label : i.quiet) (c : Chain) (k : Pubkey) :
    i.action c k = .drift ∧ i.derivedSigners = [] := by
  unfold Instruction.quiet at label
  split at label
  all_goals first | exact ⟨rfl, rfl⟩ | cases label

theorem Instruction.configures_action {i : Instruction} {k' : Pubkey} (label : i.configures = some k') (c : Chain)
    (k : Pubkey) : i.action c k = .drift ∧ i.derivedSigners = [] := by
  unfold Instruction.configures at label
  split at label
  all_goals first | exact ⟨rfl, rfl⟩ | cases label

theorem Instruction.detaches_action {i : Instruction} {keys : Pubkey × Pubkey} (label : i.detaches = some keys)
    (c : Chain) (k : Pubkey) : i.action c k = .drift ∧ i.derivedSigners = [] := by
  unfold Instruction.detaches at label
  split at label
  all_goals first | exact ⟨rfl, rfl⟩ | cases label

theorem Instruction.schedules_action {i : Instruction} {k' : Pubkey} (label : i.schedules = some k') (c : Chain)
    (k : Pubkey) : i.action c k = .drift ∧ i.derivedSigners = [] := by
  unfold Instruction.schedules at label
  split at label
  all_goals first | exact ⟨rfl, rfl⟩ | cases label

section Step
variable {c c' : Chain} {i : Instruction} {k : Pubkey} {v v' : VaultState}

/-- The fields of a vault that its book reads. -/
def VaultState.SameMoney (v v' : VaultState) : Prop :=
  v'.shareMint = v.shareMint ∧ v'.depositMint = v.depositMint ∧ v'.vaultVersion = v.vaultVersion ∧
    v'.shareOffset = v.shareOffset ∧ v'.localAum = v.localAum ∧ v'.deployedAum = v.deployedAum

theorem VaultState.SameMoney.refl (v : VaultState) : v.SameMoney v := ⟨rfl, rfl, rfl, rfl, rfl, rfl⟩

theorem VaultState.Configured.sameMoney (change : v.Configured v') : v.SameMoney v' :=
  ⟨change.shareMint, change.depositMint, change.vaultVersion, change.shareOffset, change.localAum,
    change.deployedAum⟩

theorem VaultState.SameMoney.book {b : Chain} (same : v.SameMoney v') : b.book v' = b.book v := by
  obtain ⟨shareMint, depositMint, vaultVersion, shareOffset, localAum, deployedAum⟩ := same
  simp only [Chain.book, VaultState.resolvedShareOffset, VaultState.reserve, shareMint, depositMint, vaultVersion,
    shareOffset, localAum, deployedAum]

/-- A step that does not act in the vault's name only lets its book drift. -/
theorem Step.book_drift (taken : Step c i c') (bank : c.bank.Sound) (formed : v.WellFormed k)
    (backed : c.bank.Backs k v) (other : k ∉ i.derivedSigners) (same : v.SameMoney v') :
    (c.book v).Step .drift (c'.book v') := by
  have outside : ¬i.Authorizes k := by
    rintro (signs | acts)
    · exact absurd (signs.symm.trans formed.derived) Bool.noConfusion
    · exact other acts
  obtain ⟨_, burned, donated⟩ := backed.respects taken.respects bank outside
  rw [same.book]
  have step : (c.book v).Step .drift _ := .drift burned donated
  exact step.congr rfl rfl rfl rfl rfl

/-- Every step of the system is a step of each vault's book. -/
theorem Step.book (taken : Step c i c') (bank : c.bank.Sound) (formed : v.WellFormed k)
    (backed : c.bank.Backs k v) (vault : c.vaults.lookup k = some v) (vault' : c'.vaults.lookup k = some v') :
    (c.book v).Step (i.action c k) (c'.book v') := by
  have signed := taken.signed
  have drift := fun other same => @Step.book_drift c c' i k v v' taken bank formed backed other same
  -- A setter, or a registry instruction, keeps the money of the vault it rewrites.
  have rewritten : ∀ {k₀ v₀ w}, c.vaults.lookup k₀ = some v₀ →
      (c.vaults.insert k₀ w).lookup k = some v' → v₀.SameMoney w → v.SameMoney v' :=
    fun found => rewritten_related VaultState.SameMoney.refl found vault
  cases taken.move with
  | quiet label _ vaults =>
    obtain ⟨action, derived⟩ := Instruction.quiet_action label c k
    cases Option.some.inj ((vaults ▸ vault').symm.trans vault)
    rw [action]
    exact drift (derived ▸ List.not_mem_nil) (.refl v)
  | configured label found change _ vaults =>
    obtain ⟨action, derived⟩ := Instruction.configures_action label c k
    rw [action]
    exact drift (derived ▸ List.not_mem_nil) (rewritten found (vaults ▸ vault') change.sameMoney)
  | detached label found _ _ vaults =>
    obtain ⟨action, derived⟩ := Instruction.detaches_action label c k
    rw [vaults] at vault'
    rw [action]
    exact drift (derived ▸ List.not_mem_nil) (rewritten found vault' ⟨rfl, rfl, rfl, rfl, rfl, rfl⟩)
  | scheduled label _ _ _ vaults =>
    obtain ⟨action, derived⟩ := Instruction.schedules_action label c k
    cases Option.some.inj ((vaults ▸ vault').symm.trans vault)
    rw [action]
    exact drift (derived ▸ List.not_mem_nil) (.refl v)
  | attached label found =>
    subst label
    exact drift List.not_mem_nil (rewritten found vault' ⟨rfl, rfl, rfl, rfl, rfl, rfl⟩)
  | registered label ran =>
    subst label
    exact drift List.not_mem_nil (rewritten ran.vault vault' ⟨rfl, rfl, rfl, rfl, rfl, rfl⟩)
  | deregistered label ran =>
    subst label
    exact drift List.not_mem_nil (rewritten ran.vault vault' ⟨rfl, rfl, rfl, rfl, rfl, rfl⟩)
  | settled label ran =>
    subst label
    exact drift List.not_mem_nil (rewritten ran.vault vault' ⟨rfl, rfl, rfl, rfl, rfl, rfl⟩)
  | initialized label ran =>
    subst label
    rcases lookup_rewritten vault vault' with ⟨rfl, _⟩ | ⟨_, rfl⟩
    · cases ran.fresh.symm.trans vault
    · exact drift List.not_mem_nil (.refl _)
  | closed label ran =>
    subst label
    obtain ⟨other, before⟩ := lookup_erase_cases vault'
    cases Option.some.inj (before.symm.trans vault)
    exact drift (fun acts => other (List.mem_singleton.mp acts)) (.refl _)
  | @deposited a amount minSharesOut v₀ m shares paid minted label ran =>
    obtain ⟨signers, derived⟩ := Instruction.deposits_signers label
    rw [Instruction.deposits_action label]
    rcases lookup_rewritten vault vault' with ⟨rfl, rfl⟩ | ⟨other, rfl⟩
    · cases Option.some.inj (vault.symm.trans ran.valid.vault)
      rw [if_pos rfl]
      exact ran.book formed (signed _ (signers ▸ List.mem_cons_self))
    · rw [if_neg (Ne.symm other)]
      exact drift (fun acts => other (List.mem_singleton.mp (derived ▸ acts))) (.refl _)
  | @redeemed a shares minAssetsOut v₀ m assets fees paid label ran =>
    obtain ⟨signers, derived⟩ := Instruction.redeems_signers label
    have signs := signed _ (signers ▸ List.mem_cons_self)
    rw [Instruction.redeems_action label]
    rcases lookup_rewritten vault vault' with ⟨rfl, rfl⟩ | ⟨other, rfl⟩
    · cases Option.some.inj (vault.symm.trans ran.valid.vault)
      rw [if_pos rfl]
      exact ran.book formed (Pubkey.ne_of_canSign signs formed.derived)
    · rw [if_neg (Ne.symm other)]
      exact drift (fun acts => other (List.mem_singleton.mp (derived ▸ acts))) (.refl _)
  | withdrew label ran =>
    subst label
    rcases lookup_rewritten vault vault' with ⟨rfl, rfl⟩ | ⟨other, rfl⟩
    · cases Option.some.inj (vault.symm.trans ran.valid.vault)
      simp only [Instruction.action, if_true]
      exact ran.book formed
    · simp only [Instruction.action, Ne.symm other, if_false]
      exact drift (fun acts => other (List.mem_singleton.mp acts)) (.refl _)
  | returned label ran =>
    subst label
    rcases lookup_rewritten vault vault' with ⟨rfl, _⟩ | ⟨other, rfl⟩
    · cases Option.some.inj (vault.symm.trans ran.valid.vault)
      simp only [Instruction.action, if_true]
      exact ran.book formed vault'
    · simp only [Instruction.action, Ne.symm other, if_false]
      exact drift (fun acts => other (List.mem_singleton.mp acts)) (.refl _)
  | @reported a newAum v₀ label ran =>
    subst label
    rcases lookup_rewritten vault vault' with ⟨rfl, rfl⟩ | ⟨other, rfl⟩
    · cases Option.some.inj (vault.symm.trans ran.vault)
      simp only [Instruction.action, if_true]
      have bounded : newAum.toNat ≤ u64Max := Nat.le_of_lt_succ newAum.toNat_lt
      have step : (c.book v).Step (.report newAum.toNat) _ := .report bounded
      exact step.congr rfl rfl rfl rfl rfl
    · simp only [Instruction.action, Ne.symm other, if_false]
      exact drift List.not_mem_nil (.refl _)
  | opened label =>
    subst label
    cases Option.some.inj (vault'.symm.trans vault)
    exact drift List.not_mem_nil (.refl v)
  | requested label =>
    subst label
    cases Option.some.inj (vault'.symm.trans vault)
    exact drift List.not_mem_nil (.refl v)
  | expedited label =>
    subst label
    cases Option.some.inj (vault'.symm.trans vault)
    exact drift List.not_mem_nil (.refl v)
  | cancelled label ran =>
    subst label
    cases Option.some.inj (vault'.symm.trans vault)
    refine drift (fun acts => ?_) (.refl v)
    have same := formed.key.symm.trans ((List.mem_singleton.mp acts).trans ran.queueKey)
    cases same
  | swept label ran =>
    subst label
    cases Option.some.inj (vault'.symm.trans vault)
    refine drift (fun acts => ?_) (.refl v)
    have same := formed.key.symm.trans ((List.mem_singleton.mp acts).trans ran.queueKey)
    cases same
  | finalized label ran =>
    subst label
    rcases lookup_rewritten vault vault' with ⟨rfl, rfl⟩ | ⟨other, rfl⟩
    · cases Option.some.inj (vault.symm.trans ran.redeem.valid.vault)
      simp only [Instruction.action, if_true, ran.valid.request, Option.elim_some]
      exact ran.book formed
    · simp only [Instruction.action, Ne.symm other, if_false]
      refine drift (fun acts => ?_) (.refl _)
      rcases List.mem_cons.mp acts with here | acts
      · exact other here
      · have same := formed.key.symm.trans ((List.mem_singleton.mp acts).trans ran.valid.queueKey)
        cases same
  | banked label ran =>
    subst label
    cases Option.some.inj (vault'.symm.trans vault)
    exact drift List.not_mem_nil (.refl v)

end Step

end Upshift
