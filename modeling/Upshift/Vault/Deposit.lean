import Upshift.Chain

namespace Upshift
open Guard KeyedStore

structure Deposit where
  vaultState : Pubkey
  vaultTokenAta : Pubkey
  senderTokenAccount : Pubkey
  senderShareAccount : Pubkey
  shareMint : Pubkey
  depositMint : Pubkey
  signer : Pubkey
  deriving DecidableEq

/-- The account constraints, returning what the handler reads: the vault, the share supply and
the deposit mint's decimals. -/
def Deposit.accounts (a : Deposit) (c : Chain) : Result (VaultState × Nat × Nat) := do
  let v ← c.vaultAt a.vaultState a.depositMint
  let _ ← c.reserveAt a.vaultTokenAta a.vaultState a.depositMint v.vaultVersion
  let _ ← c.tokenAccount a.senderTokenAccount a.depositMint a.signer
  let _ ← c.tokenAccount a.senderShareAccount a.shareMint a.signer
  let m ← c.shareMintAt a.shareMint a.vaultState a.depositMint v.vaultVersion
  let decimals ← c.sameDecimals a.shareMint a.depositMint
  return (v, m.supply, decimals)

def Deposit.handlerChecked (c : Chain) (a : Deposit) (amount minSharesOut : Nat) : Result Chain := do
  let (v, supply, decimals) ← a.accounts c
  require (0 < amount) (.vault .zeroAmount)
  require (v.paused = false) (.vault .vaultPaused)
  require (supply = 0 → v.minFirstDeposit decimals ≤ amount) (.vault .insufficientAmount)
  let paid ← c.bank.transferChecked a.senderTokenAccount a.depositMint a.vaultTokenAta a.signer amount
  let totalAssets ← v.totalAssets
  let shares ← v.sharesForDeposit supply totalAssets amount
  require (minSharesOut ≤ shares) (.vault .slippageExceeded)
  require (0 < shares) (.vault .zeroAmount)
  require (supply = 0 → v.minOpeningSupply ≤ shares) (.vault .insufficientAmount)
  let minted ← paid.mintToChecked a.shareMint a.senderShareAccount a.vaultState shares
  let localAum ← okOr (checkedAdd u64Max v.localAum amount) (.vault .numberOverflow)
  return { c with
    bank := minted
    vaults := c.vaults.insert a.vaultState { v with localAum := localAum } }

def Deposit.handler (c : Chain) (a : Deposit) (amount : Nat) : Result Chain :=
  Deposit.handlerChecked c a amount 0

/-- What the account constraints establish. -/
structure Deposit.Valid (a : Deposit) (c : Chain) (v : VaultState) (m : Mint) : Prop where
  vault : c.vaults.lookup a.vaultState = some v
  key : a.vaultState = .vaultState a.depositMint v.vaultVersion
  reserveKey : a.vaultTokenAta = .vaultToken a.depositMint v.vaultVersion
  reserve : ∃ t, c.bank.accounts.lookup a.vaultTokenAta = some t ∧ t.owner = a.vaultState ∧
    t.mint = a.depositMint
  senderToken : ∃ t, c.bank.accounts.lookup a.senderTokenAccount = some t ∧ t.owner = a.signer ∧
    t.mint = a.depositMint
  senderShare : ∃ t, c.bank.accounts.lookup a.senderShareAccount = some t ∧ t.owner = a.signer ∧
    t.mint = a.shareMint
  shareMint : c.bank.mints.lookup a.shareMint = some m
  shareMintKey : a.shareMint = .shareMint a.depositMint v.vaultVersion
  mintAuthority : m.mintAuthority = some a.vaultState
  depositMint : ∃ d, c.bank.mints.lookup a.depositMint = some d ∧ m.decimals = d.decimals

theorem Deposit.accounts_eq_ok {a : Deposit} {c : Chain} {v : VaultState} {supply decimals : Nat} :
    a.accounts c = .ok (v, supply, decimals) ↔
      ∃ m, a.Valid c v m ∧ m.supply = supply ∧ m.decimals = decimals := by
  simp only [Deposit.accounts, bind_eq_ok, Chain.vaultAt_eq_ok, Chain.reserveAt_eq_ok, Chain.tokenAccount_eq_ok,
    Chain.shareMintAt_eq_ok, Chain.sameDecimals_eq_ok, pure_eq_ok, Prod.mk.injEq]
  constructor
  · rintro ⟨v, ⟨vault, _, key⟩, reserve, ⟨reserveKey, atReserve⟩, sender, atSender, share, atShare,
      m, ⟨shareMint, shareMintKey, authority⟩, _, ⟨m', d, atMint', atDeposit, decimals, rfl⟩, rfl, rfl, rfl⟩
    cases Option.some.inj (shareMint.symm.trans atMint')
    exact ⟨m, ⟨vault, key, reserveKey, ⟨_, atReserve⟩, ⟨_, atSender⟩, ⟨_, atShare⟩, shareMint,
      shareMintKey, authority, ⟨d, atDeposit, decimals⟩⟩, rfl, decimals⟩
  · rintro ⟨m, valid, rfl, rfl⟩
    obtain ⟨reserve, atReserve⟩ := valid.reserve
    obtain ⟨sender, atSender⟩ := valid.senderToken
    obtain ⟨share, atShare⟩ := valid.senderShare
    obtain ⟨d, atDeposit, decimals⟩ := valid.depositMint
    exact ⟨v, ⟨valid.vault, ⟨d, atDeposit⟩, valid.key⟩, reserve, ⟨valid.reserveKey, atReserve⟩, sender, atSender,
      share, atShare, m, ⟨valid.shareMint, valid.shareMintKey, valid.mintAuthority⟩, _,
      ⟨m, d, valid.shareMint, atDeposit, decimals, rfl⟩, rfl, rfl, decimals.symm⟩

/-- A successful deposit of `amount` that mints `shares`. -/
structure Deposit.Ran (c : Chain) (a : Deposit) (amount minSharesOut : Nat) (v : VaultState) (m : Mint)
    (shares : Nat) (paid minted : Bank) : Prop where
  valid : a.Valid c v m
  positive : 0 < amount
  running : v.paused = false
  opening : m.supply = 0 → v.minFirstDeposit m.decimals ≤ amount
  pays : c.bank.transferChecked a.senderTokenAccount a.depositMint a.vaultTokenAta a.signer amount = .ok paid
  total : v.localAum + v.deployedAum ≤ u64Max
  quoted : v.sharesForDeposit m.supply (v.localAum + v.deployedAum) amount = .ok shares
  bounded : minSharesOut ≤ shares
  some : 0 < shares
  openingSupply : m.supply = 0 → v.minOpeningSupply ≤ shares
  mints : paid.mintToChecked a.shareMint a.senderShareAccount a.vaultState shares = .ok minted
  fits : v.localAum + amount ≤ u64Max

def Deposit.after (c : Chain) (a : Deposit) (amount : Nat) (v : VaultState) (minted : Bank) : Chain :=
  { c with bank := minted, vaults := c.vaults.insert a.vaultState { v with localAum := v.localAum + amount } }

theorem Deposit.handlerChecked_eq_ok {c c' : Chain} {a : Deposit} {amount minSharesOut : Nat} :
    Deposit.handlerChecked c a amount minSharesOut = .ok c' ↔ ∃ v m shares paid minted,
      Deposit.Ran c a amount minSharesOut v m shares paid minted ∧ c' = Deposit.after c a amount v minted := by
  simp only [Deposit.handlerChecked, bind_eq_ok, Prod.exists, Deposit.accounts_eq_ok, require_eq_ok,
    VaultState.totalAssets_eq_ok, okOr_eq_ok, checkedAdd_eq_some, pure_eq_ok, exists_const]
  constructor
  · rintro ⟨v, _, _, ⟨m, valid, rfl, rfl⟩, positive, running, opening, paid, pays, _, ⟨total, rfl⟩, shares, quoted,
      bounded, some, openingSupply, minted, mints, _, ⟨fits, rfl⟩, rfl⟩
    exact ⟨v, m, shares, paid, minted, ⟨valid, positive, running, opening, pays, total, quoted, bounded, some,
      openingSupply, mints, fits⟩, rfl⟩
  · rintro ⟨v, m, shares, paid, minted, ran, rfl⟩
    exact ⟨v, m.supply, m.decimals, ⟨m, ran.valid, rfl, rfl⟩, ran.positive, ran.running, ran.opening, paid,
      ran.pays, _, ⟨ran.total, rfl⟩, shares, ran.quoted, ran.bounded, ran.some, ran.openingSupply, minted,
      ran.mints, _, ⟨ran.fits, rfl⟩, rfl⟩

end Upshift
