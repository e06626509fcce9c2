import Upshift.Signing
import Upshift.Vault.Book

namespace Upshift
open Guard KeyedStore

/-- The reserve token account of a vault. -/
def VaultState.reserve (v : VaultState) : Pubkey := .vaultToken v.depositMint v.vaultVersion

/-- What a vault account says of itself, kept at address `k`. -/
structure VaultState.WellFormed (v : VaultState) (k : Pubkey) : Prop where
  key : k = .vaultState v.depositMint v.vaultVersion
  shareMint : v.shareMint = .shareMint v.depositMint v.vaultVersion
  fee : v.withdrawalFee < 100000
  increase : v.aumIncreaseLimit ≤ bpsDenominator
  decrease : v.aumDecreaseLimit ≤ bpsDenominator
  offset : v.StoresOffset
  queue : v.withdrawalQueueAuthority = .default ∨ v.withdrawalQueueAuthority = .withdrawalQueue k

/-- What the token program holds for a vault: its share mint, which only it can issue, and its
reserve. -/
structure Bank.Backs (b : Bank) (k : Pubkey) (v : VaultState) : Prop where
  issued : ∃ m d, b.mints.lookup v.shareMint = some m ∧ b.mints.lookup v.depositMint = some d ∧
    m.mintAuthority = some k ∧ m.decimals = d.decimals ∧ m.freezeAuthority = none
  reserve : ∃ t, b.accounts.lookup v.reserve = some t ∧ t.owner = k ∧ t.mint = v.depositMint

/-- The money of a vault, as the accounts record it. -/
def Chain.book (c : Chain) (v : VaultState) : Book where
  offset := v.resolvedShareOffset
  supply := c.bank.supply v.shareMint
  localAum := v.localAum
  deployedAum := v.deployedAum
  reserve := c.bank.balance v.reserve

structure Chain.VaultSound (c : Chain) (k : Pubkey) (v : VaultState) : Prop where
  formed : v.WellFormed k
  backed : c.bank.Backs k v
  solvent : (c.book v).Solvent
  deployed : v.deployedAum ≤ u64Max
  live : ∀ queue, v.withdrawalQueue = some queue → (c.queues.lookup queue).isSome

theorem VaultState.StoredBefore.wellFormed {v v₀ : VaultState} {k : Pubkey} (stored : v.StoredBefore v₀)
    (formed : v₀.WellFormed k) : v.WellFormed k := by
  obtain ⟨offset, _, rest⟩ := stored
  have stores : v.StoresOffset := by
    rcases offset with same | ⟨unset, _⟩
    · exact formed.offset.congr same
    · exact Or.inl unset
  rw [rest]
  exact ⟨formed.key, formed.shareMint, formed.fee, formed.increase, formed.decrease, stores, formed.queue⟩

theorem VaultState.StoredBefore.sound {c : Chain} {vaults : Store Pubkey VaultState} {v v₀ : VaultState} {k : Pubkey}
    (stored : v.StoredBefore v₀) (sound : c.VaultSound k v₀) : Chain.VaultSound { c with vaults := vaults } k v := by
  refine ⟨stored.wellFormed sound.formed, ?_, ?_, ?_, ?_⟩ <;> rw [stored.rest]
  · exact ⟨sound.backed.issued, sound.backed.reserve⟩
  · exact sound.solvent
  · exact sound.deployed
  · exact sound.live

theorem VaultState.WellFormed.derived {v : VaultState} {k : Pubkey} (formed : v.WellFormed k) :
    k.canSign = false := by
  rw [formed.key]
  rfl

/-- The mint and the reserve of a vault survive everything done in other names. The supply can
only fall, and the reserve can only grow. -/
theorem Bank.Backs.respects {b b' : Bank} {A : Pubkey → Prop} {k : Pubkey} {v : VaultState}
    (backs : b.Backs k v) (run : b.Respects A b') (sound : b.Sound) (other : ¬A k) :
    b'.Backs k v ∧ b'.supply v.shareMint ≤ b.supply v.shareMint ∧ b.balance v.reserve ≤ b'.balance v.reserve := by
  obtain ⟨m, d, atShare, atDeposit, authority, decimals, unfrozen⟩ := backs.issued
  obtain ⟨t, atReserve, owner, sameMint⟩ := backs.reserve
  obtain ⟨m', atShare', ⟨_, decimals', frozen', _⟩, kept⟩ := run.mint atShare
  obtain ⟨d', atDeposit', ⟨_, depositDecimals, _, _⟩, _⟩ := run.mint atDeposit
  have closed : ∀ a, m.mintAuthority = some a → ¬A a := by
    intro a is
    cases Option.some.inj (authority.symm.trans is)
    exact other
  obtain ⟨authority', supply'⟩ := kept closed
  obtain ⟨t', atReserve', mint', owner', _, amount⟩ :=
    run.account atReserve (sound.sole atReserve rfl) (owner ▸ other)
  refine ⟨⟨⟨m', d', atShare', atDeposit', authority'.trans authority, ?_, frozen'.trans unfrozen⟩,
    ⟨t', atReserve', owner'.trans owner, mint'.trans sameMint⟩⟩, ?_, ?_⟩
  · rw [decimals', decimals, depositDecimals]
  · rw [Bank.supply_of_lookup atShare, Bank.supply_of_lookup atShare']
    exact supply'
  · rw [Bank.balance_of_lookup atReserve, Bank.balance_of_lookup atReserve']
    exact amount

theorem Bank.Backs.keeps {b b' : Bank} {k : Pubkey} {v : VaultState} (backs : b.Backs k v) (run : b.Keeps b') :
    b'.Backs k v := by
  obtain ⟨m, d, atShare, atDeposit, authority, decimals, unfrozen⟩ := backs.issued
  obtain ⟨t, atReserve, owner, sameMint⟩ := backs.reserve
  obtain ⟨m', atShare', ⟨_, decimals', frozen', _⟩, authority'⟩ := run.mint atShare
  obtain ⟨d', atDeposit', ⟨_, depositDecimals, _, _⟩, _⟩ := run.mint atDeposit
  obtain ⟨t', atReserve', mint', owner'⟩ := run.account atReserve
  refine ⟨⟨m', d', atShare', atDeposit', authority'.trans authority, ?_, frozen'.trans unfrozen⟩,
    ⟨t', atReserve', owner'.trans owner, mint'.trans sameMint⟩⟩
  rw [decimals', decimals, depositDecimals]

/-- The mint and the reserve are found by the fields that never change. -/
theorem Bank.Backs.congr {b : Bank} {k : Pubkey} {v v' : VaultState} (backs : b.Backs k v)
    (shareMint : v'.shareMint = v.shareMint) (depositMint : v'.depositMint = v.depositMint)
    (vaultVersion : v'.vaultVersion = v.vaultVersion) : b.Backs k v' := by
  have reserve : v'.reserve = v.reserve := by rw [VaultState.reserve, VaultState.reserve, depositMint, vaultVersion]
  exact ⟨by rw [shareMint, depositMint]; exact backs.issued, by rw [reserve, depositMint]; exact backs.reserve⟩

end Upshift
