import Upshift.Queue.Escrow
import Upshift.Vault.Soundness

namespace Upshift
open Guard KeyedStore

/-- What a request counts for in the counters of the queue at `k`. -/
def WithdrawalRequest.counted (k : Pubkey) (r : WithdrawalRequest) : Nat := if r.queue = k then 1 else 0

def WithdrawalRequest.pending (k : Pubkey) (r : WithdrawalRequest) : Nat := if r.queue = k then r.shares else 0

/-- The fields of a queue that no instruction changes. -/
structure WithdrawalQueue.WellFormed (q : WithdrawalQueue) (k : Pubkey) : Prop where
  key : k = .withdrawalQueue q.vaultState
  vault : ∃ vaultVersion, q.vaultState = .vaultState q.depositMint vaultVersion ∧
    q.shareMint = .shareMint q.depositMint vaultVersion
  escrowShares : q.escrowShares = .associatedToken k q.shareMint
  escrowAssets : q.escrowAssets = .associatedToken k q.depositMint

/-- The two escrow accounts, owned by the queue. -/
structure Bank.Escrows (b : Bank) (k : Pubkey) (q : WithdrawalQueue) : Prop where
  shares : ∃ t, b.accounts.lookup q.escrowShares = some t ∧ t.owner = k ∧ t.mint = q.shareMint
  assets : ∃ t, b.accounts.lookup q.escrowAssets = some t ∧ t.owner = k ∧ t.mint = q.depositMint

def Chain.escrow (c : Chain) (q : WithdrawalQueue) : Escrow where
  sequence := q.sequence
  pendingRequests := q.pendingRequests
  pendingShares := q.pendingShares
  balance := c.bank.balance q.escrowShares

/-- The counters of a queue agree with its live requests. -/
def Chain.Counted (c : Chain) (k : Pubkey) (q : WithdrawalQueue) : Prop :=
  q.pendingRequests = total (WithdrawalRequest.counted k) c.requests ∧
    q.pendingShares = total (WithdrawalRequest.pending k) c.requests

/-- The vault of a queue is there, or it is closed for good with no share left. -/
def Chain.Attended (c : Chain) (q : WithdrawalQueue) : Prop :=
  (∃ v, c.vaults.lookup q.vaultState = some v) ∨
    ∃ m, c.bank.mints.lookup q.shareMint = some m ∧ m.mintAuthority = none ∧ m.supply = 0

structure Chain.QueueSound (c : Chain) (k : Pubkey) (q : WithdrawalQueue) : Prop where
  formed : q.WellFormed k
  escrows : c.bank.Escrows k q
  covered : (c.escrow q).Covered
  issued : q.sequence ≤ u64Max
  counted : c.Counted k q
  attended : c.Attended q

/-- A live request lives where its fields put it, is owned by a key that can sign, and carries a
stamp its queue has issued. -/
structure Chain.RequestSound (c : Chain) (k : Pubkey) (r : WithdrawalRequest) : Prop where
  key : k = .withdrawalRequest r.queue r.owner r.requestId
  owner : r.owner.canSign = true
  positive : 0 < r.shares
  stamped : ∃ q, c.queues.lookup r.queue = some q ∧ 1 ≤ r.sequence ∧ r.sequence ≤ q.sequence

theorem WithdrawalQueue.WellFormed.derived {q : WithdrawalQueue} {k : Pubkey} (formed : q.WellFormed k) :
    k.canSign = false := by
  rw [formed.key]
  rfl

/-- Nobody but the queue has power over its escrow accounts. -/
theorem WithdrawalQueue.WellFormed.custodial {q : WithdrawalQueue} {k : Pubkey} (formed : q.WellFormed k) :
    q.escrowShares.custodial = true ∧ q.escrowAssets.custodial = true := by
  rw [formed.escrowShares, formed.escrowAssets, formed.key]
  exact ⟨rfl, rfl⟩

theorem Bank.Escrows.keeps {b b' : Bank} {k : Pubkey} {q : WithdrawalQueue} (escrows : b.Escrows k q)
    (run : b.Keeps b') : b'.Escrows k q :=
  ⟨run.owned escrows.shares, run.owned escrows.assets⟩

/-- The escrow accounts survive everything done in other names, and do not fall. -/
theorem Bank.Escrows.respects {b b' : Bank} {A : Pubkey → Prop} {k : Pubkey} {q : WithdrawalQueue}
    (escrows : b.Escrows k q) (run : b.Respects A b') (sound : b.Sound) (formed : q.WellFormed k)
    (other : ¬A k) :
    b'.Escrows k q ∧ b.balance q.escrowShares ≤ b'.balance q.escrowShares ∧
      b.balance q.escrowAssets ≤ b'.balance q.escrowAssets := by
  obtain ⟨t, atShares, owner, sameMint⟩ := escrows.shares
  obtain ⟨u, atAssets, owner', sameMint'⟩ := escrows.assets
  obtain ⟨t', atShares', mint', kept, _, amount⟩ :=
    run.account atShares (sound.sole atShares formed.custodial.1) (owner ▸ other)
  obtain ⟨u', atAssets', mint'', kept', _, amount'⟩ :=
    run.account atAssets (sound.sole atAssets formed.custodial.2) (owner' ▸ other)
  refine ⟨⟨⟨t', atShares', kept.trans owner, mint'.trans sameMint⟩,
    ⟨u', atAssets', kept'.trans owner', mint''.trans sameMint'⟩⟩, ?_, ?_⟩
  · rw [Bank.balance_of_lookup atShares, Bank.balance_of_lookup atShares']
    exact amount
  · rw [Bank.balance_of_lookup atAssets, Bank.balance_of_lookup atAssets']
    exact amount'

end Upshift
