import Upshift.Lib.Wire

namespace Upshift
open Wire

/-- An address as an account stores it. -/
abbrev Key := List.Vector UInt8 32

def Key.zero : Key := .replicate 32 0

/-- An address is stored as its bytes. -/
def keyLayout : Layout Key := array byte 32

theorem keyLayout_total : keyLayout.Total := array_total byte_total

theorem keyLayout_write (k : Key) : keyLayout.write k = k.toList := by
  refine (array_write k).trans ?_
  exact List.flatMap_singleton' _

/-- `[u64; n]`. -/
abbrev Words (n : Nat) := List.Vector UInt64 n

/-- The accounts of both programs, field by field in the order they are declared in. -/
structure Stored.VaultState where
  operator : Key
  admin : Key
  shareMint : Key
  depositMint : Key
  feeRecipient : Key
  withdrawalFee : UInt32
  localAum : UInt64
  deployedAum : UInt64
  aumIncreaseLimit : UInt32
  aumDecreaseLimit : UInt32
  pdaBump : UInt8
  vaultVersion : UInt8
  paused : Bool
  shareOffset : UInt64
  withdrawalQueueAuthority : Key
  subaccountCount : UInt64
  deployedPrincipal : UInt64
  padding : Words 25
  deriving DecidableEq

structure Stored.Subaccount where
  vaultState : Key
  address : Key
  principal : UInt64
  bump : UInt8
  padding : Words 8
  deriving DecidableEq

structure Stored.NominatedAdmin where
  nominatedAdmin : Key
  validUntil : Int64
  deriving DecidableEq

structure Stored.ProgramConfig where
  authority : Key
  bump : UInt8
  padding : Words 16
  deriving DecidableEq

structure Stored.WithdrawalQueue where
  vaultState : Key
  depositMint : Key
  shareMint : Key
  escrowShares : Key
  escrowAssets : Key
  cooldownSeconds : UInt64
  fulfillmentWindowSeconds : UInt64
  sequence : UInt64
  pendingRequests : UInt64
  pendingShares : UInt64
  bump : UInt8
  padding : Words 20
  deriving DecidableEq

structure Stored.WithdrawalRequest where
  queue : Key
  owner : Key
  recipientTokenAccount : Key
  finalizer : Key
  shares : UInt64
  requestId : UInt64
  sequence : UInt64
  requestedAt : Int64
  scheduledEligibleAt : Int64
  eligibleAt : Int64
  expiresAt : Int64
  bump : UInt8
  minAssetsOut : UInt64
  padding : Words 8
  deriving DecidableEq

/-- The fields of a vault before `paused`, and those after it. -/
def Stored.VaultState.leading :=
  keyLayout.pair <| keyLayout.pair <| keyLayout.pair <| keyLayout.pair <| keyLayout.pair <| u32.pair <| u64.pair <|
    u64.pair <| u32.pair <| u32.pair <| byte.pair byte

def Stored.VaultState.trailing := u64.pair <| keyLayout.pair <| u64.pair <| u64.pair <| array u64 25

def Stored.VaultState.layout : Layout Stored.VaultState :=
  (leading.pair (flag.pair trailing)).map
    ⟨fun ⟨⟨operator, admin, shareMint, depositMint, feeRecipient, withdrawalFee, localAum, deployedAum,
          aumIncreaseLimit, aumDecreaseLimit, pdaBump, vaultVersion⟩,
        paused, shareOffset, withdrawalQueueAuthority, subaccountCount, deployedPrincipal, padding⟩ =>
      ⟨operator, admin, shareMint, depositMint, feeRecipient, withdrawalFee, localAum, deployedAum,
        aumIncreaseLimit, aumDecreaseLimit, pdaBump, vaultVersion, paused, shareOffset, withdrawalQueueAuthority,
        subaccountCount, deployedPrincipal, padding⟩,
    fun v => ⟨⟨v.operator, v.admin, v.shareMint, v.depositMint, v.feeRecipient, v.withdrawalFee, v.localAum,
        v.deployedAum, v.aumIncreaseLimit, v.aumDecreaseLimit, v.pdaBump, v.vaultVersion⟩,
      v.paused, v.shareOffset, v.withdrawalQueueAuthority, v.subaccountCount, v.deployedPrincipal, v.padding⟩,
    fun _ => rfl, fun _ => rfl⟩

def Stored.Subaccount.layout : Layout Stored.Subaccount :=
  (keyLayout.pair <| keyLayout.pair <| u64.pair <| byte.pair <| array u64 8).map
    ⟨fun ⟨vaultState, address, principal, bump, padding⟩ => ⟨vaultState, address, principal, bump, padding⟩,
    fun s => ⟨s.vaultState, s.address, s.principal, s.bump, s.padding⟩, fun _ => rfl, fun _ => rfl⟩

/-- The account is read in place, in the representation of its `repr(C)`, which has no gaps. -/
def Stored.NominatedAdmin.layout : Layout Stored.NominatedAdmin :=
  (keyLayout.pair i64).map
    ⟨fun ⟨nominatedAdmin, validUntil⟩ => ⟨nominatedAdmin, validUntil⟩,
    fun n => ⟨n.nominatedAdmin, n.validUntil⟩, fun _ => rfl, fun _ => rfl⟩

def Stored.ProgramConfig.layout : Layout Stored.ProgramConfig :=
  (keyLayout.pair <| byte.pair <| array u64 16).map
    ⟨fun ⟨authority, bump, padding⟩ => ⟨authority, bump, padding⟩,
    fun p => ⟨p.authority, p.bump, p.padding⟩, fun _ => rfl, fun _ => rfl⟩

def Stored.WithdrawalQueue.layout : Layout Stored.WithdrawalQueue :=
  (keyLayout.pair <| keyLayout.pair <| keyLayout.pair <| keyLayout.pair <| keyLayout.pair <| u64.pair <| u64.pair <|
    u64.pair <| u64.pair <| u64.pair <| byte.pair <| array u64 20).map
    ⟨fun ⟨vaultState, depositMint, shareMint, escrowShares, escrowAssets, cooldownSeconds, fulfillmentWindowSeconds,
        sequence, pendingRequests, pendingShares, bump, padding⟩ =>
      ⟨vaultState, depositMint, shareMint, escrowShares, escrowAssets, cooldownSeconds, fulfillmentWindowSeconds,
        sequence, pendingRequests, pendingShares, bump, padding⟩,
    fun q => ⟨q.vaultState, q.depositMint, q.shareMint, q.escrowShares, q.escrowAssets, q.cooldownSeconds,
      q.fulfillmentWindowSeconds, q.sequence, q.pendingRequests, q.pendingShares, q.bump, q.padding⟩,
    fun _ => rfl, fun _ => rfl⟩

def Stored.WithdrawalRequest.layout : Layout Stored.WithdrawalRequest :=
  (keyLayout.pair <| keyLayout.pair <| keyLayout.pair <| keyLayout.pair <| u64.pair <| u64.pair <| u64.pair <|
    i64.pair <| i64.pair <| i64.pair <| i64.pair <| byte.pair <| u64.pair <| array u64 8).map
    ⟨fun ⟨queue, owner, recipientTokenAccount, finalizer, shares, requestId, sequence, requestedAt,
        scheduledEligibleAt, eligibleAt, expiresAt, bump, minAssetsOut, padding⟩ =>
      ⟨queue, owner, recipientTokenAccount, finalizer, shares, requestId, sequence, requestedAt,
        scheduledEligibleAt, eligibleAt, expiresAt, bump, minAssetsOut, padding⟩,
    fun r => ⟨r.queue, r.owner, r.recipientTokenAccount, r.finalizer, r.shares, r.requestId, r.sequence, r.requestedAt,
      r.scheduledEligibleAt, r.eligibleAt, r.expiresAt, r.bump, r.minAssetsOut, r.padding⟩,
    fun _ => rfl, fun _ => rfl⟩

inductive AccountKind
  | vaultState
  | subaccount
  | nominatedAdmin
  | programConfig
  | withdrawalQueue
  | withdrawalRequest
  deriving DecidableEq

/-- The program an account belongs to. -/
inductive Program
  | augustVault
  | augustWithdrawalQueue
  | other (id : Key)
  deriving DecidableEq

def AccountKind.program : AccountKind → Program
  | .vaultState | .subaccount | .nominatedAdmin | .programConfig => .augustVault
  | .withdrawalQueue | .withdrawalRequest => .augustWithdrawalQueue

abbrev AccountKind.Record : AccountKind → Type
  | .vaultState => Stored.VaultState
  | .subaccount => Stored.Subaccount
  | .nominatedAdmin => Stored.NominatedAdmin
  | .programConfig => Stored.ProgramConfig
  | .withdrawalQueue => Stored.WithdrawalQueue
  | .withdrawalRequest => Stored.WithdrawalRequest

/-- The first eight bytes of the hash of the account's name, as both clients list them. -/
def AccountKind.discriminator : AccountKind → List UInt8
  | .vaultState => [228, 196, 82, 165, 98, 210, 235, 152]
  | .subaccount => [205, 168, 49, 209, 131, 86, 56, 195]
  | .nominatedAdmin => [195, 131, 96, 55, 140, 253, 93, 195]
  | .programConfig => [196, 210, 90, 231, 144, 149, 140, 63]
  | .withdrawalQueue => [54, 56, 158, 88, 232, 203, 241, 163]
  | .withdrawalRequest => [242, 88, 147, 173, 182, 62, 229, 193]

/-- The constant `LEN` of each account. -/
def AccountKind.len : AccountKind → Nat
  | .vaultState => 455
  | .subaccount => 145
  | .nominatedAdmin => 48
  | .programConfig => 169
  | .withdrawalQueue => 369
  | .withdrawalRequest => 265

def accounts : Family AccountKind AccountKind.Record where
  tagWidth := 8
  tag := AccountKind.discriminator
  body
    | .vaultState => Stored.VaultState.layout
    | .subaccount => Stored.Subaccount.layout
    | .nominatedAdmin => Stored.NominatedAdmin.layout
    | .programConfig => Stored.ProgramConfig.layout
    | .withdrawalQueue => Stored.WithdrawalQueue.layout
    | .withdrawalRequest => Stored.WithdrawalRequest.layout
  length_tag kind := by cases kind <;> rfl
  tag_injective := by
    intro kind kind' same
    cases kind <;> cases kind' <;> first | rfl | exact absurd same (by decide)

/-- The data of an account, with the program that owns it. -/
structure RawAccount where
  owner : Program
  data : List UInt8
  deriving DecidableEq

/-- An account of the kind an instruction asks for: its owner and its discriminator are checked, then its fields are
read, and what follows them is ignored. -/
def RawAccount.load (kind : AccountKind) (raw : RawAccount) : Option kind.Record :=
  if raw.owner = kind.program then accounts.load kind raw.data else none

/-- The fields of each account with the bytes they are stored in. -/
def Stored.VaultState.rows (v : Stored.VaultState) : List Row :=
  [⟨8, v.operator.toList⟩,
    ⟨40, v.admin.toList⟩,
    ⟨72, v.shareMint.toList⟩,
    ⟨104, v.depositMint.toList⟩,
    ⟨136, v.feeRecipient.toList⟩,
    ⟨168, u32.write v.withdrawalFee⟩,
    ⟨172, u64.write v.localAum⟩,
    ⟨180, u64.write v.deployedAum⟩,
    ⟨188, u32.write v.aumIncreaseLimit⟩,
    ⟨192, u32.write v.aumDecreaseLimit⟩,
    ⟨196, [v.pdaBump]⟩,
    ⟨197, [v.vaultVersion]⟩,
    ⟨198, [if v.paused then 1 else 0]⟩,
    ⟨199, u64.write v.shareOffset⟩,
    ⟨207, v.withdrawalQueueAuthority.toList⟩,
    ⟨239, u64.write v.subaccountCount⟩,
    ⟨247, u64.write v.deployedPrincipal⟩,
    ⟨255, v.padding.toList.flatMap u64.write⟩]

def Stored.Subaccount.rows (s : Stored.Subaccount) : List Row :=
  [⟨8, s.vaultState.toList⟩,
    ⟨40, s.address.toList⟩,
    ⟨72, u64.write s.principal⟩,
    ⟨80, [s.bump]⟩,
    ⟨81, s.padding.toList.flatMap u64.write⟩]

def Stored.NominatedAdmin.rows (n : Stored.NominatedAdmin) : List Row :=
  [⟨8, n.nominatedAdmin.toList⟩,
    ⟨40, i64.write n.validUntil⟩]

def Stored.ProgramConfig.rows (p : Stored.ProgramConfig) : List Row :=
  [⟨8, p.authority.toList⟩,
    ⟨40, [p.bump]⟩,
    ⟨41, p.padding.toList.flatMap u64.write⟩]

def Stored.WithdrawalQueue.rows (q : Stored.WithdrawalQueue) : List Row :=
  [⟨8, q.vaultState.toList⟩,
    ⟨40, q.depositMint.toList⟩,
    ⟨72, q.shareMint.toList⟩,
    ⟨104, q.escrowShares.toList⟩,
    ⟨136, q.escrowAssets.toList⟩,
    ⟨168, u64.write q.cooldownSeconds⟩,
    ⟨176, u64.write q.fulfillmentWindowSeconds⟩,
    ⟨184, u64.write q.sequence⟩,
    ⟨192, u64.write q.pendingRequests⟩,
    ⟨200, u64.write q.pendingShares⟩,
    ⟨208, [q.bump]⟩,
    ⟨209, q.padding.toList.flatMap u64.write⟩]

def Stored.WithdrawalRequest.rows (r : Stored.WithdrawalRequest) : List Row :=
  [⟨8, r.queue.toList⟩,
    ⟨40, r.owner.toList⟩,
    ⟨72, r.recipientTokenAccount.toList⟩,
    ⟨104, r.finalizer.toList⟩,
    ⟨136, u64.write r.shares⟩,
    ⟨144, u64.write r.requestId⟩,
    ⟨152, u64.write r.sequence⟩,
    ⟨160, i64.write r.requestedAt⟩,
    ⟨168, i64.write r.scheduledEligibleAt⟩,
    ⟨176, i64.write r.eligibleAt⟩,
    ⟨184, i64.write r.expiresAt⟩,
    ⟨192, [r.bump]⟩,
    ⟨193, u64.write r.minAssetsOut⟩,
    ⟨201, r.padding.toList.flatMap u64.write⟩]

def AccountKind.rows : (kind : AccountKind) → kind.Record → List Row
  | .vaultState => Stored.VaultState.rows
  | .subaccount => Stored.Subaccount.rows
  | .nominatedAdmin => Stored.NominatedAdmin.rows
  | .programConfig => Stored.ProgramConfig.rows
  | .withdrawalQueue => Stored.WithdrawalQueue.rows
  | .withdrawalRequest => Stored.WithdrawalRequest.rows

/-- The place and the width of each field. -/
def AccountKind.table : AccountKind → List (Nat × Nat)
  | .vaultState => [(8, 32), (40, 32), (72, 32), (104, 32), (136, 32), (168, 4), (172, 8), (180, 8), (188, 4), (192, 4),
      (196, 1), (197, 1), (198, 1), (199, 8), (207, 32), (239, 8), (247, 8), (255, 200)]
  | .subaccount => [(8, 32), (40, 32), (72, 8), (80, 1), (81, 64)]
  | .nominatedAdmin => [(8, 32), (40, 8)]
  | .programConfig => [(8, 32), (40, 1), (41, 128)]
  | .withdrawalQueue => [(8, 32), (40, 32), (72, 32), (104, 32), (136, 32), (168, 8), (176, 8), (184, 8), (192, 8),
      (200, 8), (208, 1), (209, 160)]
  | .withdrawalRequest => [(8, 32), (40, 32), (72, 32), (104, 32), (136, 8), (144, 8), (152, 8), (160, 8), (168, 8),
      (176, 8), (184, 8), (192, 1), (193, 8), (201, 64)]

section Fields
variable {kind : AccountKind} {bytes : List UInt8} {raw : RawAccount}

theorem Stored.VaultState.leading_total : leading.Total :=
  keyLayout_total.pair <| keyLayout_total.pair <| keyLayout_total.pair <| keyLayout_total.pair <| keyLayout_total.pair <|
    u32_total.pair <| u64_total.pair <| u64_total.pair <| u32_total.pair <| u32_total.pair <| byte_total.pair byte_total

theorem Stored.VaultState.trailing_total : trailing.Total :=
  u64_total.pair <| keyLayout_total.pair <| u64_total.pair <| u64_total.pair <| array_total u64_total

theorem accounts_write (kind : AccountKind) (a : kind.Record) :
    accounts.write kind a = kind.discriminator ++ (kind.rows a).flatMap Row.bytes := by
  cases kind <;>
    simp only [Family.write, accounts, AccountKind.rows, Stored.VaultState.layout,
      Stored.VaultState.leading, Stored.VaultState.trailing, Stored.VaultState.rows,
      Stored.Subaccount.layout, Stored.Subaccount.rows, Stored.NominatedAdmin.layout, Stored.NominatedAdmin.rows,
      Stored.ProgramConfig.layout, Stored.ProgramConfig.rows, Stored.WithdrawalQueue.layout,
      Stored.WithdrawalQueue.rows, Stored.WithdrawalRequest.layout, Stored.WithdrawalRequest.rows, Layout.map_write,
      Layout.pair_write, Equiv.coe_fn_symm_mk, keyLayout_write, array_write, byte_write, flag_write,
      List.flatMap_cons, List.flatMap_nil, List.append_assoc, List.append_nil]

theorem words_length {n : Nat} (w : Words n) : (w.toList.flatMap u64.write).length = n * 8 := by
  rw [← array_write, Layout.length_write, array_width]
  rfl

theorem rows_table (kind : AccountKind) (a : kind.Record) :
    (kind.rows a).map (fun r => (r.start, r.bytes.length)) = kind.table := by
  cases kind <;>
    simp only [AccountKind.rows, AccountKind.table, Stored.VaultState.rows, Stored.Subaccount.rows,
      Stored.NominatedAdmin.rows, Stored.ProgramConfig.rows, Stored.WithdrawalQueue.rows,
      Stored.WithdrawalRequest.rows, List.map_cons, List.map_nil, List.Vector.toList_length, Layout.length_write,
      words_length, List.length_singleton] <;>
    rfl

/-- The table of each account leaves no gap and ends at `LEN`. -/
theorem rows_contiguous (kind : AccountKind) (a : kind.Record) : Contiguous 8 kind.len (kind.rows a) := by
  cases kind <;>
    simp only [AccountKind.rows, AccountKind.len, Stored.VaultState.rows, Stored.Subaccount.rows,
      Stored.NominatedAdmin.rows, Stored.ProgramConfig.rows, Stored.WithdrawalQueue.rows,
      Stored.WithdrawalRequest.rows, Contiguous, List.Vector.toList_length, Layout.length_write, words_length,
      List.length_singleton] <;>
    decide

/-- What a reader finds that only knows the table. -/
def AccountKind.slices (kind : AccountKind) (bytes : List UInt8) : List Row :=
  kind.table.map fun (start, width) => ⟨start, (bytes.drop start).take width⟩

theorem row_slice {a : kind.Record} {r : Row} (member : r ∈ kind.rows a) (rest : List UInt8) :
    ((accounts.write kind a ++ rest).drop r.start).take r.bytes.length = r.bytes := by
  have eight : 8 = kind.discriminator.length := (accounts.length_tag kind).symm
  have contiguous := rows_contiguous kind a
  rw [eight] at contiguous
  rw [accounts_write]
  exact contiguous.slice member rest

theorem slices_eq_rows (kind : AccountKind) (a : kind.Record) (rest : List UInt8) :
    kind.slices (accounts.write kind a ++ rest) = kind.rows a := by
  rw [AccountKind.slices, ← rows_table kind a, List.map_map]
  refine (List.map_congr_left fun r member => ?_).trans (List.map_id _)
  exact congrArg (Row.mk r.start) (row_slice member rest)

/-- A field is zero where the account is. -/
theorem zero_row {a : kind.Record} {r : Row} {cut : Nat} (zero : ∀ b ∈ (accounts.write kind a).drop cut, b = 0)
    (member : r ∈ kind.rows a) (later : cut ≤ r.start) : r.bytes = .replicate r.bytes.length 0 := by
  refine List.eq_replicate_iff.mpr ⟨rfl, fun b held => zero b ?_⟩
  have slice := row_slice member []
  rw [List.append_nil, ← Nat.add_sub_cancel' later, ← List.drop_drop] at slice
  rw [← slice] at held
  exact List.mem_of_mem_drop (List.mem_of_mem_take held)

theorem accounts_length (kind : AccountKind) (a : kind.Record) : (accounts.write kind a).length = kind.len := by
  have length := (rows_contiguous kind a).length
  have eight := accounts.length_tag kind
  rw [accounts_write, List.length_append]
  exact (congrArg (· + _) eight).trans length

/-- Every account of full length loads under its discriminator, but for a vault whose flag is no flag. -/
theorem accounts_load_isSome : (accounts.load kind bytes).isSome ↔ bytes.take 8 = kind.discriminator ∧
    kind.len ≤ bytes.length ∧ (kind = .vaultState → ∃ b, bytes[198]? = some b ∧ b ≤ 1) := by
  rw [Family.load_isSome]
  refine and_congr_right fun tagged => ?_
  have long : 8 ≤ bytes.length := by
    have width := congrArg List.length tagged
    rw [accounts.length_tag, List.length_take] at width
    exact inf_eq_left.mp width
  have keys := keyLayout_total
  have words : ∀ n, (array u64 n).Total := fun n => array_total u64_total
  have enough : ∀ {α} {l : Layout α}, l.Total → kind.len = 8 + l.width → kind ≠ .vaultState →
      ((l.load (bytes.drop 8)).isSome ↔ kind.len ≤ bytes.length ∧
        (kind = .vaultState → ∃ b, bytes[198]? = some b ∧ b ≤ 1)) := by
    intro α l total len other
    rw [total.load_isSome, List.length_drop, len]
    simp only [other, false_implies, and_true]
    omega
  cases kind with
  | vaultState =>
    refine (Layout.load_map _).trans <| Layout.load_pair.trans ?_
    rw [Stored.VaultState.leading_total.load_isSome, Layout.load_pair, Stored.VaultState.trailing_total.load_isSome,
      flag_load, List.head?_drop, List.getElem?_drop]
    simp only [List.length_drop, show accounts.tagWidth = 8 from rfl, show Stored.VaultState.leading.width = 190 by decide,
      show flag.width = 1 from rfl, show Stored.VaultState.trailing.width = 256 by decide, AccountKind.len,
      Nat.reduceAdd, forall_const]
    exact ⟨fun ⟨_, flagged, _⟩ => ⟨by omega, flagged⟩, fun ⟨_, flagged⟩ => ⟨by omega, flagged, by omega⟩⟩
  | subaccount =>
    exact enough (.map (keys.pair <| keys.pair <| u64_total.pair <| byte_total.pair <| words 8) _) (by decide) (by decide)
  | nominatedAdmin => exact enough (.map (keys.pair i64_total) _) (by decide) (by decide)
  | programConfig => exact enough (.map (keys.pair <| byte_total.pair <| words 16) _) (by decide) (by decide)
  | withdrawalQueue =>
    exact enough (.map (keys.pair <| keys.pair <| keys.pair <| keys.pair <| keys.pair <| u64_total.pair <| u64_total.pair <|
      u64_total.pair <| u64_total.pair <| u64_total.pair <| byte_total.pair <| words 20) _) (by decide) (by decide)
  | withdrawalRequest =>
    exact enough (.map (keys.pair <| keys.pair <| keys.pair <| keys.pair <| u64_total.pair <| u64_total.pair <|
      u64_total.pair <| i64_total.pair <| i64_total.pair <| i64_total.pair <| i64_total.pair <| byte_total.pair <|
      u64_total.pair <| words 8) _) (by decide) (by decide)

/-- An account is accepted as a kind exactly when its program, its discriminator and its length fit, and a vault's
flag is one. It then begins with the writing of the record, and is accepted as nothing else. -/
theorem RawAccount.load_iff (kind : AccountKind) (raw : RawAccount) :
    ((raw.load kind).isSome ↔ raw.owner = kind.program ∧ raw.data.take 8 = kind.discriminator ∧
      kind.len ≤ raw.data.length ∧ (kind = .vaultState → ∃ b, raw.data[198]? = some b ∧ b ≤ 1)) ∧
    (∀ a, raw.load kind = some a ↔ raw.owner = kind.program ∧ ∃ rest, raw.data = accounts.write kind a ++ rest) ∧
    ∀ kind', (raw.load kind).isSome → (raw.load kind').isSome → kind' = kind := by
  have owned : ∀ {kind' a}, raw.load kind' = some a ↔
      raw.owner = kind'.program ∧ accounts.load kind' raw.data = some a := by
    intro kind' a
    unfold RawAccount.load
    split
    · rename_i owner
      simp only [owner, true_and]
    · rename_i foreign
      simp only [foreign, reduceCtorEq, false_and]
  refine ⟨?_, fun a => ?_, fun kind' first second => ?_⟩
  · rw [← accounts_load_isSome, Option.isSome_iff_exists, Option.isSome_iff_exists, ← exists_and_left]
    exact exists_congr fun a => owned
  · rw [owned, Family.load_eq_some]
  · obtain ⟨a, loads⟩ := Option.isSome_iff_exists.mp first
    obtain ⟨a', loads'⟩ := Option.isSome_iff_exists.mp second
    exact Family.kind_unique (owned.mp loads').2 (owned.mp loads).2

/-- Each field of each account is at its byte offset, whatever the values: the fields fill the account up to `LEN`, and
a reader that only knows the table finds them. Bytes before a field have no part in it or in any later one. -/
theorem account_fields (kind : AccountKind) (a : kind.Record) (rest : List UInt8) :
    (accounts.write kind a).length = kind.len ∧ Contiguous 8 kind.len (kind.rows a) ∧
      kind.slices (accounts.write kind a ++ rest) = kind.rows a ∧
      ∀ cut (a' : kind.Record) rest',
        (accounts.write kind a ++ rest).drop cut = (accounts.write kind a' ++ rest').drop cut →
          (kind.rows a).filter (cut ≤ ·.start) = (kind.rows a').filter (cut ≤ ·.start) := by
  refine ⟨accounts_length kind a, rows_contiguous kind a, slices_eq_rows kind a rest, fun cut a' rest' same => ?_⟩
  rw [← slices_eq_rows kind a rest, ← slices_eq_rows kind a' rest', AccountKind.slices, AccountKind.slices,
    List.filter_map, List.filter_map]
  refine List.map_congr_left fun (start, width) member => ?_
  have later : cut ≤ start := of_decide_eq_true (List.mem_filter.mp member).2
  have shifted : ∀ bytes : List UInt8, bytes.drop start = (bytes.drop cut).drop (start - cut) := by
    intro bytes
    rw [List.drop_drop, Nat.add_sub_cancel' later]
  simp only [shifted, same]

end Fields

end Upshift
