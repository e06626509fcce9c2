import Upshift.Lib.Replay
import Upshift.Queue.Lifecycle

namespace Upshift
open Guard KeyedStore History Replay

/-- What the events tell of a pending request, beside its address and its stamp. -/
structure PendingRequest where
  owner : Pubkey
  requestId : Nat
  shares : Nat
  recipientTokenAccount : Pubkey
  finalizer : Pubkey
  eligibleAt : Int
  expiresAt : Int
  minAssetsOut : Nat
  deriving DecidableEq

def WithdrawalRequest.entry (r : WithdrawalRequest) : PendingRequest where
  owner := r.owner
  requestId := r.requestId
  shares := r.shares
  recipientTokenAccount := r.recipientTokenAccount
  finalizer := r.finalizer
  eligibleAt := r.eligibleAt
  expiresAt := r.expiresAt
  minAssetsOut := r.minAssetsOut

/-- What an event of the queue at `k` does to the pending set, which is keyed by request and stamp. -/
def QueueEvent.change (k : Pubkey) : QueueEvent → Option (Change (Pubkey × Nat) PendingRequest)
  | .withdrawalRequested _ queue request requestId owner sequence shares recipientTokenAccount finalizer eligibleAt
      expiresAt minAssetsOut =>
    if queue = k then some (.opened (request, sequence)
      ⟨owner, requestId, shares, recipientTokenAccount, finalizer, eligibleAt, expiresAt, minAssetsOut⟩) else none
  | .withdrawalExpedited _ queue request _ _ sequence _ _ newEligibleAt =>
    if queue = k then some (.amended (request, sequence) fun p => { p with eligibleAt := newEligibleAt }) else none
  | .withdrawalFinalized _ queue request _ _ sequence _ _ _ _ =>
    if queue = k then some (.closed (request, sequence)) else none
  | .withdrawalCancelled _ queue request _ _ sequence _ _ _ =>
    if queue = k then some (.closed (request, sequence)) else none
  | _ => none

/-- The pending set of the queue at `k`, as its events tell it. -/
def pendingSet (k : Pubkey) (log : List QueueEvent) : Store (Pubkey × Nat) PendingRequest :=
  replay (log.filterMap (QueueEvent.change k))

/-- What an event says of the pending set it finds is so. -/
def QueueEvent.Accurate (k : Pubkey) (s : Store (Pubkey × Nat) PendingRequest) : QueueEvent → Prop
  | .withdrawalRequested _ queue request _ _ sequence _ _ _ _ _ _ =>
    queue = k → s.lookup (request, sequence) = none
  | .withdrawalExpedited _ queue request requestId owner sequence _ previousEligibleAt _ =>
    queue = k → ∃ p, s.lookup (request, sequence) = some p ∧ p.requestId = requestId ∧ p.owner = owner ∧
      p.eligibleAt = previousEligibleAt
  | .withdrawalFinalized _ queue request requestId owner sequence recipient _ shares _ =>
    queue = k → ∃ p, s.lookup (request, sequence) = some p ∧ p.requestId = requestId ∧ p.owner = owner ∧
      p.recipientTokenAccount = recipient ∧ p.shares = shares
  | .withdrawalCancelled _ queue request requestId owner sequence _ shares _ =>
    queue = k → ∃ p, s.lookup (request, sequence) = some p ∧ p.requestId = requestId ∧ p.owner = owner ∧
      p.shares = shares
  | .vaultReleased _ queue pendingRequests pendingShares =>
    queue = k → pendingRequests = size s ∧ pendingShares = total PendingRequest.shares s
  | _ => True

/-- Events that are not about a single request. -/
def QueueEvent.general : QueueEvent → Bool
  | .withdrawalRequested .. | .withdrawalExpedited .. | .withdrawalFinalized .. | .withdrawalCancelled .. => false
  | _ => true

/-- What a step does to the log, and to the requests and counters it tells of. -/
inductive LogMove (c : Chain) (i : Instruction) : Chain → Prop
  | silent {c'} (requests : c'.requests = c.requests)
      (queues : ∀ {k q q'}, c.queues.lookup k = some q → c'.queues.lookup k = some q' → q.Configured q')
      (log : c'.log = c.log) : LogMove c i c'
  | general {c' e} (requests : c'.requests = c.requests)
      (queues : ∀ {k q q'}, c.queues.lookup k = some q → c'.queues.lookup k = some q' → q.Configured q')
      (log : c'.log = e :: c.log) (other : e.general)
      (released : ∀ vault k n shares, e = .vaultReleased vault k n shares →
        ∃ q, c.queues.lookup k = some q ∧ n = q.pendingRequests ∧ shares = q.pendingShares) : LogMove c i c'
  | opened {a requestId shares minAssetsOut finalizer q v escrowed}
      (label : i = .queue (.requestWithdrawal a requestId shares minAssetsOut finalizer))
      (ran : RequestWithdrawal.Ran c a requestId.toNat shares.toNat q v escrowed) :
      LogMove c i (RequestWithdrawal.after c a shares.toNat q
        (RequestWithdrawal.record c a requestId.toNat shares.toNat minAssetsOut.toNat finalizer q) escrowed)
  | expedited {a expectedSequence q v r} (label : i = .queue (.expediteRequest a expectedSequence))
      (ran : ExpediteRequest.Ran c a expectedSequence.toNat q v r) : LogMove c i (ExpediteRequest.after c a q r)
  | cancelled {a expectedSequence q r returned} (label : i = .queue (.cancelWithdrawal a expectedSequence))
      (ran : CancelWithdrawal.Ran c a expectedSequence.toNat q r returned) :
      LogMove c i (CancelWithdrawal.after c a q r returned)
  | finalized {a expectedSequence q r recipient escrow escrow' v m assets fees paid forwarded}
      (label : i = .queue (.finalizeWithdrawal a expectedSequence))
      (ran : FinalizeWithdrawal.Ran c a expectedSequence.toNat q r recipient escrow escrow' v m assets fees paid
        forwarded) :
      LogMove c i (FinalizeWithdrawal.after c a q r v assets (escrow'.amount - escrow.amount) forwarded)

theorem pendingSet_quiet {k : Pubkey} {e : QueueEvent} {log : List QueueEvent} (none : e.change k = none) :
    pendingSet k (e :: log) = pendingSet k log := by
  rw [pendingSet, List.filterMap_cons_none none]
  rfl

theorem pendingSet_change {k : Pubkey} {e : QueueEvent} {log : List QueueEvent}
    {change : Change (Pubkey × Nat) PendingRequest} (some : e.change k = some change) :
    pendingSet k (e :: log) = change.apply (pendingSet k log) := by
  rw [pendingSet, List.filterMap_cons_some some]
  rfl

theorem QueueEvent.general_change {k : Pubkey} {e : QueueEvent} (other : e.general) : e.change k = none := by
  cases e with
  | withdrawalRequested | withdrawalExpedited | withdrawalFinalized | withdrawalCancelled => cases other
  | queueInitialized | queueConfigUpdated | vaultReleased | escrowSwept => rfl

section Step
variable {c c' : Chain} {i : Instruction} {k key : Pubkey} {x : Pubkey × Nat} {q q' : WithdrawalQueue}
  {r r' : WithdrawalRequest} {p : PendingRequest} {s : Store (Pubkey × Nat) PendingRequest}

theorem Step.log_move (taken : Step c i c') : LogMove c i c' := by
  have executed := taken.executed
  cases taken.request_move with
  | opened label ran => exact .opened label ran
  | expedited label ran => exact .expedited label ran
  | cancelled label ran => exact .cancelled label ran
  | finalized label ran => exact .finalized label ran
  | kept requests queues =>
    cases taken.move with
    | requested label ran => exact .opened label ran
    | expedited label ran => exact .expedited label ran
    | cancelled label ran => exact .cancelled label ran
    | finalized label ran => exact .finalized label ran
    | quiet _ _ _ _ _ _ log => exact .silent requests queues log
    | configured _ _ _ _ _ _ _ _ log => exact .silent requests queues log
    | detached label =>
      unfold Instruction.detaches at label
      split at label
      · obtain ⟨_, _, _, _, _, _, rfl⟩ := VaultAdmin.update_eq_ok executed
        exact .silent requests queues rfl
      · obtain ⟨q, _, spec, rfl⟩ := ReleaseVault.handler_eq_ok executed
        refine .general requests queues rfl rfl ?_
        rintro _ _ _ _ ⟨⟩
        exact ⟨q, spec.queue, rfl, rfl⟩
      · cases label
    | scheduled label =>
      unfold Instruction.schedules at label
      split at label
      · rename_i a seconds
        have ran : SetCooldown.handler c a seconds.toNat = .ok c' := executed
        obtain ⟨_, _, _, _, _, _, _, _, _, rfl⟩ := QueueAdmin.update_eq_ok ran
        exact .general requests queues rfl rfl fun _ _ _ _ same => by cases same
      · rename_i a seconds
        have ran : SetFulfillmentWindow.handler c a seconds.toNat = .ok c' := executed
        obtain ⟨_, _, _, _, _, _, _, _, _, rfl⟩ := QueueAdmin.update_eq_ok ran
        exact .general requests queues rfl rfl fun _ _ _ _ same => by cases same
      · cases label
    | opened => exact .general requests queues rfl rfl fun _ _ _ _ same => by cases same
    | swept => exact .general requests queues rfl rfl fun _ _ _ _ same => by cases same
    | attached | reported | registered | deregistered | settled => exact .silent requests queues rfl
    | initialized | closed | deposited | redeemed | withdrew | returned | banked =>
      exact .silent requests queues rfl

/-- The live request of the queue at `k` with a given address and stamp. -/
def Chain.pendingEntry (c : Chain) (k : Pubkey) (x : Pubkey × Nat) : Option PendingRequest :=
  (c.requests.lookup x.1).bind fun r => if r.queue = k ∧ r.sequence = x.2 then some r.entry else none

theorem Chain.pendingEntry_of (live : c.requests.lookup x.1 = some r) :
    c.pendingEntry k x = if r.queue = k ∧ r.sequence = x.2 then some r.entry else none := by
  rw [Chain.pendingEntry, live, Option.bind_some]

theorem Chain.pendingEntry_absent (absent : c.requests.lookup x.1 = none) : c.pendingEntry k x = none := by
  rw [Chain.pendingEntry, absent, Option.bind_none]

theorem Chain.pendingEntry_eq_some : c.pendingEntry k x = some p ↔
    ∃ r, c.requests.lookup x.1 = some r ∧ r.queue = k ∧ r.sequence = x.2 ∧ r.entry = p := by
  simp only [Chain.pendingEntry, Option.bind_eq_some_iff, ite_eq_iff, reduceCtorEq, and_false, or_false,
    Option.some.injEq, and_assoc]

theorem Chain.pendingEntry_congr (same : c'.requests.lookup x.1 = c.requests.lookup x.1) :
    c'.pendingEntry k x = c.pendingEntry k x := by
  rw [Chain.pendingEntry, Chain.pendingEntry, same]

/-- A pending set that holds the live requests of the queue at `k`. -/
def Mirrors (k : Pubkey) (c : Chain) (s : Store (Pubkey × Nat) PendingRequest) : Prop :=
  ∀ x, s.lookup x = c.pendingEntry k x

theorem Mirrors.written (mirrors : Mirrors k c s) (requests : c'.requests = c.requests.insert key r')
    (here : r'.queue = k) (before : ∀ r, c.requests.lookup key = some r → r.sequence = r'.sequence) :
    Mirrors k c' (s.insert (key, r'.sequence) r'.entry) := by
  rintro ⟨key', sequence⟩
  rw [lookup_insert_ite]
  by_cases at' : key' = key
  · subst at'
    have live : c'.requests.lookup key' = some r' := requests ▸ Finmap.lookup_insert _
    rw [Chain.pendingEntry_of live]
    by_cases stamp : sequence = r'.sequence
    · rw [if_pos (by rw [stamp]), if_pos ⟨here, stamp.symm⟩]
    · rw [if_neg fun same => stamp (congrArg Prod.snd same), if_neg fun both => stamp both.2.symm, mirrors]
      cases old : c.requests.lookup key' with
      | none => exact Chain.pendingEntry_absent old
      | some r =>
        rw [Chain.pendingEntry_of old]
        exact if_neg fun both => stamp (both.2.symm.trans (before r old))
  · rw [if_neg fun same => at' (congrArg Prod.fst same), mirrors]
    refine (Chain.pendingEntry_congr ?_).symm
    rw [requests]
    exact Finmap.lookup_insert_of_ne _ at'

theorem Mirrors.erased (mirrors : Mirrors k c s) (requests : c'.requests = c.requests.erase key)
    (live : c.requests.lookup key = some r) : Mirrors k c' (s.erase (key, r.sequence)) := by
  rintro ⟨key', sequence⟩
  rw [lookup_erase_ite]
  by_cases at' : key' = key
  · subst at'
    have gone : c'.requests.lookup key' = none := requests ▸ Finmap.lookup_erase _ _
    rw [Chain.pendingEntry_absent gone]
    by_cases stamp : sequence = r.sequence
    · rw [if_pos (by rw [stamp])]
    · rw [if_neg fun same => stamp (congrArg Prod.snd same), mirrors, Chain.pendingEntry_of live]
      exact if_neg fun both => stamp both.2.symm
  · rw [if_neg fun same => at' (congrArg Prod.fst same), mirrors]
    refine (Chain.pendingEntry_congr ?_).symm
    rw [requests]
    exact Finmap.lookup_erase_ne at'

/-- A change at an address that holds a request of another queue, before and after. -/
theorem Mirrors.elsewhere (mirrors : Mirrors k c s)
    (others : ∀ key', key' ≠ key → c'.requests.lookup key' = c.requests.lookup key')
    (before : ∀ r, c.requests.lookup key = some r → r.queue ≠ k)
    (after : ∀ r, c'.requests.lookup key = some r → r.queue ≠ k) : Mirrors k c' s := by
  have nothing : ∀ {d : Chain} {sequence}, (∀ r, d.requests.lookup key = some r → r.queue ≠ k) →
      d.pendingEntry k (key, sequence) = none := by
    intro d sequence other
    cases found : d.requests.lookup key with
    | none => exact Chain.pendingEntry_absent found
    | some r =>
      rw [Chain.pendingEntry_of found]
      exact if_neg fun both => other r found both.1
  rintro ⟨key', sequence⟩
  rw [mirrors]
  by_cases at' : key' = key
  · subst at'
    rw [nothing before, nothing after]
  · exact (Chain.pendingEntry_congr (others key' at')).symm

theorem Mirrors.congr (mirrors : Mirrors k c s) (requests : c'.requests = c.requests) : Mirrors k c' s := by
  intro x
  rw [mirrors]
  exact (Chain.pendingEntry_congr (by rw [requests])).symm

theorem Mirrors.live (mirrors : Mirrors k c s) (live : c.requests.lookup key = some r) (here : r.queue = k) :
    s.lookup (key, r.sequence) = some r.entry := by
  rw [mirrors, Chain.pendingEntry_of live]
  exact if_pos ⟨here, rfl⟩

/-- Every live request names a queue that exists. -/
theorem Mirrors.empty (mirrors : Mirrors k c s) (sound : c.RequestsSound) (absent : c.queues.lookup k = none) :
    s = ∅ := by
  refine Finmap.ext_lookup fun x => ?_
  rw [mirrors, Finmap.lookup_empty]
  by_contra present
  obtain ⟨p, found⟩ := Option.ne_none_iff_exists'.mp present
  obtain ⟨r, live, here, _⟩ := Chain.pendingEntry_eq_some.mp found
  obtain ⟨_, _, _, q, queue, _⟩ := sound x.1 r live
  cases absent.symm.trans (here ▸ queue)

/-- The counters of a queue count a pending set. -/
def WithdrawalQueue.Counts (q : WithdrawalQueue) (s : Store (Pubkey × Nat) PendingRequest) : Prop :=
  q.pendingRequests = size s ∧ q.pendingShares = total PendingRequest.shares s

theorem WithdrawalQueue.Counts.opened (counts : q.Counts s) (fresh : s.lookup x = none) (p : PendingRequest) :
    (q.opened p.shares).Counts (Change.apply s (.opened x p)) := by
  rw [WithdrawalQueue.Counts, size_opened fresh, total_opened fresh, ← counts.1, ← counts.2]
  exact ⟨rfl, rfl⟩

theorem WithdrawalQueue.Counts.amended {f : PendingRequest → PendingRequest} (counts : q.Counts s)
    (found : s.lookup x = some p) (kept : (f p).shares = p.shares) : q.Counts (Change.apply s (.amended x f)) := by
  rw [WithdrawalQueue.Counts, size_amended found, total_amended found kept]
  exact counts

theorem WithdrawalQueue.Counts.closed (counts : q.Counts s) (found : s.lookup x = some p) :
    (q.closed p.shares).Counts (Change.apply s (.closed x)) := by
  rw [WithdrawalQueue.Counts, size_closed found, total_closed found, ← counts.1, ← counts.2]
  exact ⟨rfl, rfl⟩

/-- The log of a chain tells what is pending at the queue at `k`. -/
structure Chain.Told (c : Chain) (k : Pubkey) : Prop where
  mirrors : Mirrors k c (pendingSet k c.log)
  counts : ∀ q, c.queues.lookup k = some q → q.Counts (pendingSet k c.log)

/-- A step that leaves the requests and the counters alone. -/
theorem Chain.Told.kept (told : c.Told k) (taken : Step c i c') (sound : c.RequestsSound)
    (requests : c'.requests = c.requests)
    (queues : ∀ {k q q'}, c.queues.lookup k = some q → c'.queues.lookup k = some q' → q.Configured q')
    (same : pendingSet k c'.log = pendingSet k c.log) : c'.Told k := by
  constructor
  · rw [same]
    exact told.mirrors.congr requests
  · intro q' queue'
    rw [same]
    cases queue : c.queues.lookup k with
    | some q =>
      have change := queues queue queue'
      rw [WithdrawalQueue.Counts, change.pendingRequests, change.pendingShares]
      exact told.counts q queue
    | none =>
      rw [told.mirrors.empty sound queue]
      obtain ⟨_, _, _, _, _, _, _, rfl, _, rfl⟩ := taken.queue_new queue queue'
      cases Option.some.inj ((Finmap.lookup_insert _).symm.trans queue')
      exact ⟨rfl, rfl⟩

/-- An event of another queue. -/
theorem Chain.Told.elsewhere {e : QueueEvent} (told : c.Told k) (key : Pubkey) (log : c'.log = e :: c.log)
    (quiet : e.change k = none) (others : ∀ key', key' ≠ key → c'.requests.lookup key' = c.requests.lookup key')
    (before : ∀ r, c.requests.lookup key = some r → r.queue ≠ k)
    (after : ∀ r, c'.requests.lookup key = some r → r.queue ≠ k)
    (queues : c'.queues.lookup k = c.queues.lookup k) : c'.Told k := by
  have same : pendingSet k c'.log = pendingSet k c.log := by
    rw [log, pendingSet_quiet quiet]
  constructor
  · rw [same]
    exact told.mirrors.elsewhere others before after
  · rw [same, queues]
    exact told.counts

theorem Chain.Told.opened {a : RequestWithdrawal} {requestId shares : Nat} {v : VaultState} {escrowed : Bank}
    {minAssetsOut : Nat} {finalizer : Pubkey} (told : c.Told k)
    (ran : RequestWithdrawal.Ran c a requestId shares q v escrowed) :
    (RequestWithdrawal.after c a shares q (RequestWithdrawal.record c a requestId shares minAssetsOut finalizer q)
      escrowed).Told k := by
  by_cases here : a.queue = k
  · subst here
    have fresh : (pendingSet a.queue c.log).lookup (a.request, q.sequence + 1) = none := by
      rw [told.mirrors, Chain.pendingEntry_absent ran.fresh]
    have entries : pendingSet a.queue (RequestWithdrawal.after c a shares q
        (RequestWithdrawal.record c a requestId shares minAssetsOut finalizer q) escrowed).log = _ :=
      pendingSet_change (if_pos rfl)
    constructor
    · rw [entries]
      refine told.mirrors.written rfl rfl fun r live => ?_
      cases ran.fresh.symm.trans live
    · intro q' queue'
      cases Option.some.inj ((Finmap.lookup_insert _).symm.trans queue')
      rw [entries]
      exact (told.counts q ran.queue).opened fresh _
  · refine told.elsewhere a.request rfl (if_neg here) (fun key' other => Finmap.lookup_insert_of_ne _ other)
      (fun r live => ?_) (fun r live => ?_) (Finmap.lookup_insert_of_ne _ (Ne.symm here))
    · cases ran.fresh.symm.trans live
    · cases Option.some.inj ((Finmap.lookup_insert _).symm.trans live)
      exact here

theorem Chain.Told.expedited {a : ExpediteRequest} {expectedSequence : Nat} {v : VaultState} (told : c.Told k)
    (ran : ExpediteRequest.Ran c a expectedSequence q v r) : (ExpediteRequest.after c a q r).Told k := by
  by_cases here : r.queue = k
  · subst here
    have found := told.mirrors.live ran.request rfl
    have entries : pendingSet r.queue (ExpediteRequest.after c a q r).log = _ := pendingSet_change (if_pos rfl)
    constructor
    · rw [entries, Change.amended_apply found]
      have requests : (ExpediteRequest.after c a q r).requests =
        c.requests.insert a.request { r with eligibleAt := c.clock } := rfl
      refine told.mirrors.written requests rfl fun r₀ live => ?_
      cases Option.some.inj (ran.request.symm.trans live)
      rfl
    · intro q' queue'
      rw [entries]
      exact (told.counts q' queue').amended found rfl
  · refine told.elsewhere a.request rfl (if_neg here) (fun key' other => Finmap.lookup_insert_of_ne _ other)
      (fun r₀ live => ?_) (fun r₀ live => ?_) rfl
    · cases Option.some.inj (ran.request.symm.trans live)
      exact here
    · cases Option.some.inj ((Finmap.lookup_insert _).symm.trans live)
      exact here

/-- A finalization and a cancellation both take the request out, and its weight out of the counters. -/
theorem Chain.Told.removed {e : QueueEvent} (told : c.Told k) (live : c.requests.lookup key = some r)
    (queue : c.queues.lookup r.queue = some q) (log : c'.log = e :: c.log)
    (change : e.change k = if r.queue = k then some (.closed (key, r.sequence)) else none)
    (requests : c'.requests = c.requests.erase key) (queues : c'.queues = c.queues.insert r.queue (q.closed r.shares)) :
    c'.Told k := by
  by_cases here : r.queue = k
  · subst here
    have found := told.mirrors.live live rfl
    have entries : pendingSet r.queue c'.log = Change.apply (pendingSet r.queue c.log) (.closed (key, r.sequence)) := by
      rw [log, pendingSet_change (change.trans (if_pos rfl))]
    constructor
    · rw [entries]
      exact told.mirrors.erased requests live
    · intro q' queue'
      rw [queues] at queue'
      cases Option.some.inj ((Finmap.lookup_insert _).symm.trans queue')
      rw [entries]
      exact (told.counts q queue).closed found
  · refine told.elsewhere key log (change.trans (if_neg here)) (fun key' other => ?_) (fun r₀ live₀ => ?_)
      (fun r₀ live₀ => ?_) ?_
    · rw [requests, Finmap.lookup_erase_ne other]
    · cases Option.some.inj (live.symm.trans live₀)
      exact here
    · rw [requests, Finmap.lookup_erase] at live₀
      cases live₀
    · rw [queues, Finmap.lookup_insert_of_ne _ (Ne.symm here)]

theorem Step.told (taken : Step c i c') (sound : c.RequestsSound) (told : c.Told k) : c'.Told k := by
  cases taken.log_move with
  | silent requests queues log => exact told.kept taken sound requests queues (by rw [log])
  | general requests queues log other _ =>
    refine told.kept taken sound requests queues ?_
    rw [log, pendingSet_quiet (QueueEvent.general_change other)]
  | opened _ ran => exact told.opened ran
  | expedited _ ran => exact told.expedited ran
  | cancelled _ ran =>
    refine told.removed ran.request (ran.requestQueue ▸ ran.queue) rfl rfl rfl ?_
    rw [ran.requestQueue]
    rfl
  | finalized _ ran =>
    refine told.removed ran.valid.request (ran.valid.requestQueue ▸ ran.valid.queue) rfl rfl rfl ?_
    rw [ran.valid.requestQueue]
    rfl

/-- A step that speaks finds the pending set it speaks of. -/
theorem Step.accurate (taken : Step c i c') (told : c.Told k) :
    c'.log = c.log ∨ ∃ e, c'.log = e :: c.log ∧ e.Accurate k (pendingSet k c.log) := by
  cases taken.log_move with
  | silent _ _ log => exact Or.inl log
  | @general _ e _ _ log other released =>
    refine Or.inr ⟨e, log, ?_⟩
    cases e with
    | withdrawalRequested | withdrawalExpedited | withdrawalFinalized | withdrawalCancelled => cases other
    | queueInitialized | queueConfigUpdated | escrowSwept => trivial
    | vaultReleased vault queue n shares =>
      rintro rfl
      obtain ⟨q, found, rfl, rfl⟩ := released _ _ _ _ rfl
      exact told.counts q found
  | opened _ ran =>
    refine Or.inr ⟨_, rfl, fun _ => ?_⟩
    rw [told.mirrors, Chain.pendingEntry_absent ran.fresh]
  | @expedited _ _ _ _ r _ ran =>
    exact Or.inr ⟨_, rfl, fun here => ⟨r.entry, told.mirrors.live ran.request here, rfl, rfl, rfl⟩⟩
  | cancelled _ ran => exact Or.inr ⟨_, rfl, fun here => ⟨_, told.mirrors.live ran.request here, rfl, rfl, rfl⟩⟩
  | finalized _ ran =>
    exact Or.inr ⟨_, rfl, fun here => ⟨_, told.mirrors.live ran.valid.request here, rfl, rfl, rfl, rfl⟩⟩

theorem Reachable.told (reach : Reachable c) (k : Pubkey) : c.Told k := by
  refine reach.preserves ?_ ?_ fun _ _ _ before told taken => taken.told (Reachable.requests_sound before) told
  · refine fun _ => ⟨fun x => rfl, fun q queue => ?_⟩
    cases queue
  · exact fun _ _ _ told => ⟨told.mirrors, told.counts⟩

end Step

end Upshift
