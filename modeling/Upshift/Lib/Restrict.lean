import Upshift.Lib.KeyedStore

namespace KeyedStore

variable {κ α : Type} {p : κ → Bool}

/-- The entries whose keys satisfy a predicate. -/
def restrict (p : κ → Bool) (s : Store κ α) : Store κ α where
  entries := s.entries.filter fun entry => p entry.1
  nodupKeys := by
    rw [← Multiset.nodup_keys]
    exact Multiset.nodup_of_le (Multiset.map_le_map (Multiset.filter_le _ _)) (Multiset.nodup_keys.mpr s.nodupKeys)

variable [DecidableEq κ] {s s' : Store κ α} {k : κ} {a : α}

theorem lookup_restrict_eq_some : (restrict p s).lookup k = some a ↔ p k = true ∧ s.lookup k = some a := by
  simp only [Finmap.lookup_eq_some_iff, restrict, Multiset.mem_filter, and_comm]

theorem lookup_restrict (owned : p k = true) : (restrict p s).lookup k = s.lookup k := by
  refine Option.ext fun a => ?_
  rw [lookup_restrict_eq_some, owned]
  exact and_iff_right rfl

theorem lookup_restrict_of_not (other : p k = false) : (restrict p s).lookup k = none := by
  by_contra present
  obtain ⟨a, found⟩ := Option.ne_none_iff_exists'.mp present
  cases other.symm.trans (lookup_restrict_eq_some.mp found).1

/-- Two stores that agree on the keys of a predicate have the same restriction. -/
theorem restrict_congr (agree : ∀ k, p k = true → s.lookup k = s'.lookup k) : restrict p s = restrict p s' := by
  refine Finmap.ext_lookup fun k => ?_
  cases here : p k with
  | true => rw [lookup_restrict here, lookup_restrict here, agree k here]
  | false => rw [lookup_restrict_of_not here, lookup_restrict_of_not here]

theorem restrict_insert (owned : p k = true) (a : α) : restrict p (s.insert k a) = (restrict p s).insert k a := by
  refine Finmap.ext_lookup fun k' => ?_
  rw [lookup_insert_ite]
  cases here : p k' with
  | true => rw [lookup_restrict here, lookup_restrict here, lookup_insert_ite]
  | false =>
    have different : k' ≠ k := by
      rintro rfl
      cases owned.symm.trans here
    rw [lookup_restrict_of_not here, lookup_restrict_of_not here, if_neg different]

theorem restrict_erase (k : κ) : restrict p (s.erase k) = (restrict p s).erase k := by
  refine Finmap.ext_lookup fun k' => ?_
  rw [lookup_erase_ite]
  cases here : p k' with
  | true => rw [lookup_restrict here, lookup_restrict here, lookup_erase_ite]
  | false => rw [lookup_restrict_of_not here, lookup_restrict_of_not here, ite_self]

end KeyedStore
