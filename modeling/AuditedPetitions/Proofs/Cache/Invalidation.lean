import AuditedPetitions.Proofs.Cache.Deadline
import AuditedPetitions.Proofs.Cache.Expiry
import AuditedPetitions.Proofs.Petition.CacheKeys
import Mathlib

/-! The listings are invalidated by a search for their keys and a removal of what it found, each under
a condition of its own. What the search found is gone from then on, expired or not, and nothing else
is touched; and without the whole of it, nothing is. An entry that is gone for readers is back only
when its key is set. -/

namespace AuditedPetitions.Cache

/-- Moment of a call of an expiring map, and the error that it meets. -/
structure Condition where
  now : Nat
  fault : Option Error

namespace Condition

def backend (c : Condition) : Backend ExpiringMap := ExpiringMap.backend c.now c.fault

/-- Backend that is searched under one condition and removed from under another. -/
def through (search removal : Condition) : Backend ExpiringMap :=
  { removal.backend with scan := search.backend.scan }

end Condition

def Request.Sets (key : String) : Request → Prop
  | .set k .. => k = key
  | .get _ | .scan _ | .delete _ => False

namespace ExpiringMap

/-- A map after requests, each under a condition of its own. -/
def runRequests (m : ExpiringMap) (requests : List (Condition × Request)) : ExpiringMap :=
  requests.foldl (fun m r => r.2.after r.1.backend m) m

variable {m : ExpiringMap} {key : String}

theorem get?_after (c : Condition) {q : Request} (h : ¬ q.Sets key) :
    (q.after c.backend m).get? key = m.get? key ∨ (q.after c.backend m).get? key = none := by
  obtain ⟨now, fault⟩ := c
  cases fault with
  | some e => cases q <;> exact .inl rfl
  | none =>
    cases q with
    | get k =>
      have hget : ((Request.get k).after (Condition.backend ⟨now, none⟩) m).get? key = _ :=
        get?_get m now k key
      rw [hget]
      split
      · cases m.get? key with
        | none => exact .inl rfl
        | some e => by_cases hlive : e.isLive now = true <;> simp [Option.filter_some, hlive]
      · exact .inl rfl
    | set k text ttl =>
      have hne : ¬ k = key := h
      simp only [Request.after, Condition.backend, backend]
      split
      · rw [get?_set, if_neg hne]
        exact .inl rfl
      · exact .inl rfl
    | scan start => exact .inl rfl
    | delete keys =>
      have hdelete : ((Request.delete keys).after (Condition.backend ⟨now, none⟩) m).get? key = _ :=
        get?_delete m keys key
      rw [hdelete]
      split
      · exact .inr rfl
      · exact .inl rfl

theorem not_live_after {now : Nat} (h : ¬ m.Live now key) (c : Condition) {q : Request}
    (hq : ¬ q.Sets key) : ¬ (q.after c.backend m).Live now key := by
  rintro ⟨e, he, hlive⟩
  rcases get?_after c hq (m := m) with hsame | hnone
  · exact h ⟨e, hsame ▸ he, hlive⟩
  · rw [hnone] at he
    cases he

theorem not_live_runRequests {now : Nat} (h : ¬ m.Live now key)
    {requests : List (Condition × Request)} (hr : ∀ r ∈ requests, ¬ r.2.Sets key) :
    ¬ (m.runRequests requests).Live now key := by
  induction requests generalizing m with
  | nil => exact h
  | cons r requests ih =>
    rw [List.forall_mem_cons] at hr
    exact ih (not_live_after h r.1 hr.1) hr.2

theorem lookup_of_not_live {α : Type} {c : Condition} (h : ¬ m.Live c.now key) (codec : Codec α)
    (metrics : Metrics) :
    ((Cache.mk m metrics).lookup c.backend codec key).1 = c.fault.elim .miss .failed := by
  obtain ⟨now, fault⟩ := c
  cases fault with
  | some e => rfl
  | none =>
    have hget : (m.get now key).1 = none := get_eq_none_iff.2 h
    simp only [lookup, Condition.backend, backend, hget, Lookup.ofAnswer, Option.elim_none]

theorem count_scan (m : ExpiringMap) (now : Nat) (start : String) :
    (m.scan now start).length = {key | m.Live now key ∧ start.toList <+: key.toList}.ncard := by
  have hset : ((m.scan now start).toFinset : Set String) =
      {key | m.Live now key ∧ start.toList <+: key.toList} := by
    ext key
    rw [List.coe_toFinset, Set.mem_ofPred_eq, mem_scan, Set.mem_ofPred_eq]
  rw [← hset, Set.ncard_coe_finset, List.toFinset_card_of_nodup (m.nodup_scan now start)]

theorem count_delete_scan (m : ExpiringMap) (now : Nat) (start : String) :
    (m.delete (m.scan now start)).1 =
      {key | m.Live now key ∧ start.toList <+: key.toList}.ncard := by
  have hthere : ∀ k ∈ m.scan now start, m.get? k ≠ none := by
    intro k hk
    obtain ⟨⟨e, he, -⟩, -⟩ := mem_scan.1 hk
    rw [he]
    exact Option.some_ne_none e
  rw [count_delete (m.nodup_scan now start) hthere, count_scan]

end ExpiringMap

/-- One cache has become another by the removal of what was live at a moment and began with a
text. -/
structure Cleared (start : String) (now : Nat) (c : Cache ExpiringMap) (n : Nat)
    (c' : Cache ExpiringMap) : Prop where
  gone : ∀ key, start.toList <+: key.toList → ¬ c'.state.Live now key
  kept : ∀ key, ¬ start.toList <+: key.toList → c'.state.get? key = c.state.get? key
  counted : n = {key | c.state.Live now key ∧ start.toList <+: key.toList}.ncard
  deletes : c'.metrics = { c.metrics with deletes := c.metrics.deletes + n }

section removal
variable {start : String} {c : Cache ExpiringMap} {search removal : Condition}

theorem removeAll_of_unsearched {e : Error} (h : search.fault = some e) :
    c.removeAll (search.through removal) start = (.error e, c) := by
  simp [removeAll, find, Condition.through, Condition.backend, ExpiringMap.backend, h]

theorem removeAll_of_searched (h : search.fault = none) :
    c.removeAll (search.through removal) start =
      if c.state.scan search.now start = [] then (.ok 0, c)
      else c.remove removal.backend (c.state.scan search.now start) := by
  have hfind : c.find (search.through removal) start = (.ok (c.state.scan search.now start), c) := by
    simp [find, Condition.through, Condition.backend, ExpiringMap.backend, h]
  rw [removeAll, hfind]
  cases c.state.scan search.now start with
  | nil => rfl
  | cons key keys => rfl

theorem cleared_of_none (h : c.state.scan search.now start = []) :
    Cleared start search.now c 0 c where
  gone := by
    intro key hkey hlive
    have hfound := ExpiringMap.mem_scan.2 ⟨hlive, hkey⟩
    rw [h] at hfound
    cases hfound
  kept := fun key _ => rfl
  counted := by rw [← ExpiringMap.count_scan, h, List.length_nil]
  deletes := rfl

theorem cleared_remove (h : removal.fault = none) :
    ∃ n c', c.remove removal.backend (c.state.scan search.now start) = (.ok n, c') ∧
      Cleared start search.now c n c' := by
  refine ⟨_, _, by rw [remove, Condition.backend, h]; rfl, ?_, ?_, ?_, rfl⟩
  · rintro key hkey ⟨e, he, hlive⟩
    rw [ExpiringMap.get?_delete] at he
    split at he
    · cases he
    · rename_i hleft
      exact hleft (ExpiringMap.mem_scan.2 ⟨⟨e, he, hlive⟩, hkey⟩)
  · intro key hkey
    have hleft : key ∉ c.state.scan search.now start :=
      fun hfound => hkey (ExpiringMap.mem_scan.1 hfound).2
    rw [ExpiringMap.get?_delete, if_neg hleft]
  · exact ExpiringMap.count_delete_scan c.state search.now start

end removal

/-- What the invalidation of the listings has made of a cache, when its search was at a moment. -/
structure Invalidated (now : Nat) (c : Cache ExpiringMap) (n : Nat) (c' : Cache ExpiringMap) : Prop
    extends Cleared CacheKey.listing now c n c' where
  petitions : ∀ id,
    c'.state.get? (CacheKey.petition id) = c.state.get? (CacheKey.petition id)
  /-- Readers miss, whatever was done since, until the key is set. -/
  misses : ∀ key, (key = CacheKey.listing ∨ ∃ number limit, key = CacheKey.page number limit) →
    ∀ requests : List (Condition × Request), (∀ r ∈ requests, ¬ r.2.Sets key) →
    ∀ later : Condition, now ≤ later.now → ∀ (α : Type) (codec : Codec α) (metrics : Metrics),
      ((Cache.mk (c'.state.runRequests requests) metrics).lookup later.backend codec key).1 =
        later.fault.elim .miss .failed

theorem Cleared.invalidated {now n : Nat} {c c' : Cache ExpiringMap}
    (h : Cleared CacheKey.listing now c n c') : Invalidated now c n c' where
  toCleared := h
  petitions := fun id => h.kept _ (CacheKey.not_listing_isPrefix_petition id)
  misses := by
    intro key hkey requests hrequests later hlater α codec metrics
    have hlisting : CacheKey.listing.toList <+: key.toList := by
      rcases hkey with rfl | ⟨number, limit, rfl⟩
      · exact List.prefix_rfl
      · exact CacheKey.listing_isPrefix_page number limit
    have hgone := ExpiringMap.not_live_runRequests (h.gone key hlisting) hrequests
    exact ExpiringMap.lookup_of_not_live (fun hlive => hgone (hlive.earlier hlater)) codec metrics

/-- Invalidating the listings fails with the first error that it meets, and then the cache is as it
was; without one it succeeds. After a success no key of a listing is live, all other entries are what
they were, and the keys that were found live have been counted. -/
theorem listings_invalidated (c : Cache ExpiringMap) (search removal : Condition) :
    let result := c.removeAll (search.through removal) CacheKey.listing
    (∀ e, search.fault = some e → result = (.error e, c)) ∧
    (∀ e, search.fault = none → removal.fault = some e →
      (∃ key, c.state.Live search.now key ∧ CacheKey.listing.toList <+: key.toList) →
        result = (.error e, c)) ∧
    (search.fault = none → removal.fault = none → ∃ n c', result = (.ok n, c')) ∧
    (∀ e c', result = (.error e, c') → c' = c) ∧
    ∀ n c', result = (.ok n, c') → Invalidated search.now c n c' := by
  intro result
  cases hsearch : search.fault with
  | some e =>
    have hresult : result = (.error e, c) := removeAll_of_unsearched hsearch
    rw [hresult]
    simp
  | none =>
    have hresult : result = _ := removeAll_of_searched hsearch
    by_cases hnone : c.state.scan search.now CacheKey.listing = []
    · have hcleared := cleared_of_none hnone
      rw [if_pos hnone] at hresult
      rw [hresult]
      refine ⟨by simp, ?_, by simp, by simp, ?_⟩
      · rintro e - - ⟨key, hlive, hkey⟩
        exact absurd hkey (fun hkey => hcleared.gone key hkey hlive)
      · rintro n c' h
        cases h
        exact hcleared.invalidated
    · rw [if_neg hnone] at hresult
      cases hremoval : removal.fault with
      | some e =>
        have hfailed : result = (.error e, c) := by
          rw [hresult, remove, Condition.backend, hremoval]
          rfl
        rw [hfailed]
        simp
      | none =>
        have hremove : ∃ n c', c.remove removal.backend (c.state.scan search.now CacheKey.listing) =
            (.ok n, c') ∧ Cleared CacheKey.listing search.now c n c' := cleared_remove hremoval
        obtain ⟨n, c', hremove, hcleared⟩ := hremove
        rw [hresult, hremove]
        refine ⟨by simp, by simp, by simp, by simp, ?_⟩
        rintro n c' h
        cases h
        exact hcleared.invalidated

end AuditedPetitions.Cache
