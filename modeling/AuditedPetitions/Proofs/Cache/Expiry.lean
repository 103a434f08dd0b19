import AuditedPetitions.Cache.Memory
import Mathlib

/-! What the operations of an expiring map do to its entries. Each has one law that says which entry
every key has afterwards: a reader may remove the entry under its own key, once that has expired, a
search removes none, and a deletion those of its keys. -/

namespace AuditedPetitions.Cache.ExpiringMap

/-- A reader of the key finds something at a moment. -/
def Live (m : ExpiringMap) (now : Nat) (key : String) : Prop :=
  ∃ e, m.get? key = some e ∧ now < e.expires

theorem Live.earlier {m : ExpiringMap} {now later : Nat} {key : String} (h : m.Live later key)
    (hle : now ≤ later) : m.Live now key := by
  obtain ⟨e, he, hlive⟩ := h
  exact ⟨e, he, hle.trans_lt hlive⟩

theorem get?_erase (m : ExpiringMap) (k key : String) :
    (m.erase k).get? key = if key = k then none else m.get? key := by
  rw [Table.erase, Table.get?_keep]
  cases h : m.get? key with
  | none => simp
  | some e =>
    have hkey := Table.key_of_get? h
    by_cases hk : key = k <;> simp [hkey, hk]

theorem get?_set (m : ExpiringMap) (now : Nat) (k text : String) (ttl : Nat) (key : String) :
    (m.set now k text ttl).get? key =
      if k = key then some ⟨k, text, now + ttl⟩ else m.get? key :=
  Table.get?_put m _ key

theorem get_eq (m : ExpiringMap) (now : Nat) (key : String) :
    (m.get now key).1 = ((m.get? key).filter (·.isLive now)).map Entry.text := by
  rw [get]
  cases m.get? key with
  | none => rfl
  | some e => by_cases h : e.isLive now = true <;> simp [h]

theorem get_eq_none_iff {m : ExpiringMap} {now : Nat} {key : String} :
    (m.get now key).1 = none ↔ ¬ m.Live now key := by
  rw [get_eq, Option.map_eq_none_iff, Option.filter_eq_none_iff, Live]
  simp [Entry.isLive]

theorem get?_get (m : ExpiringMap) (now : Nat) (k key : String) :
    (m.get now k).2.get? key =
      if key = k then (m.get? key).filter (·.isLive now) else m.get? key := by
  rw [get]
  cases h : m.get? k with
  | none =>
    by_cases hk : key = k
    · simp [hk, h]
    · simp [hk]
  | some e =>
    by_cases hlive : e.isLive now = true
    · by_cases hk : key = k
      · simp [hk, h, hlive, Option.filter_some]
      · simp [hk, hlive]
    · simp only [hlive, if_false, get?_erase, Bool.false_eq_true]
      by_cases hk : key = k
      · simp [hk, h, hlive, Option.filter_some]
      · simp [hk]

theorem get?_delete (m : ExpiringMap) (keys : List String) (key : String) :
    (m.delete keys).2.get? key = if key ∈ keys then none else m.get? key := by
  induction keys generalizing m with
  | nil => simp [delete]
  | cons k keys ih =>
    rw [delete, ih, get?_erase]
    by_cases hk : key = k <;> simp [hk]

theorem count_delete {m : ExpiringMap} {keys : List String} (hnodup : keys.Nodup)
    (hkeys : ∀ k ∈ keys, m.get? k ≠ none) : (m.delete keys).1 = keys.length := by
  induction keys generalizing m with
  | nil => rfl
  | cons k keys ih =>
    rw [List.nodup_cons] at hnodup
    rw [List.forall_mem_cons] at hkeys
    have hthere : m.contains k = true := Option.isSome_iff_ne_none.2 hkeys.1
    have hrest : ∀ j ∈ keys, (m.erase k).get? j ≠ none := by
      intro j hj
      have hne : j ≠ k := fun heq => hnodup.1 (heq ▸ hj)
      rw [get?_erase, if_neg hne]
      exact hkeys.2 j hj
    simp only [delete, hthere, if_true, ih hnodup.2 hrest, List.length_cons]

theorem mem_liveKeys {m : ExpiringMap} {now : Nat} {key : String} :
    key ∈ m.liveKeys now ↔ m.Live now key := by
  rw [liveKeys, List.mem_mergeSort, List.mem_map]
  constructor
  · rintro ⟨e, he, rfl⟩
    obtain ⟨he, hlive⟩ := List.mem_filter.1 he
    exact ⟨e, Table.get?_of_mem he, of_decide_eq_true hlive⟩
  · rintro ⟨e, he, hlive⟩
    exact ⟨e, List.mem_filter.2 ⟨Table.mem_of_get? he, decide_eq_true hlive⟩, Table.key_of_get? he⟩

theorem nodup_liveKeys (m : ExpiringMap) (now : Nat) : (m.liveKeys now).Nodup :=
  (List.mergeSort_perm _ _).nodup_iff.2 (m.keep (·.isLive now)).keys_nodup

theorem mem_scan {m : ExpiringMap} {now : Nat} {start key : String} :
    key ∈ m.scan now start ↔ m.Live now key ∧ start.toList <+: key.toList := by
  rw [scan, List.mem_filter, mem_liveKeys, List.isPrefixOf_iff_prefix]

theorem nodup_scan (m : ExpiringMap) (now : Nat) (start : String) : (m.scan now start).Nodup :=
  (m.nodup_liveKeys now).filter _

end AuditedPetitions.Cache.ExpiringMap
