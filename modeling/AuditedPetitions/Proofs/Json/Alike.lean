import AuditedPetitions.Proofs.Json.Pretty
import Mathlib

/-! Values that are equal up to the order in which members were put in. Two objects are alike when
they have the same names with alike values behind them; of a name that is given twice the last
member counts, as in a map that is filled. Normal forms are the representatives: alike values are
those with one normal form, because a list of members whose names ascend is determined by what stands
under each name. -/

namespace AuditedPetitions.Json

/-- Equal up to the order of members, at every depth. -/
inductive Alike : Json → Json → Prop
  | null : Alike .null .null
  | bool (b : Bool) : Alike (.bool b) (.bool b)
  | integer (n : WideInt) : Alike (.integer n) (.integer n)
  | float (x : Float) : Alike (.float x) (.float x)
  | string (s : String) : Alike (.string s) (.string s)
  | array {items others : List Json} (length : items.length = others.length)
      (values : ∀ (i : Nat) (v w : Json), items[i]? = some v → others[i]? = some w → Alike v w) :
      Alike (.array items) (.array others)
  | object {members others : List (String × Json)}
      (names : ∀ name, name ∈ members.map Prod.fst ↔ name ∈ others.map Prod.fst)
      (values : ∀ (name : String) (v w : Json), (object members).member? name = some v →
        (object others).member? name = some w → Alike v w) :
      Alike (.object members) (.object others)

theorem member?_cons (name : String) (m : String × Json) (ms : List (String × Json)) :
    (object (m :: ms)).member? name =
      ((object ms).member? name).or (if m.1 = name then some m.2 else none) := by
  simp only [member?, List.reverse_cons, List.find?_append, List.find?_singleton]
  cases ms.reverse.find? (·.1 == name) with
  | some found => rfl
  | none => by_cases h : m.1 = name <;> simp [h]

theorem member?_eq_none {name : String} {ms : List (String × Json)} :
    (object ms).member? name = none ↔ name ∉ ms.map Prod.fst := by
  induction ms with
  | nil => simp [member?]
  | cons m ms ih =>
    rw [member?_cons, Option.or_eq_none_iff, ih, List.map_cons, List.mem_cons, not_or, and_comm]
    by_cases h : m.1 = name
    · simp [h]
    · simp [h, Ne.symm h]

theorem member?_insertEarlier (k name : String) (value : Json) (ms : List (String × Json)) :
    (object (insertEarlier name value ms)).member? k =
      ((object ms).member? k).or (if name = k then some value else none) := by
  induction ms with
  | nil => exact member?_cons k (name, value) []
  | cons m ms ih =>
    obtain ⟨n, v⟩ := m
    unfold insertEarlier
    split
    · exact member?_cons k (name, value) _
    · split
      · rename_i h
        subst h
        rw [member?_cons]
        by_cases hk : name = k <;> simp [hk]
      · rename_i hne
        rw [member?_cons, member?_cons, ih, Option.or_assoc, Option.or_assoc]
        by_cases hk : name = k
        · rw [if_neg fun h : n = k => hne (hk.trans h.symm), if_pos hk, Option.none_or,
            Option.or_none]
        · rw [if_neg hk, Option.none_or, Option.or_none]

theorem member?_normalizeMembers (k : String) (ms : List (String × Json)) :
    (object (normalizeMembers ms)).member? k = ((object ms).member? k).map normalize := by
  induction ms with
  | nil => rfl
  | cons m ms ih =>
    obtain ⟨name, value⟩ := m
    rw [normalizeMembers, member?_insertEarlier, ih, member?_cons]
    cases (object ms).member? k with
    | some v => rfl
    | none => by_cases h : name = k <;> simp [h]

theorem normalizeItems_eq_map (items : List Json) : normalizeItems items = items.map normalize := by
  induction items with
  | nil => rfl
  | cons item items ih => rw [normalizeItems, ih, List.map_cons]

theorem mem_iff_member? {ms : List (String × Json)} (h : (ms.map Prod.fst).Nodup) (k : String)
    (v : Json) : (k, v) ∈ ms ↔ (object ms).member? k = some v := by
  induction ms with
  | nil => simp [member?]
  | cons m ms ih =>
    obtain ⟨name, value⟩ := m
    rw [List.map_cons, List.nodup_cons] at h
    rw [List.mem_cons, ih h.2, member?_cons]
    by_cases hk : name = k
    · have hnone : (object ms).member? k = none := member?_eq_none.2 (hk ▸ h.1)
      simp [hk, hnone, eq_comm]
    · simp [hk, Ne.symm hk]

theorem members_ext {ms ns : List (String × Json)} (hms : (ms.map Prod.fst).Pairwise (· < ·))
    (hns : (ns.map Prod.fst).Pairwise (· < ·))
    (h : ∀ k, (object ms).member? k = (object ns).member? k) : ms = ns := by
  have hnodup {l : List (String × Json)} (hl : (l.map Prod.fst).Pairwise (· < ·)) :
      (l.map Prod.fst).Nodup := hl.imp ne_of_lt
  have hperm : ms.Perm ns := by
    refine (List.perm_ext_iff_of_nodup (hnodup hms).of_map (hnodup hns).of_map).2 fun m => ?_
    rw [mem_iff_member? (hnodup hms), mem_iff_member? (hnodup hns), h]
  have hasymm (a b : String × Json) (_ : a ∈ ms) (_ : b ∈ ns) (hab : a.1 < b.1)
      (hba : b.1 < a.1) : a = b := absurd (hab.trans hba) (lt_irrefl _)
  exact hperm.eq_of_pairwise hasymm (List.pairwise_map.1 hms) (List.pairwise_map.1 hns)

theorem normalize_eq_of_alike {p q : Json} (h : p.Alike q) : p.normalize = q.normalize := by
  induction h with
  | null | bool | integer | float | string => rfl
  | @array items others length values ih =>
    rw [normalize, normalize, normalizeItems_eq_map, normalizeItems_eq_map]
    refine congrArg array (List.ext_getElem (by simpa using length) fun i hi hi' => ?_)
    simp only [List.getElem_map]
    exact ih i _ _ (List.getElem?_eq_getElem _) (List.getElem?_eq_getElem _)
  | @object members others names values ih =>
    rw [normalize, normalize]
    refine congrArg object (members_ext (normalizeMembers_ordered _).1
      (normalizeMembers_ordered _).1 fun k => ?_)
    rw [member?_normalizeMembers, member?_normalizeMembers]
    cases hv : (object members).member? k with
    | none =>
      have hw : (object others).member? k = none := by
        rw [member?_eq_none] at hv ⊢
        rwa [← names]
      rw [hw]
    | some v =>
      cases hw : (object others).member? k with
      | none =>
        rw [member?_eq_none, ← names, ← member?_eq_none, hv] at hw
        cases hw
      | some w => exact congrArg some (ih k v w hv hw)

theorem mem_of_member? {k : String} {v : Json} {ms : List (String × Json)}
    (h : (object ms).member? k = some v) : (k, v) ∈ ms := by
  obtain ⟨m, hm, rfl⟩ := Option.map_eq_some_iff.1 h
  have hname : m.1 = k := by simpa using List.find?_some hm
  exact hname ▸ List.mem_reverse.1 (List.mem_of_find?_eq_some hm)

mutual

theorem alike_of_normalize : (p q : Json) → p.normalize = q.normalize → p.Alike q
  | .array items, q, h => by
    cases q with
    | array others =>
      rw [normalize, normalize, normalizeItems_eq_map, normalizeItems_eq_map] at h
      have hitems := Json.array.inj h
      refine .array (by simpa using congrArg List.length hitems) fun i v w hv hw => ?_
      refine alikeItems items v (List.mem_of_getElem? hv) w ?_
      have hi := congrArg (·[i]?) hitems
      simpa [hv, hw] using hi
    | _ => cases h
  | .object members, q, h => by
    cases q with
    | object others =>
      rw [normalize, normalize] at h
      have hmembers := Json.object.inj h
      have hmember (k : String) : ((object members).member? k).map normalize =
          ((object others).member? k).map normalize := by
        rw [← member?_normalizeMembers, hmembers, member?_normalizeMembers]
      refine .object (fun name => ?_) fun name v w hv hw => ?_
      · have hnone := hmember name
        rw [← not_iff_not, ← member?_eq_none, ← member?_eq_none, ← Option.map_eq_none_iff, hnone,
          Option.map_eq_none_iff]
      · refine alikeMembers members (name, v) (mem_of_member? hv) w ?_
        have hvalue := hmember name
        rw [hv, hw] at hvalue
        exact Option.some.inj hvalue
    | _ => cases h
  | .null, q, h => by
    cases q with
    | null => exact .null
    | _ => cases h
  | .bool b, q, h => by
    cases q with
    | bool b' =>
      cases h
      exact .bool b
    | _ => cases h
  | .integer n, q, h => by
    cases q with
    | integer n' =>
      cases h
      exact .integer n
    | _ => cases h
  | .float x, q, h => by
    cases q with
    | float x' =>
      cases h
      exact .float x
    | _ => cases h
  | .string s, q, h => by
    cases q with
    | string s' =>
      cases h
      exact .string s
    | _ => cases h

theorem alikeItems : (items : List Json) → ∀ v ∈ items, ∀ w : Json,
    v.normalize = w.normalize → v.Alike w
  | item :: items, v, hv, w, h => by
    rcases List.mem_cons.1 hv with hitem | hv
    · rw [hitem] at h ⊢
      exact alike_of_normalize item w h
    · exact alikeItems items v hv w h

theorem alikeMembers : (members : List (String × Json)) → ∀ m ∈ members, ∀ w : Json,
    m.2.normalize = w.normalize → m.2.Alike w
  | (name, value) :: members, m, hm, w, h => by
    rcases List.mem_cons.1 hm with hmember | hm
    · rw [hmember] at h ⊢
      exact alike_of_normalize value w h
    · exact alikeMembers members m hm w h

end

theorem alike_iff {p q : Json} : p.Alike q ↔ p.normalize = q.normalize :=
  ⟨normalize_eq_of_alike, alike_of_normalize p q⟩

theorem alike_of_perm {ms ns : List (String × Json)} (h : ms.Perm ns)
    (hdistinct : (ms.map Prod.fst).Nodup) : (object ms).Alike (object ns) := by
  have hdistinct' : (ns.map Prod.fst).Nodup := (h.map Prod.fst).nodup_iff.1 hdistinct
  refine .object (fun name => (h.map Prod.fst).mem_iff) fun name v w hv hw => ?_
  have hmem : (name, v) ∈ ns := h.mem_iff.1 ((mem_iff_member? hdistinct name v).2 hv)
  have hsame := (mem_iff_member? hdistinct' name v).1 hmem
  obtain rfl := Option.some.inj (hsame.symm.trans hw)
  exact alike_iff.2 rfl

theorem floatFreeMembers_insertEarlier {name : String} {value : Json}
    {ms : List (String × Json)} (hv : value.FloatFree) (h : FloatFreeMembers ms) :
    FloatFreeMembers (insertEarlier name value ms) := by
  induction ms with
  | nil => exact ⟨hv, trivial⟩
  | cons m ms ih =>
    obtain ⟨n, v⟩ := m
    unfold insertEarlier
    split
    · exact ⟨hv, h⟩
    · split
      · exact h
      · exact ⟨h.1, ih h.2⟩

mutual

theorem floatFree_normalize : (j : Json) → j.FloatFree → j.normalize.FloatFree
  | .array items, h => floatFree_normalizeItems items h
  | .object members, h => floatFree_normalizeMembers members h
  | .null, _ | .bool _, _ | .integer _, _ | .string _, _ => trivial

theorem floatFree_normalizeItems : (items : List Json) → FloatFreeItems items →
    FloatFreeItems (normalizeItems items)
  | [], _ => trivial
  | item :: items, h => ⟨floatFree_normalize item h.1, floatFree_normalizeItems items h.2⟩

theorem floatFree_normalizeMembers : (members : List (String × Json)) →
    FloatFreeMembers members → FloatFreeMembers (normalizeMembers members)
  | [], _ => trivial
  | (_, value) :: members, h => floatFreeMembers_insertEarlier (floatFree_normalize value h.1)
    (floatFree_normalizeMembers members h.2)

end

end AuditedPetitions.Json
