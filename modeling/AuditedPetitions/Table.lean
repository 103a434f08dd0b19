/-! Tables: rows, each under a key of its own that can be read off it. A row that is put takes the
place of the row with its key, or goes behind the others; what is seen of a table is which row each
key has, and the order of the rows is left open by every reader that sorts. -/

namespace AuditedPetitions

structure Table {κ α : Type} (key : α → κ) where
  rows : List α
  keys_nodup : (rows.map key).Nodup

namespace Table

variable {κ α : Type} {key : α → κ} [DecidableEq κ]

def empty : Table key := ⟨[], List.nodup_nil⟩

instance : Inhabited (Table key) := ⟨empty⟩

def get? (t : Table key) (k : κ) : Option α := t.rows.find? (key · = k)

def contains (t : Table key) (k : κ) : Bool := (t.get? k).isSome

def putRow (key : α → κ) (a : α) : List α → List α
  | [] => [a]
  | r :: rs => if key r = key a then a :: rs else r :: putRow key a rs

theorem mem_keys_putRow {a : α} {rows : List α} {k : κ} :
    k ∈ (putRow key a rows).map key ↔ k = key a ∨ k ∈ rows.map key := by
  induction rows with
  | nil => simp [putRow]
  | cons r rs ih =>
    by_cases h : key r = key a
    · simp [putRow, h]
    · simp only [putRow, h, if_false, List.map_cons, List.mem_cons, ih]
      exact or_left_comm

theorem nodup_putRow {a : α} {rows : List α} (h : (rows.map key).Nodup) :
    ((putRow key a rows).map key).Nodup := by
  induction rows with
  | nil => simp [putRow]
  | cons r rs ih =>
    simp only [List.map_cons, List.nodup_cons] at h
    by_cases hk : key r = key a
    · simp only [putRow, hk, if_true, List.map_cons, List.nodup_cons]
      exact ⟨hk ▸ h.1, h.2⟩
    · rw [putRow, if_neg hk, List.map_cons, List.nodup_cons, mem_keys_putRow]
      exact ⟨fun hm => hm.elim hk h.1, ih h.2⟩

def put (t : Table key) (a : α) : Table key := ⟨putRow key a t.rows, nodup_putRow t.keys_nodup⟩

def putAll (t : Table key) (as : List α) : Table key := as.foldl put t

/-- Rows that pass a test. -/
def keep (t : Table key) (p : α → Bool) : Table key :=
  ⟨t.rows.filter p, List.Sublist.nodup (List.filter_sublist.map key) t.keys_nodup⟩

def erase (t : Table key) (k : κ) : Table key := t.keep (key · ≠ k)

theorem find?_putRow (a : α) (rows : List α) (k : κ) :
    (putRow key a rows).find? (key · = k) =
      if key a = k then some a else rows.find? (key · = k) := by
  induction rows with
  | nil => by_cases h : key a = k <;> simp [putRow, h]
  | cons r rs ih =>
    by_cases hr : key r = key a
    · by_cases h : key a = k <;> simp [putRow, hr, h]
    · by_cases h : key r = k
      · subst h
        simp [putRow, hr, Ne.symm hr]
      · simp [putRow, hr, h, ih]

theorem get?_put (t : Table key) (a : α) (k : κ) :
    (t.put a).get? k = if key a = k then some a else t.get? k := find?_putRow a t.rows k

theorem key_of_get? {t : Table key} {k : κ} {a : α} (h : t.get? k = some a) : key a = k := by
  simpa using List.find?_some h

theorem mem_of_get? {t : Table key} {k : κ} {a : α} (h : t.get? k = some a) : a ∈ t.rows :=
  List.mem_of_find?_eq_some h

theorem get?_of_mem {t : Table key} {a : α} (h : a ∈ t.rows) : t.get? (key a) = some a := by
  obtain ⟨rows, hn⟩ := t
  simp only [get?] at *
  induction rows with
  | nil => cases h
  | cons r rs ih =>
    simp only [List.map_cons, List.nodup_cons] at hn
    rcases List.mem_cons.1 h with rfl | hm
    · simp
    · have hne : key r ≠ key a := fun he => hn.1 (he ▸ List.mem_map_of_mem hm)
      simpa [hne] using ih hn.2 hm

theorem mem_rows_iff {t : Table key} {a : α} : a ∈ t.rows ↔ t.get? (key a) = some a :=
  ⟨get?_of_mem, mem_of_get?⟩

theorem get?_keep (t : Table key) (p : α → Bool) (k : κ) :
    (t.keep p).get? k = (t.get? k).filter p := by
  refine Option.ext fun a => ?_
  constructor
  · intro h
    have hk := key_of_get? h
    have hm := List.mem_filter.1 (mem_of_get? h)
    subst hk
    simp [get?_of_mem hm.1, hm.2]
  · intro h
    obtain ⟨h, hp⟩ := Option.filter_eq_some_iff.1 h
    have hk := key_of_get? h
    subst hk
    exact get?_of_mem (List.mem_filter.2 ⟨mem_of_get? h, hp⟩)

theorem get?_eq_none_iff {t : Table key} {k : κ} : t.get? k = none ↔ k ∉ t.rows.map key := by
  simp [get?, List.find?_eq_none]

theorem contains_iff {t : Table key} {k : κ} : t.contains k = true ↔ k ∈ t.rows.map key := by
  rw [contains, Option.isSome_iff_ne_none, ne_eq, get?_eq_none_iff, Decidable.not_not]

theorem mem_rows_put {t : Table key} {a b : α} :
    b ∈ (t.put a).rows ↔ b = a ∨ key b ≠ key a ∧ b ∈ t.rows := by
  rw [mem_rows_iff, mem_rows_iff, get?_put]
  by_cases h : key a = key b
  · simp [h, eq_comm]
  · simp only [h, if_false, ne_eq, Ne.symm h, not_false_iff, true_and]
    constructor
    · exact .inr
    · rintro (rfl | hb)
      · exact absurd rfl h
      · exact hb

theorem putRow_of_new {a : α} {rows : List α} (h : key a ∉ rows.map key) :
    putRow key a rows = rows ++ [a] := by
  induction rows with
  | nil => rfl
  | cons r rs ih =>
    simp only [List.map_cons, List.mem_cons, not_or] at h
    rw [putRow, if_neg (Ne.symm h.1), ih h.2, List.cons_append]

/-- A row with a new key goes behind the others. -/
theorem rows_put_of_new {t : Table key} {a : α} (h : t.get? (key a) = none) :
    (t.put a).rows = t.rows ++ [a] := putRow_of_new (get?_eq_none_iff.1 h)

theorem keys_putRow_of_old {a : α} {rows : List α} (h : key a ∈ rows.map key) :
    (putRow key a rows).map key = rows.map key := by
  induction rows with
  | nil => simp at h
  | cons r rs ih =>
    by_cases hk : key r = key a
    · simp [putRow, hk]
    · have hm : key a ∈ rs.map key := by simpa [Ne.symm hk] using h
      rw [putRow, if_neg hk, List.map_cons, List.map_cons, ih hm]

/-- A row in the place of another leaves the keys as they are. -/
theorem keys_put_of_old {t : Table key} {a b : α} (h : t.get? (key a) = some b) :
    (t.put a).rows.map key = t.rows.map key :=
  keys_putRow_of_old (contains_iff.1 (by rw [contains, h]; rfl))

theorem putRow_of_old {a : α} {rows : List α} (hnodup : (rows.map key).Nodup)
    (h : key a ∈ rows.map key) :
    putRow key a rows = rows.map fun r => if key r = key a then a else r := by
  induction rows with
  | nil => cases h
  | cons r rs ih =>
    rw [List.map_cons, List.nodup_cons] at hnodup
    by_cases hk : key r = key a
    · have hrest : (rs.map fun r => if key r = key a then a else r) = rs := by
        refine (List.map_congr_left fun q hq => if_neg ?_).trans (List.map_id' rs)
        exact fun hqa => hnodup.1 (hk.trans hqa.symm ▸ List.mem_map_of_mem hq)
      rw [putRow, if_pos hk, List.map_cons, if_pos hk, hrest]
    · have hm : key a ∈ rs.map key := by
        rw [List.map_cons, List.mem_cons] at h
        exact h.resolve_left (Ne.symm hk)
      rw [putRow, if_neg hk, List.map_cons, if_neg hk, ih hnodup.2 hm]

/-- A row takes the place of the one with its key. -/
theorem rows_put_of_old {t : Table key} {a b : α} (h : t.get? (key a) = some b) :
    (t.put a).rows = t.rows.map fun r => if key r = key a then a else r :=
  putRow_of_old t.keys_nodup (contains_iff.1 (by rw [contains, h]; rfl))

/-- A key stands for at most one row. -/
theorem any_key (t : Table key) (k : κ) (f : α → Bool) :
    (t.rows.any fun r => key r = k && f r) = (t.get? k).any f := by
  cases hk : t.get? k with
  | none =>
    refine List.any_eq_false.2 fun r hr => ?_
    have hne : key r ≠ k := fun heq => get?_eq_none_iff.1 hk (heq ▸ List.mem_map_of_mem hr)
    simp [hne]
  | some a =>
    have hkey := key_of_get? hk
    rw [Option.any_some]
    cases hf : f a with
    | true =>
      refine List.any_eq_true.2 ⟨a, mem_of_get? hk, ?_⟩
      simp [hkey, hf]
    | false =>
      refine List.any_eq_false.2 fun r hr => ?_
      rw [Bool.and_eq_true, decide_eq_true_eq]
      rintro ⟨hr', hfr⟩
      have hra := get?_of_mem hr
      rw [hr', hk] at hra
      rw [← Option.some_inj.1 hra, hf] at hfr
      cases hfr

/-- A key stands at most once. -/
theorem countP_key (t : Table key) (k : κ) :
    t.rows.countP (key · = k) = if t.contains k then 1 else 0 := by
  have h := t.keys_nodup.count (a := k)
  simp only [List.count, List.countP_map, Function.comp_def] at h
  change t.rows.countP (key · == k) = _
  rw [h]
  by_cases hk : k ∈ t.rows.map key
  · simp only [hk, if_true, contains_iff.2 hk]
  · rw [if_neg hk, if_neg (fun hc => hk (contains_iff.1 hc))]

end Table

end AuditedPetitions
