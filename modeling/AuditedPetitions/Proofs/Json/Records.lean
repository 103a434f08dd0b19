import AuditedPetitions.Cache.Basic
import AuditedPetitions.Proofs.Instant.RoundTrip
import AuditedPetitions.Proofs.Json.RoundTrip
import AuditedPetitions.Proofs.Uuid.RoundTrip
import Mathlib

/-! Records read back from their documents: a record with one member for each declared field gives
its values in declared order, and what a codec reads for a value it wrote it reads from the text. -/

namespace AuditedPetitions

namespace Json

theorem documentMembers_eq (members : List (String × Json)) :
    documentMembers members = members.map fun m => (some m.1, m.2.document) := by
  induction members with
  | nil => rfl
  | cons m members ih =>
    rw [documentMembers, ih]
    rfl

theorem documentItems_eq (items : List Json) : documentItems items = items.map document := by
  induction items with
  | nil => rfl
  | cons item items ih =>
    rw [documentItems, ih]
    rfl

theorem floatFreeItems_iff {items : List Json} :
    FloatFreeItems items ↔ ∀ j ∈ items, j.FloatFree := by
  induction items with
  | nil => simp [FloatFreeItems]
  | cons item items ih => simp [FloatFreeItems, ih]

namespace Document

theorem occurrences_document (name : String) (members : List (String × Json)) :
    occurrences name (documentMembers members) = (members.map Prod.fst).count name := by
  rw [documentMembers_eq, occurrences, List.countP_map, List.count, List.countP_map]
  rfl

theorem find?_document {members : List (String × Json)} (hnodup : (members.map Prod.fst).Nodup)
    {m : String × Json} (hm : m ∈ members) :
    ((documentMembers members).find? (·.1 == some m.1)).map Prod.snd = some m.2.document := by
  induction members with
  | nil => cases hm
  | cons n members ih =>
    rw [List.map_cons, List.nodup_cons] at hnodup
    rcases List.mem_cons.1 hm with rfl | hm
    · simp [documentMembers]
    · have hne : n.1 ≠ m.1 := by
        intro h
        exact hnodup.1 (h ▸ List.mem_map_of_mem hm)
      have hrest := ih hnodup.2 hm
      simpa [documentMembers, List.find?_cons, hne] using hrest

theorem fields?_object {names : List String} {members : List (String × Json)}
    (hnames : members.map Prod.fst = names) (hnodup : names.Nodup) :
    (document (.object members)).fields? names = some (members.map fun m => some m.2.document) := by
  subst hnames
  have hnamed : (documentMembers members).all (·.1.isSome) = true := by
    simp [documentMembers_eq]
  have honce : (members.map Prod.fst).all (occurrences · (documentMembers members) ≤ 1) = true := by
    rw [List.all_eq_true]
    intro name _
    rw [occurrences_document, decide_eq_true_eq]
    exact List.nodup_iff_count_le_one.1 hnodup name
  have hvalues : (members.map Prod.fst).map (fun n =>
      ((documentMembers members).find? (·.1 == some n)).map Prod.snd) =
      members.map fun m => some m.2.document := by
    rw [List.map_map]
    exact List.map_congr_left fun m hm => find?_document hnodup hm
  rw [document, fields?, namedFields?, if_pos ⟨hnamed, honce⟩, hvalues]

theorem int64?_ofInt64 (n : Int64) : (ofInt64 n).document.int64? = some n := by
  have hlt : n.toInt < 9223372036854775808 := n.toInt_lt
  have hval : (WideInt.ofInt64 n).val = n.toInt := rfl
  simp [ofInt64, document, int64?, wideInt?, hval, hlt]

theorem instant?_shortText (t : Instant) :
    (document (.string t.shortText)).instant? = some t.asRead := by
  simp [document, instant?, string?, Instant.ofText?_shortText]

theorem uuid?_text (u : Uuid) : (document (.string u.text)).uuid? = some u := by
  simp [document, uuid?, string?, Uuid.ofText?_text]

theorem string?_string (s : String) : (document (.string s)).string? = some s := rfl

end Document

end Json

namespace Cache.Codec

variable {α : Type} {c : Codec α} {a b : α}

/-- One value is read from what is written for another. -/
structure ReadsAs (c : Codec α) (a b : α) : Prop where
  floatFree : (c.encode a).FloatFree
  decode_encode : c.decode (c.encode a).document = some b

theorem ReadsAs.ofText?_text (h : c.ReadsAs a b) : c.ofText? (c.text a) = some b := by
  simp [ofText?, text, Json.ofText?_compactText h.floatFree, h.decode_encode]

theorem mapM_decode {read : α → α} {as : List α} (h : ∀ a ∈ as, c.ReadsAs a (read a)) :
    ((as.map c.encode).map Json.document).mapM c.decode = some (as.map read) := by
  induction as with
  | nil => rfl
  | cons a as ih =>
    have ha := (h a (List.mem_cons_self ..)).decode_encode
    have hrest := ih fun b hb => h b (List.mem_cons_of_mem _ hb)
    simp only [List.map_cons, List.mapM_cons, ha, hrest]
    rfl

theorem ReadsAs.list {read : α → α} {as : List α} (h : ∀ a ∈ as, c.ReadsAs a (read a)) :
    c.list.ReadsAs as (as.map read) where
  floatFree := by
    refine Json.floatFreeItems_iff.2 fun j hj => ?_
    obtain ⟨a, ha, rfl⟩ := List.mem_map.1 hj
    exact (h a ha).floatFree
  decode_encode := by
    have hitems := mapM_decode h
    simp only [Codec.list, Json.document, Json.documentItems_eq, Json.Document.list?,
      Json.Document.array?, Option.bind_some, hitems]

end Cache.Codec

end AuditedPetitions
