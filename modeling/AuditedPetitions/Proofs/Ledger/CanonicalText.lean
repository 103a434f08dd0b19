import AuditedPetitions.Proofs.Json.Alike
import AuditedPetitions.Proofs.Json.Nesting
import AuditedPetitions.Proofs.Ledger.Binding

/-! The canonical text stands for the transaction and for nothing else of how it was made. It is the
exported record with every object sorted, so the order in which members were put in is lost; and as
the text can be read back, nothing is lost but that order and what the written time does not tell. -/

namespace AuditedPetitions.Ledger.Transaction
open Text (isBlankChar)

theorem normalize_toJson (t : Transaction) : t.toJson.normalize = t.canonicalJson := by
  have hperm : t.toJson.Alike t.canonicalJson := by
    refine Json.alike_of_perm ?_ ?_
    · exact (List.reverse_perm _).symm.trans ((List.Perm.swap _ _ _).cons _)
    · show ["type", "payload", "timestamp", "description"].Nodup
      decide
  rw [Json.normalize_eq_of_alike hperm, Json.normalize_of_ordered _ t.canonicalJson_ordered]

theorem asRead_mk_eq_iff {k l : EventKind} {p q : Json} {a b : Instant} {c d : String} :
    (⟨k, .ofJson p, a, c⟩ : Transaction).asRead = (⟨l, .ofJson q, b, d⟩ : Transaction).asRead ↔
      k = l ∧ p.Alike q ∧ a.asRead = b.asRead ∧ c = d := by
  have hpayload : Payload.ofJson p = Payload.ofJson q ↔ p.Alike q := by
    rw [Json.alike_iff]
    exact ⟨congrArg Payload.value, fun h => Payload.ext_value h⟩
  rw [asRead, asRead, Transaction.mk.injEq, hpayload]

theorem canonicalText_eq_iff {t u : Transaction} (ht : t.payload.value.FloatFree)
    (hu : u.payload.value.FloatFree) : t.canonicalText = u.canonicalText ↔ t.asRead = u.asRead := by
  constructor
  · intro h
    have hchars : t.canonicalChars ++ [] = u.canonicalChars ++ [] := by
      rw [String.ofList_injective h]
    exact (canonicalChars_append_inj ht hu hchars).1
  · intro h
    rw [← t.canonicalText_asRead, h, u.canonicalText_asRead]

/-- Two transactions have one canonical text exactly when they differ at most in the order in which
the members of their payloads were put in, and in times that are written alike: one of these is then a
leap second in the middle of a minute. The text is what sorting all objects of the exported record
makes of it, and reads back as that. Its blanks stand in string literals, and no canonical text is a
proper beginning of another one. Doubles only matter where a text is read back. -/
theorem canonicalText_faithful (k l : EventKind) (p q : Json) (a b : Instant) (c d : String) :
    let t : Transaction := ⟨k, .ofJson p, a, c⟩
    let u : Transaction := ⟨l, .ofJson q, b, d⟩
    (p.FloatFree → q.FloatFree →
      (t.canonicalText = u.canonicalText ↔ k = l ∧ p.Alike q ∧ a.asRead = b.asRead ∧ c = d)) ∧
    (a.Readable → b.Readable → (a.asRead = b.asRead ↔ a = b)) ∧
    t.canonicalText = t.toJson.normalize.compactText ∧ t.toJson.normalize.Ordered ∧
    (p.FloatFree →
      Json.Document.ofText? t.canonicalText = some t.toJson.normalize.document) ∧
    (∀ (before after : List Char) (blank : Char),
      t.canonicalText.toList = before ++ blank :: after → isBlankChar blank = true →
        (Json.place before).mode ≠ .outside) ∧
    (t.canonicalText.toList <+: u.canonicalText.toList → t.canonicalText = u.canonicalText) := by
  intro t u
  have hfree (h : p.FloatFree) : t.payload.value.FloatFree := Json.floatFree_normalize p h
  have hfree' (h : q.FloatFree) : u.payload.value.FloatFree := Json.floatFree_normalize q h
  refine ⟨fun hp hq => ?_, fun ha hb => ?_, ?_, t.toJson.normalize_ordered, fun hp => ?_, ?_,
    fun hprefix => ?_⟩
  · rw [canonicalText_eq_iff (hfree hp) (hfree' hq), asRead_mk_eq_iff]
  · rw [Instant.asRead_eq_self_iff.2 ha, Instant.asRead_eq_self_iff.2 hb]
  · rw [normalize_toJson]
    rfl
  · rw [normalize_toJson]
    exact Json.ofText?_compactText (floatFree_canonicalJson (hfree hp))
  · intro before after blank htext hblank
    rw [canonicalText, String.toList_ofList] at htext
    exact Json.mode_of_blank htext hblank
  · rw [canonicalText, canonicalText, String.toList_ofList, String.toList_ofList] at hprefix
    exact congrArg String.ofList (Json.object_eq_of_prefix hprefix)

/-- Not all different transactions are told apart: a vote in a leap second in the middle of a minute
has the text of the same vote a second later. -/
theorem canonicalText_ambiguous : ¬ ∀ (k l : EventKind) (p q : Json) (a b : Instant) (c d : String),
    p.FloatFree → q.FloatFree →
      ((⟨k, .ofJson p, a, c⟩ : Transaction).canonicalText =
        (⟨l, .ofJson q, b, d⟩ : Transaction).canonicalText ↔
          k = l ∧ p.Alike q ∧ a = b ∧ c = d) := by
  intro h
  let vote : Transaction := ⟨.voteCast, .ofJson .null, .midMinuteLeap, "vote"⟩
  have hsame := (h .voteCast .voteCast .null .null .midMinuteLeap Instant.midMinuteLeap.asRead
    "vote" "vote" trivial trivial).1 vote.canonicalText_asRead.symm
  exact Instant.midMinuteLeap_ne hsame.2.2.1

/-- A payload, and the same members put in the other way around. -/
def filled : Json × Json :=
  let voters : Json := .array [.ofUInt64 1, .ofUInt64 23]
  (.object [("voters", voters), ("note", .object [("to", .string "a b"), ("by", .null)])],
    .object [("note", .object [("by", .null), ("to", .string "a b")]), ("voters", voters)])

theorem canonicalText_faithful_filled :
    let t := Instant.midMinuteLeap
    filled.1.FloatFree ∧ filled.2.FloatFree ∧ t ≠ t.asRead ∧
      (⟨.voteCast, .ofJson filled.1, t, "vote"⟩ : Transaction).canonicalText =
        (⟨.voteCast, .ofJson filled.2, t.asRead, "vote"⟩ : Transaction).canonicalText := by
  intro t
  have hfirst : filled.1.FloatFree :=
    ⟨⟨trivial, trivial, trivial⟩, ⟨trivial, trivial, trivial⟩, trivial⟩
  have hsecond : filled.2.FloatFree :=
    ⟨⟨trivial, trivial, trivial⟩, ⟨trivial, trivial, trivial⟩, trivial⟩
  have halike : filled.1.Alike filled.2 := Json.alike_iff.2 rfl
  have faithful :=
    canonicalText_faithful .voteCast .voteCast filled.1 filled.2 t t.asRead "vote" "vote"
  exact ⟨hfirst, hsecond, Instant.midMinuteLeap_ne,
    (faithful.1 hfirst hsecond).2 ⟨rfl, halike, t.asRead_asRead.symm, rfl⟩⟩

end AuditedPetitions.Ledger.Transaction
