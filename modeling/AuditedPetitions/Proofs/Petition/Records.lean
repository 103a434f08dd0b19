import AuditedPetitions.Proofs.Json.Records
import AuditedPetitions.Proofs.Petition.StoreLaws
import Mathlib

/-! What cached petitions and listings are read back as: the same petitions, but for a leap second that
is not at the end of its minute, which is read as the second after it. -/

namespace AuditedPetitions

open Json.Document

theorem instant?_ofInstant (t : Instant) : (Json.ofInstant t).document.instant? = some t.asRead :=
  instant?_shortText t

theorem uuid?_ofUuid (u : Uuid) : (Json.ofUuid u).document.uuid? = some u := uuid?_text u

namespace Petition

/-- Petition that the record stands for. -/
def asRead (p : Petition) : Petition :=
  { p with
    votingDeadline := p.votingDeadline.asRead
    deletedAt := p.deletedAt.map Instant.asRead
    createdAt := p.createdAt.asRead
    updatedAt := p.updatedAt.asRead }

/-- The times of a petition are told by their written forms. -/
structure Readable (p : Petition) : Prop where
  votingDeadline : p.votingDeadline.Readable
  deletedAt : ∀ t ∈ p.deletedAt, t.Readable
  createdAt : p.createdAt.Readable
  updatedAt : p.updatedAt.Readable

theorem asRead_eq_self_iff {p : Petition} : p.asRead = p ↔ p.Readable := by
  have hdeleted : p.deletedAt.map Instant.asRead = p.deletedAt ↔
      ∀ t ∈ p.deletedAt, t.Readable := by
    cases p.deletedAt <;> simp [Instant.asRead_eq_self_iff]
  constructor
  · intro h
    refine ⟨?_, hdeleted.1 (congrArg Petition.deletedAt h), ?_, ?_⟩
    · exact Instant.asRead_eq_self_iff.1 (congrArg Petition.votingDeadline h)
    · exact Instant.asRead_eq_self_iff.1 (congrArg Petition.createdAt h)
    · exact Instant.asRead_eq_self_iff.1 (congrArg Petition.updatedAt h)
  · intro h
    rw [asRead, hdeleted.2 h.deletedAt, Instant.asRead_eq_self_iff.2 h.votingDeadline,
      Instant.asRead_eq_self_iff.2 h.createdAt, Instant.asRead_eq_self_iff.2 h.updatedAt]

theorem map_asRead_eq_self_iff {ps : List Petition} :
    ps.map asRead = ps ↔ ∀ p ∈ ps, p.Readable := by
  simp only [← asRead_eq_self_iff]
  conv_lhs => rhs; rw [← ps.map_id]
  exact List.map_inj_left

theorem floatFree_toJson (p : Petition) : p.toJson.FloatFree := by
  have hdeleted : (p.deletedAt.elim Json.null Json.ofInstant).FloatFree := by
    cases p.deletedAt <;> trivial
  exact ⟨trivial, trivial, trivial, trivial, trivial, trivial, trivial, trivial, hdeleted, trivial,
    trivial, trivial⟩

theorem deletion?_document (t : Option Instant) :
    deletion? (some (t.elim Json.null Json.ofInstant).document) =
      some (t.map Instant.asRead) := by
  cases t with
  | none => rfl
  | some t =>
    have hread := instant?_ofInstant t
    simp only [Option.elim_some, Json.ofInstant, Json.document] at hread ⊢
    simp [deletion?, nullable?, hread]

theorem ofDocument?_toJson (p : Petition) : ofDocument? p.toJson.document = some p.asRead := by
  have hfields : p.toJson.document.fields? fieldNames = _ :=
    fields?_object rfl (by decide)
  simp only [ofDocument?, hfields, List.map_cons, List.map_nil, Option.bind_some, uuid?_ofUuid,
    string?_string, int64?_ofInt64, instant?_ofInstant, deletion?_document, Option.bind_eq_bind]
  rfl

theorem readsAs (p : Petition) : codec.ReadsAs p p.asRead :=
  ⟨p.floatFree_toJson, p.ofDocument?_toJson⟩

theorem readsAs_list (ps : List Petition) : codec.list.ReadsAs ps (ps.map asRead) :=
  .list fun p _ => p.readsAs

end Petition

/-- Reply that a cached text stands for. -/
def Reply.asRead : Reply → Reply
  | .petition p => .petition p.asRead
  | .listing ps => .listing (ps.map Petition.asRead)
  | reply => reply

namespace Query

theorem readsAs_answer {q : Query} {s : Store} {reply : Reply} (h : q.answer s = .ok reply) :
    q.codec.ReadsAs reply reply.asRead := by
  cases q with
  | petition id =>
    obtain ⟨p, -, rfl⟩ := answer_eq_ok.1 h
    exact ⟨p.floatFree_toJson, by simp [codec, p.ofDocument?_toJson, Reply.asRead]⟩
  | listing limit offset =>
    obtain ⟨ps, -, rfl⟩ := answer_eq_ok.1 h
    have hlist := Petition.readsAs_list ps
    have hdecode := hlist.decode_encode
    simp only [Cache.Codec.list, Petition.codec] at hdecode
    exact ⟨hlist.floatFree, by simp [codec, hdecode, Reply.asRead]⟩

end Query

end AuditedPetitions
