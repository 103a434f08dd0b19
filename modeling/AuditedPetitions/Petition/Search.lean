import AuditedPetitions.Duration
import AuditedPetitions.Petition.Basic

/-! The searchable projection of a petition, where an index keeps it, and how indexing fails. -/

namespace AuditedPetitions

structure SearchDocument where
  id : Uuid
  ownerId : Uuid
  title : String
  description : String
  goal : Int64
  votesInFavor : Int64
  votesAgainst : Int64
  votingDeadline : Instant
  createdAt : Instant
  deriving DecidableEq

def Petition.searchDocument (p : Petition) : SearchDocument :=
  ⟨p.id, p.ownerId, p.title, p.description, p.goal, p.votesInFavor, p.votesAgainst,
    p.votingDeadline, p.createdAt⟩

namespace SearchDocument

def fieldNames : List String :=
  ["id", "owner_id", "title", "description", "goal", "votes_in_favor", "votes_against",
    "voting_deadline", "created_at"]

def toJson (d : SearchDocument) : Json :=
  .object [("id", .ofUuid d.id), ("owner_id", .ofUuid d.ownerId), ("title", .string d.title),
    ("description", .string d.description), ("goal", .ofInt64 d.goal),
    ("votes_in_favor", .ofInt64 d.votesInFavor), ("votes_against", .ofInt64 d.votesAgainst),
    ("voting_deadline", .ofInstant d.votingDeadline), ("created_at", .ofInstant d.createdAt)]

def ofDocument? (d : Json.Document) : Option SearchDocument :=
  match d.fields? fieldNames with
  | some [id, owner, title, description, goal, favor, against, deadline, created] => do
    return ⟨← id.bind (·.uuid?), ← owner.bind (·.uuid?), ← title.bind (·.string?),
      ← description.bind (·.string?), ← goal.bind (·.int64?), ← favor.bind (·.int64?),
      ← against.bind (·.int64?), ← deadline.bind (·.instant?), ← created.bind (·.instant?)⟩
  | _ => none

end SearchDocument

inductive IndexError
  | timeout (after : Duration)
  | unavailable (reason : String)
  | rejected (status : Nat) (body : String)
  deriving DecidableEq

def IndexError.message : IndexError → String
  | .timeout after => "Index request timed out after " ++ after.text
  | .unavailable reason => "Indexer unavailable: " ++ reason
  | .rejected status body =>
    "Index rejected document with status " ++ Numeral.text status ++ ": " ++ body

/-- Address of a document; slashes at the end of the base address do not count. -/
def documentUrl (base index : String) (id : Uuid) : String :=
  String.ofList (base.toList.reverse.dropWhile (· == '/')).reverse ++ "/" ++ index ++ "/_doc/" ++
    id.text

end AuditedPetitions
