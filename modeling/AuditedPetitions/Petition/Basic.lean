import AuditedPetitions.Arithmetic
import AuditedPetitions.Instant.Printer
import AuditedPetitions.Json.Decode
import AuditedPetitions.Petition.Error

/-! Petitions, requests for new ones, and votes, with their records. A petition holds its two
tallies; it is open until its deadline has passed or the tallies together reach its goal. -/

namespace AuditedPetitions

structure Petition where
  id : Uuid
  ownerId : Uuid
  title : String
  description : String
  goal : Int64
  votesInFavor : Int64
  votesAgainst : Int64
  votingDeadline : Instant
  deletedAt : Option Instant
  createdAt : Instant
  updatedAt : Instant
  deriving DecidableEq

structure NewPetition where
  ownerId : Uuid
  title : String
  description : String
  goal : Int64
  votingDeadline : Instant
  deriving DecidableEq

inductive VoteType
  | favor
  | against
  deriving DecidableEq, Repr

structure Vote where
  id : Uuid
  voterId : Uuid
  petitionId : Uuid
  voteType : VoteType
  createdAt : Instant
  deriving DecidableEq

def Json.ofUuid (u : Uuid) : Json := .string u.text

def Json.ofInstant (t : Instant) : Json := .string t.shortText

namespace VoteType

def name : VoteType → String
  | .favor => "favor"
  | .against => "against"

def ofName? (s : String) : Option VoteType :=
  if s = "favor" then some .favor else if s = "against" then some .against else none

theorem ofName?_name (t : VoteType) : ofName? t.name = some t := by cases t <;> decide

/-- Vote type of a caller's text. -/
def ofText (s : String) : Except PetitionError VoteType :=
  match ofName? s with
  | some t => .ok t
  | none => .error (.invalidVoteType s)

def ofDocument? (d : Json.Document) : Option VoteType := d.choice?.bind ofName?

end VoteType

namespace Petition

/-- Petition of a request that has been validated. -/
def ofRequest (r : NewPetition) (id : Uuid) (now : Instant) : Petition :=
  ⟨id, r.ownerId, r.title, r.description, r.goal, 0, 0, r.votingDeadline, none, now, now⟩

def totalVotes {ε : Type} (p : Petition) : Outcome ε Int64 := addInt64 p.votesInFavor p.votesAgainst

def goalReached {ε : Type} (p : Petition) : Outcome ε Bool := do
  let total ← p.totalVotes
  return p.goal ≤ total

def isClosedAt (p : Petition) (now : Instant) : Bool := p.votingDeadline < now

def isDeleted (p : Petition) : Bool := p.deletedAt.isSome

def tally (p : Petition) : VoteType → Int64
  | .favor => p.votesInFavor
  | .against => p.votesAgainst

def fieldNames : List String :=
  ["id", "owner_id", "title", "description", "goal", "votes_in_favor", "votes_against",
    "voting_deadline", "deleted_at", "created_at", "updated_at"]

def toJson (p : Petition) : Json :=
  .object [("id", .ofUuid p.id), ("owner_id", .ofUuid p.ownerId), ("title", .string p.title),
    ("description", .string p.description), ("goal", .ofInt64 p.goal),
    ("votes_in_favor", .ofInt64 p.votesInFavor), ("votes_against", .ofInt64 p.votesAgainst),
    ("voting_deadline", .ofInstant p.votingDeadline),
    ("deleted_at", p.deletedAt.elim .null .ofInstant), ("created_at", .ofInstant p.createdAt),
    ("updated_at", .ofInstant p.updatedAt)]

/-- Reads the mark of a deletion; in an object it may be missing. -/
def deletion? : Option Json.Document → Option (Option Instant)
  | none => some none
  | some d => d.nullable? (·.instant?)

def ofDocument? (d : Json.Document) : Option Petition :=
  match d.fields? fieldNames with
  | some [id, owner, title, description, goal, favor, against, deadline, deleted, created,
      updated] => do
    return ⟨← id.bind (·.uuid?), ← owner.bind (·.uuid?), ← title.bind (·.string?),
      ← description.bind (·.string?), ← goal.bind (·.int64?), ← favor.bind (·.int64?),
      ← against.bind (·.int64?), ← deadline.bind (·.instant?), ← deletion? deleted,
      ← created.bind (·.instant?), ← updated.bind (·.instant?)⟩
  | _ => none

end Petition

namespace NewPetition

def fieldNames : List String := ["owner_id", "title", "description", "goal", "voting_deadline"]

/-- First rule that the request breaks. -/
def brokenRule? (r : NewPetition) (now : Instant) : Option Rule :=
  if Text.isBlank r.title then some .titleRequired
  else if Text.isBlank r.description then some .descriptionRequired
  else if r.goal < 1 then some .goalPositive
  else if r.votingDeadline ≤ now then some .deadlineAhead
  else none

def validate (r : NewPetition) (now : Instant) : Except PetitionError Unit :=
  match r.brokenRule? now with
  | some rule => .error (.validation rule)
  | none => .ok ()

def toJson (r : NewPetition) : Json :=
  .object [("owner_id", .ofUuid r.ownerId), ("title", .string r.title),
    ("description", .string r.description), ("goal", .ofInt64 r.goal),
    ("voting_deadline", .ofInstant r.votingDeadline)]

def ofDocument? (d : Json.Document) : Option NewPetition :=
  match d.fields? fieldNames with
  | some [owner, title, description, goal, deadline] => do
    return ⟨← owner.bind (·.uuid?), ← title.bind (·.string?), ← description.bind (·.string?),
      ← goal.bind (·.int64?), ← deadline.bind (·.instant?)⟩
  | _ => none

end NewPetition

namespace Vote

def fieldNames : List String := ["id", "voter_id", "petition_id", "vote_type", "created_at"]

def toJson (v : Vote) : Json :=
  .object [("id", .ofUuid v.id), ("voter_id", .ofUuid v.voterId),
    ("petition_id", .ofUuid v.petitionId), ("vote_type", .string v.voteType.name),
    ("created_at", .ofInstant v.createdAt)]

def ofDocument? (d : Json.Document) : Option Vote :=
  match d.fields? fieldNames with
  | some [id, voter, petition, type, created] => do
    return ⟨← id.bind (·.uuid?), ← voter.bind (·.uuid?), ← petition.bind (·.uuid?),
      ← type.bind VoteType.ofDocument?, ← created.bind (·.instant?)⟩
  | _ => none

end Vote

end AuditedPetitions
