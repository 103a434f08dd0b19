import AuditedPetitions.Json.Writer
import AuditedPetitions.Text.Quoted

/-! Refusals of the petition store and of the service. A refusal of the store that a caller can
cause has a counterpart in the service; any other stays hidden from the caller. -/

namespace AuditedPetitions

inductive StoreError
  | duplicateVote
  | notFound
  | goalReached
  | unavailable (reason : String)
  deriving DecidableEq, Repr

def StoreError.message : StoreError → String
  | .duplicateVote => "Vote already recorded for this voter and petition"
  | .notFound => "Petition not found"
  | .goalReached => "Petition goal already reached"
  | .unavailable reason => "Store unavailable: " ++ reason

/-- Rules that a request can break. -/
inductive Rule
  | titleRequired
  | descriptionRequired
  | goalPositive
  | deadlineAhead
  | offsetNotNegative
  | limitPositive
  | other (text : String)
  deriving DecidableEq, Repr

def Rule.text : Rule → String
  | .titleRequired => "title is required"
  | .descriptionRequired => "description is required"
  | .goalPositive => "goal must be at least 1"
  | .deadlineAhead => "voting deadline must be in the future"
  | .offsetNotNegative => "offset must not be negative"
  | .limitPositive => "limit must be at least 1"
  | .other text => text

inductive PetitionError
  | validation (rule : Rule)
  | invalidVoteType (text : String)
  | notFound
  | alreadyVoted
  | votingClosed
  | goalReached
  | store (error : StoreError)
  deriving DecidableEq, Repr

inductive ErrorKind
  | validation
  | notFound
  | conflict
  | policyViolation
  | internal
  deriving DecidableEq, Repr

def ErrorKind.name : ErrorKind → String
  | .validation => "Validation"
  | .notFound => "NotFound"
  | .conflict => "Conflict"
  | .policyViolation => "PolicyViolation"
  | .internal => "Internal"

/-- Status code of the response. -/
def ErrorKind.status : ErrorKind → Nat
  | .validation => 400
  | .notFound => 404
  | .conflict => 409
  | .policyViolation => 422
  | .internal => 500

namespace PetitionError

def ofStore : StoreError → PetitionError
  | .notFound => .notFound
  | .duplicateVote => .alreadyVoted
  | .goalReached => .goalReached
  | e => .store e

def message : PetitionError → String
  | .validation rule => "Validation error: " ++ rule.text
  | .invalidVoteType text => "Invalid vote type: " ++ Text.quoted text
  | .notFound => "Petition not found"
  | .alreadyVoted => "User has already voted on this petition"
  | .votingClosed => "Voting is closed for this petition"
  | .goalReached => "Petition goal has been reached"
  | .store e => "Store failure: " ++ e.message

def kind : PetitionError → ErrorKind
  | .validation _ | .invalidVoteType _ => .validation
  | .notFound => .notFound
  | .alreadyVoted => .conflict
  | .votingClosed | .goalReached => .policyViolation
  | .store _ => .internal

def typeName : PetitionError → String
  | .validation _ => "validation_error"
  | .invalidVoteType _ => "invalid_vote_type"
  | .notFound => "not_found"
  | .alreadyVoted => "already_voted"
  | .votingClosed => "voting_closed"
  | .goalReached => "goal_reached"
  | .store _ => "internal_error"

/-- Message that the caller sees. -/
def publicMessage : PetitionError → String
  | .store _ => "Internal server error"
  | e => e.message

/-- Body of the response. -/
def body (e : PetitionError) : Json :=
  .object [("error", .object [
    ("code", .ofUInt64 (.ofNat e.kind.status)),
    ("message", .string e.publicMessage), ("type", .string e.typeName)])]

end PetitionError

end AuditedPetitions
