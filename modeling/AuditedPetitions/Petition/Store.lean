import AuditedPetitions.Petition.Basic
import AuditedPetitions.Table

/-! The petition store. Every operation is one step: it reads or changes the store as a whole or
refuses and changes nothing. A deleted petition stays in the store, where nothing finds it any more.
A vote and the tallies that it changes are written in one transaction, whose body works on staged
copies. -/

namespace AuditedPetitions

/-- What a vote is known by: nobody has two votes on one petition. -/
def Vote.voterAndPetition (v : Vote) : Uuid × Uuid := (v.voterId, v.petitionId)

/-- Same petition with one more vote, unless its goal has been reached. -/
def Petition.addVote (p : Petition) (type : VoteType) (now : Instant) :
    Outcome StoreError Petition := do
  if ← p.goalReached then refuse .goalReached
  else match type with
    | .favor =>
      let votes ← addInt64 p.votesInFavor 1
      return { p with votesInFavor := votes, updatedAt := now }
    | .against =>
      let votes ← addInt64 p.votesAgainst 1
      return { p with votesAgainst := votes, updatedAt := now }

/-- Same petition, deleted. -/
def Petition.delete (p : Petition) (now : Instant) : Petition :=
  { p with deletedAt := some now, updatedAt := now }

/-- Listing order: the latest first, and by identifier among those of one moment. -/
def Petition.listedBefore (a b : Petition) : Bool :=
  b.createdAt < a.createdAt || (a.createdAt = b.createdAt && a.id ≤ b.id)

abbrev PetitionTable := Table Petition.id

/-- Petition that exists and is not deleted. -/
def PetitionTable.live (t : PetitionTable) (id : Uuid) : Outcome StoreError Petition :=
  match (t.get? id).filter (!·.isDeleted) with
  | some p => .ok p
  | none => refuse .notFound

/-- One vote more for a tally. -/
structure Increment where
  petitionId : Uuid
  type : VoteType
  now : Instant

/-- Inside of a transaction: the petitions as they are, and copies of those that were touched. -/
structure Staging where
  live : PetitionTable
  touched : PetitionTable

namespace Staging

def petition (s : Staging) (id : Uuid) : Outcome StoreError Petition :=
  match s.touched.get? id with
  | some p => .ok p
  | none => s.live.live id

def increment (s : Staging) (i : Increment) : Outcome StoreError Staging := do
  let p ← s.petition i.petitionId
  let p ← p.addVote i.type i.now
  return { s with touched := s.touched.put p }

/-- Increments in order, up to the first that fails. -/
def incrementAll : List Increment → Staging → Outcome StoreError Staging
  | [], s => .ok s
  | i :: is, s => do incrementAll is (← s.increment i)

/-- Increments in order, without those that are refused. -/
def incrementAny : List Increment → Staging → Outcome StoreError Staging
  | [], s => .ok s
  | i :: is, s =>
    match s.increment i with
    | .error (.arithmetic fault) => .error (.arithmetic fault)
    | .error (.refused _) => incrementAny is s
    | .ok s => incrementAny is s

/-- Petitions once the copies have taken their places. -/
def committed (s : Staging) : PetitionTable := s.live.putAll s.touched.rows

end Staging

structure Store where
  petitions : PetitionTable
  votes : Table Vote.voterAndPetition
  available : Bool

namespace Store

def empty : Store := ⟨.empty, .empty, true⟩

def checkAvailable (s : Store) : Outcome StoreError Unit :=
  if s.available then .ok () else refuse (.unavailable "memory store switched off")

/-- Puts a petition in, past all rules. -/
def seed (s : Store) (p : Petition) : Store := { s with petitions := s.petitions.put p }

def create (s : Store) (p : Petition) : Outcome StoreError Store := do
  s.checkAvailable
  return s.seed p

/-- Petition that is not deleted. -/
def getById (s : Store) (id : Uuid) : Outcome StoreError Petition := do
  s.checkAvailable
  s.petitions.live id

/-- Petition, deleted or not. -/
def raw (s : Store) (id : Uuid) : Option Petition := s.petitions.get? id

/-- Petitions that are not deleted, in listing order. -/
def listing (s : Store) : List Petition :=
  (s.petitions.rows.filter (!·.isDeleted)).mergeSort Petition.listedBefore

/-- At most `limit` of them from an offset; a negative offset counts as none, and so does a negative
limit. -/
def window {α : Type} (limit : Option Int64) (offset : Int64) (as : List α) : List α :=
  let rest := as.drop offset.toInt.toNat
  match limit with
  | none => rest
  | some limit => if limit < 0 then rest else rest.take limit.toInt.toNat

def list (s : Store) (limit : Option Int64) (offset : Int64) :
    Outcome StoreError (List Petition) := do
  s.checkAvailable
  return window limit offset s.listing

def hasVoted (s : Store) (voter petition : Uuid) : Outcome StoreError Bool := do
  s.checkAvailable
  return s.votes.contains (voter, petition)

/-- Adds a vote to a tally, outside of any transaction. -/
def increment (s : Store) (i : Increment) : Outcome StoreError Store := do
  s.checkAvailable
  let p ← s.petitions.live i.petitionId
  return s.seed (← p.addVote i.type i.now)

def delete (s : Store) (id : Uuid) (now : Instant) : Outcome StoreError Store := do
  s.checkAvailable
  let p ← s.petitions.live id
  return s.seed (p.delete now)

/-- Writes a vote together with what the body did to the staged petitions. -/
def voteWith (s : Store) (v : Vote) (body : Staging → Outcome StoreError Staging) :
    Outcome StoreError Store := do
  s.checkAvailable
  if s.votes.contains v.voterAndPetition then refuse .duplicateVote
  else if s.petitions.contains v.petitionId then
    let staging ← body ⟨s.petitions, .empty⟩
    return { s with petitions := staging.committed, votes := s.votes.put v }
  else refuse .notFound

/-- Writes a vote together with its petition's tally. -/
def vote (s : Store) (v : Vote) (now : Instant) : Outcome StoreError Store :=
  s.voteWith v (Staging.increment · ⟨v.petitionId, v.voteType, now⟩)

/-- Votes on a petition, sorted by voter. -/
def votesFor (s : Store) (id : Uuid) : List Vote :=
  (s.votes.rows.filter (·.petitionId = id)).mergeSort fun a b => a.voterId ≤ b.voterId

end Store

end AuditedPetitions
