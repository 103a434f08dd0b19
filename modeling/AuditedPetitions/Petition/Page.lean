import AuditedPetitions.Petition.Basic

/-! Listing requests. Without limit and offset the whole listing is asked for; otherwise a window of
it, which has a page number exactly when the offset is a multiple of the limit. -/

namespace AuditedPetitions

structure Pagination where
  defaultPageSize : Int64
  maxPageSize : Int64
  deriving DecidableEq

namespace Pagination

def standard : Pagination := ⟨20, 100⟩

def fieldNames : List String := ["default_page_size", "max_page_size"]

def toJson (p : Pagination) : Json :=
  .object [("default_page_size", .ofInt64 p.defaultPageSize),
    ("max_page_size", .ofInt64 p.maxPageSize)]

def ofDocument? (d : Json.Document) : Option Pagination :=
  match d.fields? fieldNames with
  | some [size, limit] => do return ⟨← size.bind (·.int64?), ← limit.bind (·.int64?)⟩
  | _ => none

end Pagination

inductive PageRequest
  | all
  | page (limit offset : Int64) (number : Option Int64)
  deriving DecidableEq

namespace PageRequest

/-- Rule that the caller's numbers break; the offset is looked at first. -/
def brokenRule? (limit offset : Option Int64) : Option Rule :=
  if offset.any (· < 0) then some .offsetNotNegative
  else if limit.any (· < 1) then some .limitPositive
  else none

/-- Number of the page at an offset, counted from one. -/
def number? {ε : Type} (limit offset : Int64) : Outcome ε (Option Int64) := do
  let rest ← remInt64 offset limit
  if rest = 0 then
    let n ← addInt64 (offset / limit) 1
    return some n
  else return none

/-- Window of a limit at an offset that may be missing. -/
def window (limit : Int64) (offset : Option Int64) : Outcome PetitionError PageRequest := do
  let offset := offset.getD 0
  return .page limit offset (← number? limit offset)

def resolve (limit offset : Option Int64) (config : Pagination) :
    Outcome PetitionError PageRequest :=
  match brokenRule? limit offset with
  | some rule => refuse (.validation rule)
  | none =>
    match limit, offset with
    | none, none => .ok .all
    | some limit, offset => window (min limit config.maxPageSize) offset
    | none, offset => window config.defaultPageSize offset

end PageRequest

end AuditedPetitions
