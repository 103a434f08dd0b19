import AuditedPetitions.Decimal.Fixed
import AuditedPetitions.Duration
import AuditedPetitions.Arithmetic
import AuditedPetitions.Json.Decode
import AuditedPetitions.Json.Writer

/-! Best-effort caching in front of any backend. A read that fails or finds a text that does not
decode counts as absent for the caller, who then loads the value and tries to store it; only the
counters tell the cases apart. A backend answers every call with a value or an error and may change
its state on the way. A lifetime that the backend's clock cannot hold ends the caller's operation. -/

namespace AuditedPetitions.Cache

inductive Error
  | timeout (after : Duration)
  | unavailable (reason : String)
  deriving DecidableEq

def Error.message : Error → String
  | .timeout after => "Cache operation timed out after " ++ after.text
  | .unavailable reason => "Cache unavailable: " ++ reason

structure Metrics where
  hits : Nat
  misses : Nat
  errors : Nat
  sets : Nat
  deletes : Nat
  deriving DecidableEq

namespace Metrics

def zero : Metrics := ⟨0, 0, 0, 0, 0⟩

/-- Share of the hits in the answered reads, in percent with six places. -/
def hitRate (m : Metrics) : Except ArithmeticFault (List Char) :=
  let total := m.hits + m.misses
  if UInt64.size ≤ total then .error .additionOverflow
  else if total = 0 then .ok (Decimal.sixPlaces 0)
  else
    let hits := (UInt64.ofNat m.hits).toFloat
    .ok (Decimal.sixPlaces (hits / (UInt64.ofNat total).toFloat * 100))

end Metrics

/-- Written form of the values that are cached. -/
structure Codec (α : Type) where
  encode : α → Json
  decode : Json.Document → Option α

namespace Codec

variable {α : Type}

def text (c : Codec α) (a : α) : String := (c.encode a).compactText

def ofText? (c : Codec α) (s : String) : Option α := (Json.Document.ofText? s).bind c.decode

/-- Lists of such values. -/
def list (c : Codec α) : Codec (List α) :=
  ⟨fun as => .array (as.map c.encode), fun d => d.list? c.decode⟩

/-- Any value that a text can hold. -/
def payload : Codec Payload :=
  ⟨Payload.value, fun d => (d.toJson? Json.Document.depthLimit).map Payload.ofJson⟩

/-- Unsigned numbers of 32 bits. -/
def word : Codec UInt32 := ⟨fun n => .ofUInt64 n.toUInt64, (·.uint32?)⟩

end Codec

structure Backend (σ : Type) where
  get : String → σ → Except Error (Option String) × σ
  set : String → String → Nat → σ → Outcome Error Unit × σ
  /-- Keys that begin with a text. -/
  scan : String → σ → Except Error (List String) × σ
  /-- Removes keys and tells how many there were. -/
  delete : List String → σ → Except Error Nat × σ

inductive Lookup (α : Type)
  | hit (value : α)
  | miss
  | failed (error : Error)

/-- Meaning of a backend's answer to a read. -/
def Lookup.ofAnswer {α : Type} (codec : Codec α) : Except Error (Option String) → Lookup α
  | .error e => .failed e
  | .ok none => .miss
  | .ok (some s) => (codec.ofText? s).elim .miss .hit

end Cache

/-- A backend's state with the counters kept in front of it. -/
structure Cache (σ : Type) where
  state : σ
  metrics : Cache.Metrics

namespace Cache

variable {σ α ε ρ : Type} (b : Backend σ) (codec : Codec α)

def Metrics.recordLookup (m : Metrics) : Lookup α → Metrics
  | .hit _ => { m with hits := m.hits + 1 }
  | .miss => { m with misses := m.misses + 1 }
  | .failed _ => { m with errors := m.errors + 1 }

def lookup (key : String) (c : Cache σ) : Lookup α × Cache σ :=
  let (answer, state) := b.get key c.state
  let found := Lookup.ofAnswer codec answer
  (found, ⟨state, c.metrics.recordLookup found⟩)

theorem lookup_hit {b : Backend σ} {codec : Codec α} {key : String} {c : Cache σ} {a : α}
    (h : (c.lookup b codec key).1 = .hit a) :
    ∃ text, (b.get key c.state).1 = .ok (some text) ∧ codec.ofText? text = some a := by
  simp only [lookup, Lookup.ofAnswer] at h
  split at h
  · cases h
  · cases h
  · rename_i text ht
    refine ⟨text, ht, ?_⟩
    cases hd : codec.ofText? text with
    | none => simp [hd] at h
    | some a' =>
      simp only [hd, Option.elim_some, Cache.Lookup.hit.injEq] at h
      rw [h]

/-- Tries to store a value; a refusal is counted and forgotten. -/
def fill (key : String) (value : α) (ttl : Nat) (c : Cache σ) :
    Except ArithmeticFault Unit × Cache σ :=
  match b.set key (codec.text value) ttl c.state with
  | (.ok (), state) => (.ok (), ⟨state, { c.metrics with sets := c.metrics.sets + 1 }⟩)
  | (.error (.refused _), state) =>
    (.ok (), ⟨state, { c.metrics with errors := c.metrics.errors + 1 }⟩)
  | (.error (.arithmetic fault), state) => (.error fault, { c with state := state })

/-- Serves a value from the cache, or loads it and tries to store it. The loader has a state of its
own; an error of the loader is the answer, and nothing is stored. -/
def getOrLoad (key : String) (ttl : Nat) (loader : ρ → Except ε α × ρ) (c : Cache σ) (r : ρ) :
    Outcome ε α × Cache σ × ρ :=
  match c.lookup b codec key with
  | (.hit value, c) => (.ok value, c, r)
  | (_, c) =>
    match loader r with
    | (.error e, r) => (refuse e, c, r)
    | (.ok value, r) =>
      match c.fill b codec key value ttl with
      | (.ok (), c) => (.ok value, c, r)
      | (.error fault, c) => (.error (.arithmetic fault), c, r)

def Metrics.recordRemoved (m : Metrics) (n : Nat) : Metrics := { m with deletes := m.deletes + n }

/-- Removes keys and counts them. -/
def remove (keys : List String) (c : Cache σ) : Except Error Nat × Cache σ :=
  match b.delete keys c.state with
  | (.ok n, state) => (.ok n, ⟨state, c.metrics.recordRemoved n⟩)
  | (.error e, state) => (.error e, { c with state := state })

/-- Finds keys by their beginning. -/
def find (start : String) (c : Cache σ) : Except Error (List String) × Cache σ :=
  let (answer, state) := b.scan start c.state
  (answer, { c with state := state })

/-- Removes every key that begins with a text; without any there is nothing to ask for. -/
def removeAll (start : String) (c : Cache σ) : Except Error Nat × Cache σ :=
  match c.find b start with
  | (.error e, c) => (.error e, c)
  | (.ok [], c) => (.ok 0, c)
  | (.ok keys, c) => c.remove b keys

end Cache

end AuditedPetitions
