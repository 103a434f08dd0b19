/-! Values of JSON texts. Members of an object stand in the order in which they were given, and a
name may be given twice; `normalize` keeps the last member of each name and sorts the names by code
point, at every depth. A payload is a value in that form: two payloads are equal exactly when they
agree up to the order of insertion. -/

namespace AuditedPetitions

/-- Whole numbers that fit in 64 bits, with or without a sign. -/
structure WideInt where
  val : Int
  lower : -9223372036854775808 ≤ val
  upper : val < 18446744073709551616
  deriving DecidableEq

namespace WideInt

def of? (n : Int) : Option WideInt :=
  if h : -9223372036854775808 ≤ n ∧ n < 18446744073709551616 then some ⟨n, h.1, h.2⟩ else none

theorem of?_val (n : WideInt) : of? n.val = some n := dif_pos ⟨n.lower, n.upper⟩

def ofUInt64 (n : UInt64) : WideInt :=
  ⟨n.toNat, by omega, by have := n.toNat_lt; omega⟩

def ofInt64 (n : Int64) : WideInt :=
  ⟨n.toInt, by have := n.le_toInt; omega, by have := n.toInt_lt; omega⟩

end WideInt

inductive Json
  | null
  | bool (b : Bool)
  | integer (n : WideInt)
  | float (x : Float)
  | string (s : String)
  | array (items : List Json)
  | object (members : List (String × Json))
  deriving Inhabited

namespace Json

def ofUInt64 (n : UInt64) : Json := .integer (.ofUInt64 n)

def ofInt64 (n : Int64) : Json := .integer (.ofInt64 n)

/-- Puts a member in front of the first greater name, unless its name is already there. -/
def insertEarlier (name : String) (value : Json) : List (String × Json) → List (String × Json)
  | [] => [(name, value)]
  | (n, v) :: rest =>
    if name < n then (name, value) :: (n, v) :: rest
    else if name = n then (n, v) :: rest
    else (n, v) :: insertEarlier name value rest

mutual

def normalize : Json → Json
  | .array items => .array (normalizeItems items)
  | .object members => .object (normalizeMembers members)
  | .null => .null
  | .bool b => .bool b
  | .integer n => .integer n
  | .float x => .float x
  | .string s => .string s

def normalizeItems : List Json → List Json
  | [] => []
  | item :: items => item.normalize :: normalizeItems items

def normalizeMembers : List (String × Json) → List (String × Json)
  | [] => []
  | (name, value) :: members => insertEarlier name value.normalize (normalizeMembers members)

end

mutual

/-- Names ascend strictly in every object. -/
def Ordered : Json → Prop
  | .array items => OrderedItems items
  | .object members => (members.map Prod.fst).Pairwise (· < ·) ∧ OrderedMembers members
  | _ => True

def OrderedItems : List Json → Prop
  | [] => True
  | item :: items => item.Ordered ∧ OrderedItems items

def OrderedMembers : List (String × Json) → Prop
  | [] => True
  | (_, value) :: members => value.Ordered ∧ OrderedMembers members

end

theorem mem_names_insertEarlier {name n : String} {value : Json} {ms : List (String × Json)} :
    n ∈ (insertEarlier name value ms).map Prod.fst ↔ n = name ∨ n ∈ ms.map Prod.fst := by
  induction ms with
  | nil => simp [insertEarlier]
  | cons m ms ih =>
    obtain ⟨k, v⟩ := m
    unfold insertEarlier
    split
    · simp
    · split
      · rename_i h
        subst h
        simp
      · simp only [List.map_cons, List.mem_cons, ih]
        constructor <;> rintro (h | h | h) <;> simp [h]

theorem pairwise_insertEarlier {name : String} {value : Json} {ms : List (String × Json)}
    (h : (ms.map Prod.fst).Pairwise (· < ·)) :
    ((insertEarlier name value ms).map Prod.fst).Pairwise (· < ·) := by
  induction ms with
  | nil => simp [insertEarlier]
  | cons m ms ih =>
    obtain ⟨k, v⟩ := m
    simp only [List.map_cons, List.pairwise_cons] at h
    unfold insertEarlier
    split
    · rename_i hlt
      simp only [List.map_cons, List.pairwise_cons, List.mem_cons]
      refine ⟨?_, h⟩
      rintro n (rfl | hn)
      · exact hlt
      · exact String.lt_trans hlt (h.1 n hn)
    · split
      · simpa using h
      · rename_i hlt hne
        simp only [List.map_cons, List.pairwise_cons]
        refine ⟨?_, ih h.2⟩
        intro n hn
        rcases mem_names_insertEarlier.1 hn with rfl | hn
        · exact Decidable.byContradiction fun hk =>
            hne (String.le_antisymm (String.not_lt.1 hk) (String.not_lt.1 hlt))
        · exact h.1 n hn

theorem orderedMembers_insertEarlier {name : String} {value : Json} {ms : List (String × Json)}
    (hv : value.Ordered) (h : OrderedMembers ms) :
    OrderedMembers (insertEarlier name value ms) := by
  induction ms with
  | nil => exact ⟨hv, trivial⟩
  | cons m ms ih =>
    obtain ⟨k, v⟩ := m
    unfold insertEarlier
    split
    · exact ⟨hv, h⟩
    · split
      · exact h
      · exact ⟨h.1, ih h.2⟩

mutual

theorem normalize_ordered : (j : Json) → j.normalize.Ordered
  | .array items => normalizeItems_ordered items
  | .object members => normalizeMembers_ordered members
  | .null | .bool _ | .integer _ | .float _ | .string _ => trivial

theorem normalizeItems_ordered : (items : List Json) → OrderedItems (normalizeItems items)
  | [] => trivial
  | item :: items => ⟨normalize_ordered item, normalizeItems_ordered items⟩

theorem normalizeMembers_ordered : (members : List (String × Json)) →
    ((normalizeMembers members).map Prod.fst).Pairwise (· < ·) ∧
      OrderedMembers (normalizeMembers members)
  | [] => ⟨List.Pairwise.nil, trivial⟩
  | (_, value) :: members =>
    ⟨pairwise_insertEarlier (normalizeMembers_ordered members).1,
      orderedMembers_insertEarlier (normalize_ordered value) (normalizeMembers_ordered members).2⟩

end

/-- Last member of a name. -/
def member? (name : String) : Json → Option Json
  | .object members => (members.reverse.find? (·.1 == name)).map Prod.snd
  | _ => none

end Json

/-- Event data of a transaction: any value, its objects sorted by name. -/
structure Payload where
  value : Json
  ordered : value.Ordered

namespace Payload

def ofJson (j : Json) : Payload := ⟨j.normalize, j.normalize_ordered⟩

def null : Payload := ⟨.null, trivial⟩

instance : Inhabited Payload := ⟨null⟩

theorem ext_value {a b : Payload} (h : a.value = b.value) : a = b := by
  obtain ⟨a, _⟩ := a
  obtain ⟨b, _⟩ := b
  subst h
  rfl

end Payload

end AuditedPetitions
