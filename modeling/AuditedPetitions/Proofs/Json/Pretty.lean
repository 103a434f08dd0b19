import AuditedPetitions.Proofs.Json.RoundTrip
import Mathlib

/-! Indented texts read back. The scanner passes over the blanks that a pretty text has between its
tokens, so it finds the tokens of the value whatever the indent. Nesting is what a reader with limited
room can refuse of a written value, and exactly beyond its room. -/

namespace AuditedPetitions.Json

theorem scan_blanks (n : Nat) (rest : List Char) :
    scan .between (List.replicate n ' ' ++ rest) = scan .between rest := by
  induction n with
  | zero => rfl
  | succ n ih =>
    rw [List.replicate_succ, List.cons_append, scan_silent _ rfl, ih]

theorem scan_newline (depth : Nat) (rest : List Char) :
    scan .between (newline depth ++ rest) = scan .between rest := by
  rw [newline, List.cons_append, scan_silent _ rfl, scan_blanks]

theorem delimited_newline (depth : Nat) (rest : List Char) : Delimited (newline depth ++ rest) :=
  delimited_cons _ (by decide)

theorem delimited_prettyItems (depth : Nat) (items : List Json) (rest : List Char) :
    Delimited (prettyItems depth items ++ rest) := by
  cases items with
  | nil =>
    rw [prettyItems, List.append_assoc]
    exact delimited_newline depth _
  | cons item items => exact delimited_cons _ (by decide)

theorem delimited_prettyMembers (depth : Nat) (members : List (String × Json)) (rest : List Char) :
    Delimited (prettyMembers depth members ++ rest) := by
  cases members with
  | nil =>
    rw [prettyMembers, List.append_assoc]
    exact delimited_newline depth _
  | cons m members => exact delimited_cons _ (by decide)

theorem scan_colon (rest : List Char) :
    scan .between (':' :: ' ' :: rest) = (scan .between rest).map (.colon :: ·) := by
  rw [scan_mark (t := .colon) _ rfl, scan_silent _ rfl]

mutual

theorem scan_pretty : (j : Json) → j.FloatFree → (depth : Nat) → (rest : List Char) →
    Delimited rest →
    scan .between (j.pretty depth ++ rest) = (scan .between rest).map (j.tokenList ++ ·)
  | .null, _, _, rest, hrest => scan_bare (List.cons_ne_nil _ _) isBareChar_nullWord hrest
  | .bool b, _, _, rest, hrest => scan_bare (word_ne_nil b) (isBareChar_word b) hrest
  | .integer n, _, _, rest, hrest => scan_bare (ofInt_ne_nil _) (isBareChar_ofInt _) hrest
  | .string s, _, _, rest, _ => scan_quote s rest
  | .array [], _, _, rest, _ => by
    simp only [pretty, tokenList, List.cons_append, List.nil_append]
    rw [scan_mark (t := .openArray) _ rfl, scan_mark (t := .closeArray) _ rfl]
    simp [Function.comp_def]
  | .array (item :: items), hfree, depth, rest, _ => by
    have hitem := scan_pretty item hfree.1 (depth + 1) _ (delimited_prettyItems depth items rest)
    have hitems := scan_prettyItems items hfree.2 depth rest
    simp only [pretty, tokenList, List.cons_append, List.append_assoc]
    rw [scan_mark (t := .openArray) _ rfl, scan_newline, hitem, hitems]
    simp [Function.comp_def]
  | .object [], _, _, rest, _ => by
    simp only [pretty, tokenList, List.cons_append, List.nil_append]
    rw [scan_mark (t := .openObject) _ rfl, scan_mark (t := .closeObject) _ rfl]
    simp [Function.comp_def]
  | .object ((name, value) :: members), hfree, depth, rest, _ => by
    have hvalue := scan_pretty value hfree.1 (depth + 1) _
      (delimited_prettyMembers depth members rest)
    have hmembers := scan_prettyMembers members hfree.2 depth rest
    simp only [pretty, tokenList, List.cons_append, List.append_assoc]
    rw [scan_mark (t := .openObject) _ rfl, scan_newline, scan_quote, scan_colon, hvalue, hmembers]
    simp [Function.comp_def]

theorem scan_prettyItems : (items : List Json) → FloatFreeItems items → (depth : Nat) →
    (rest : List Char) → scan .between (prettyItems depth items ++ rest) =
      (scan .between rest).map (tokenItems items ++ ·)
  | [], _, depth, rest => by
    rw [prettyItems, List.append_assoc, scan_newline]
    exact scan_mark (t := .closeArray) rest rfl
  | item :: items, hfree, depth, rest => by
    have hitem := scan_pretty item hfree.1 (depth + 1) _ (delimited_prettyItems depth items rest)
    have hitems := scan_prettyItems items hfree.2 depth rest
    simp only [prettyItems, tokenItems, List.cons_append, List.append_assoc]
    rw [scan_mark (t := .comma) _ rfl, scan_newline, hitem, hitems]
    simp [Function.comp_def]

theorem scan_prettyMembers : (members : List (String × Json)) → FloatFreeMembers members →
    (depth : Nat) → (rest : List Char) → scan .between (prettyMembers depth members ++ rest) =
      (scan .between rest).map (tokenMembers members ++ ·)
  | [], _, depth, rest => by
    rw [prettyMembers, List.append_assoc, scan_newline]
    exact scan_mark (t := .closeObject) rest rfl
  | (name, value) :: members, hfree, depth, rest => by
    have hvalue := scan_pretty value hfree.1 (depth + 1) _
      (delimited_prettyMembers depth members rest)
    have hmembers := scan_prettyMembers members hfree.2 depth rest
    simp only [prettyMembers, tokenMembers, List.cons_append, List.append_assoc]
    rw [scan_mark (t := .comma) _ rfl, scan_newline, scan_quote, scan_colon, hvalue, hmembers]
    simp [Function.comp_def]

end

theorem tokens_pretty {j : Json} (h : j.FloatFree) (depth : Nat) :
    tokens (j.pretty depth) = some j.tokenList := by
  have hscan := scan_pretty j h depth [] delimited_nil
  simpa [tokens, scan, Scan.finish] using hscan

theorem ofText?_prettyText {j : Json} (h : j.FloatFree) :
    Document.ofText? j.prettyText = some j.document := by
  have hrun := run_written h []
  rw [List.append_nil] at hrun
  simp [Document.ofText?, Document.ofChars?, prettyText, tokens_pretty h, hrun]

mutual

theorem toJson?_document_of_lt : (j : Json) → (room : Nat) → room < j.depth →
    j.document.toJson? room = none
  | .null, _, h | .bool _, _, h | .integer _, _, h | .float _, _, h | .string _, _, h =>
    absurd h (Nat.not_lt_zero _)
  | .array items, room, h => by
    simp only [depth] at h
    by_cases hroom : room = 0
    · simp [document, Document.toJson?, hroom]
    · have hitems := itemsToJson?_document_of_lt items (room - 1) (by omega)
      simp [document, Document.toJson?, hroom, hitems]
  | .object members, room, h => by
    simp only [depth] at h
    by_cases hroom : room = 0
    · simp [document, Document.toJson?, hroom]
    · have hmembers := membersToJson?_document_of_lt members (room - 1) (by omega)
      simp [document, Document.toJson?, hroom, hmembers]

theorem itemsToJson?_document_of_lt : (items : List Json) → (room : Nat) → room < depthItems items →
    Document.itemsToJson? room (documentItems items) = none
  | [], _, h => absurd h (Nat.not_lt_zero _)
  | item :: items, room, h => by
    simp only [depthItems] at h
    by_cases hitem : room < item.depth
    · simp [documentItems, Document.itemsToJson?, toJson?_document_of_lt item room hitem]
    · have hitems := itemsToJson?_document_of_lt items room (by omega)
      simp [documentItems, Document.itemsToJson?, hitems]

theorem membersToJson?_document_of_lt : (members : List (String × Json)) → (room : Nat) →
    room < depthMembers members →
    Document.membersToJson? room (documentMembers members) = none
  | [], _, h => absurd h (Nat.not_lt_zero _)
  | (name, value) :: members, room, h => by
    simp only [depthMembers] at h
    by_cases hvalue : room < value.depth
    · simp [documentMembers, Document.membersToJson?, toJson?_document_of_lt value room hvalue]
    · have hmembers := membersToJson?_document_of_lt members room (by omega)
      simp [documentMembers, Document.membersToJson?, hmembers]

end

theorem toJson?_document_eq (j : Json) (room : Nat) :
    j.document.toJson? room = if j.depth ≤ room then some j else none := by
  split
  · rename_i h
    exact toJson?_document j room h
  · rename_i h
    exact toJson?_document_of_lt j room (by omega)

theorem insertEarlier_of_lt {name : String} {value : Json} {ms : List (String × Json)}
    (h : ∀ n ∈ ms.map Prod.fst, name < n) : insertEarlier name value ms = (name, value) :: ms := by
  cases ms with
  | nil => rfl
  | cons m ms => rw [insertEarlier, if_pos (h m.1 (List.mem_cons_self ..))]

mutual

theorem normalize_of_ordered : (j : Json) → j.Ordered → j.normalize = j
  | .null, _ | .bool _, _ | .integer _, _ | .float _, _ | .string _, _ => by simp only [normalize]
  | .array items, h => by rw [normalize, normalizeItems_of_ordered items h]
  | .object members, h => by rw [normalize, normalizeMembers_of_ordered members h.1 h.2]

theorem normalizeItems_of_ordered : (items : List Json) → OrderedItems items →
    normalizeItems items = items
  | [], _ => rfl
  | item :: items, h => by
    rw [normalizeItems, normalize_of_ordered item h.1, normalizeItems_of_ordered items h.2]

theorem normalizeMembers_of_ordered : (members : List (String × Json)) →
    (members.map Prod.fst).Pairwise (· < ·) → OrderedMembers members →
    normalizeMembers members = members
  | [], _, _ => rfl
  | (name, value) :: members, hnames, h => by
    rw [List.map_cons, List.pairwise_cons] at hnames
    rw [normalizeMembers, normalize_of_ordered value h.1,
      normalizeMembers_of_ordered members hnames.2 h.2, insertEarlier_of_lt hnames.1]

end

end AuditedPetitions.Json

namespace AuditedPetitions

theorem Payload.ofJson_value (p : Payload) : ofJson p.value = p :=
  ext_value (Json.normalize_of_ordered p.value p.ordered)

end AuditedPetitions
