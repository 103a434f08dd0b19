import AuditedPetitions.Json.Document
import AuditedPetitions.Proofs.Json.Tokens
import Mathlib

/-! Reading undoes writing. The reader turns the tokens of a value back into the document of that
value, whatever containers it is inside of, and a document determines its value. So a compact text
determines its value, and an object can be told from everything that is written behind it. -/

namespace AuditedPetitions.Json
open Numeral

mutual

/-- What the text of a value says. -/
def document : Json → Document
  | .null => .null
  | .bool b => .bool b
  | .integer n => .integer n
  | .float x => .float x
  | .string s => .string s
  | .array items => .array (documentItems items)
  | .object members => .object (documentMembers members)

def documentItems : List Json → List Document
  | [] => []
  | item :: items => item.document :: documentItems items

def documentMembers : List (String × Json) → List (Option String × Document)
  | [] => []
  | (name, value) :: members => (some name, value.document) :: documentMembers members

end

mutual

/-- How deep arrays and objects nest. -/
def depth : Json → Nat
  | .array items => depthItems items + 1
  | .object members => depthMembers members + 1
  | _ => 0

def depthItems : List Json → Nat
  | [] => 0
  | item :: items => max item.depth (depthItems items)

def depthMembers : List (String × Json) → Nat
  | [] => 0
  | (_, value) :: members => max value.depth (depthMembers members)

end

mutual

theorem toJson?_document : (j : Json) → (room : Nat) → j.depth ≤ room →
    j.document.toJson? room = some j
  | .null, _, _ | .bool _, _, _ | .integer _, _, _ | .float _, _, _ | .string _, _, _ => rfl
  | .array items, room, h => by
    simp only [depth] at h
    have hroom : room ≠ 0 := by omega
    have hitems := itemsToJson?_document items (room - 1) (by omega)
    simp [document, Document.toJson?, hroom, hitems]
  | .object members, room, h => by
    simp only [depth] at h
    have hroom : room ≠ 0 := by omega
    have hmembers := membersToJson?_document members (room - 1) (by omega)
    simp [document, Document.toJson?, hroom, hmembers]

theorem itemsToJson?_document : (items : List Json) → (room : Nat) → depthItems items ≤ room →
    Document.itemsToJson? room (documentItems items) = some items
  | [], _, _ => rfl
  | item :: items, room, h => by
    simp only [depthItems] at h
    have hitem := toJson?_document item room (by omega)
    have hitems := itemsToJson?_document items room (by omega)
    simp [documentItems, Document.itemsToJson?, hitem, hitems]

theorem membersToJson?_document : (members : List (String × Json)) → (room : Nat) →
    depthMembers members ≤ room →
    Document.membersToJson? room (documentMembers members) = some members
  | [], _, _ => rfl
  | (name, value) :: members, room, h => by
    simp only [depthMembers] at h
    have hvalue := toJson?_document value room (by omega)
    have hmembers := membersToJson?_document members room (by omega)
    simp [documentMembers, Document.membersToJson?, hvalue, hmembers]

end

theorem document_injective {a b : Json} (h : a.document = b.document) : a = b := by
  have ha := toJson?_document a (max a.depth b.depth) (Nat.le_max_left ..)
  have hb := toJson?_document b (max a.depth b.depth) (Nat.le_max_right ..)
  rw [h, hb] at ha
  exact (Option.some.inj ha).symm

theorem unsigned?_digits (negative : Bool) (n : Nat) :
    Number.unsigned? negative (digits n) = some ⟨negative, digits n, none, none⟩ := by
  have htake : (digits n).takeWhile Char.isDigit = digits n :=
    List.takeWhile_eq_self_iff.2 fun _ hc => isDigit_of_mem_digits hc
  have hdrop : (digits n).dropWhile Char.isDigit = [] :=
    List.dropWhile_eq_nil_iff.2 fun _ hc => isDigit_of_mem_digits hc
  have hwhole : ¬ (digits n = [] ∨ ((digits n).head? = some '0' ∧ digits n ≠ ['0'])) := by
    rintro (h | ⟨h, hne⟩)
    · exact digits_ne_nil n h
    · exact hne (head_digits h)
  simp only [Number.unsigned?, htake, hdrop, if_neg hwhole, Number.tail?]

theorem ofChars?_digits (n : Nat) :
    Number.ofChars? (digits n) = some ⟨false, digits n, none, none⟩ := by
  unfold Number.ofChars?
  split
  · rename_i cs hcs
    have hminus : '-' ∈ digits n := by simp [hcs]
    exact absurd (isDigit_of_mem_digits hminus) (by decide)
  · exact unsigned?_digits false n

theorem ofInt_ne_word {n : Int} {w : List Char} {c : Char} (hc : c ∈ w)
    (hword : c ≠ '-' ∧ c.isDigit = false) : ofInt n ≠ w := by
  rintro rfl
  rcases mem_ofInt hc with h | h
  · exact hword.1 h
  · simp [hword.2] at h

theorem ofBare?_ofInt (n : WideInt) : Document.ofBare? (ofInt n.val) = some (.integer n) := by
  have hnull : ofInt n.val ≠ "null".toList := ofInt_ne_word (c := 'n') (by decide) (by decide)
  have htrue : ofInt n.val ≠ "true".toList := ofInt_ne_word (c := 't') (by decide) (by decide)
  have hfalse : ofInt n.val ≠ "false".toList := ofInt_ne_word (c := 'f') (by decide) (by decide)
  have hself := n.of?_val
  simp only [Document.ofBare?, if_neg hnull, if_neg htrue, if_neg hfalse]
  cases hn : n.val with
  | ofNat k =>
    rw [hn, Int.ofNat_eq_natCast] at hself
    have hvalue : WideInt.of? (value (digits k) : Int) = some n := by
      rw [value_digits]
      exact hself
    simp [ofInt, ofChars?_digits, Number.toJson?, Number.toInt?, Number.isWhole, hvalue]
  | negSucc k =>
    rw [hn, Int.negSucc_eq] at hself
    have hvalue : WideInt.of? (-(value (digits (k + 1)) : Int)) = some n := by
      rw [value_digits, Nat.cast_add_one]
      exact hself
    have hpos : value (digits (k + 1)) ≠ 0 := by
      rw [value_digits]
      exact Nat.succ_ne_zero k
    simp [ofInt, Number.ofChars?, unsigned?_digits, Number.toJson?, Number.toInt?, Number.isWhole,
      hvalue, hpos]

theorem run_cons (r : Reading) (t : Token) (ts : List Token) :
    r.run (t :: ts) = (r.step t).bind (·.run ts) := by
  rw [Reading.run]
  cases r.step t <;> rfl

theorem run_step {r s : Reading} {t : Token} (ts : List Token) (h : r.step t = some s) :
    r.run (t :: ts) = s.run ts := by
  simp [run_cons, h]

theorem run_done (d : Document) (ts : List Token) :
    Reading.run (.done d) ts = if ts = [] then some d else none := by
  cases ts with
  | nil => rfl
  | cons t ts => simp [run_cons, Reading.step]

mutual

theorem run_tokenList : (j : Json) → j.FloatFree → (opened : Bool) → (outer : List Frame) →
    (ts : List Token) → Reading.run (.beforeValue opened outer) (j.tokenList ++ ts) =
      (Reading.close j.document outer).run ts
  | .null, _, _, _, ts => run_step ts rfl
  | .bool b, _, _, _, ts => run_step ts (by cases b <;> rfl)
  | .integer n, _, _, outer, ts => run_step ts (by simp [Reading.step, ofBare?_ofInt, document])
  | .string s, _, _, _, ts => run_step ts rfl
  | .array [], _, opened, outer, ts => by
    have hopen : Reading.step (.beforeValue opened outer) .openArray =
        some (.beforeValue true (.array [] :: outer)) := rfl
    exact (run_step _ hopen).trans (run_step ts rfl)
  | .array (item :: items), hfree, opened, outer, ts => by
    have hopen : Reading.step (.beforeValue opened outer) .openArray =
        some (.beforeValue true (.array [] :: outer)) := rfl
    simp only [tokenList, List.cons_append, List.append_assoc]
    rw [run_step _ hopen, run_tokenList item hfree.1, Reading.close,
      run_tokenItems items hfree.2]
    rfl
  | .object [], _, opened, outer, ts => by
    have hopen : Reading.step (.beforeValue opened outer) .openObject =
        some (.beforeName true [] outer) := rfl
    exact (run_step _ hopen).trans (run_step ts rfl)
  | .object ((name, value) :: members), hfree, opened, outer, ts => by
    have hopen : Reading.step (.beforeValue opened outer) .openObject =
        some (.beforeName true [] outer) := rfl
    have hname : Reading.step (.beforeName true [] outer) (.quoted (some name)) =
        some (.beforeColon (some name) [] outer) := rfl
    have hcolon : Reading.step (.beforeColon (some name) [] outer) .colon =
        some (.beforeValue false (.object [] (some name) :: outer)) := rfl
    simp only [tokenList, List.cons_append, List.append_assoc]
    rw [run_step _ hopen, run_step _ hname, run_step _ hcolon, run_tokenList value hfree.1,
      Reading.close, run_tokenMembers members hfree.2]
    rfl

theorem run_tokenItems : (items : List Json) → FloatFreeItems items → (read : List Document) →
    (outer : List Frame) → (ts : List Token) →
    Reading.run (.afterItem read outer) (tokenItems items ++ ts) =
      (Reading.close (.array (read.reverse ++ documentItems items)) outer).run ts
  | [], _, read, outer, ts => by
    have hclose : Reading.step (.afterItem read outer) .closeArray =
        some (Reading.close (.array read.reverse) outer) := rfl
    simp only [tokenItems, List.cons_append, List.nil_append, documentItems, List.append_nil]
    exact run_step ts hclose
  | item :: items, hfree, read, outer, ts => by
    have hcomma : Reading.step (.afterItem read outer) .comma =
        some (.beforeValue false (.array read :: outer)) := rfl
    simp only [tokenItems, List.cons_append, List.append_assoc]
    rw [run_step _ hcomma, run_tokenList item hfree.1, Reading.close,
      run_tokenItems items hfree.2]
    simp [documentItems]

theorem run_tokenMembers : (members : List (String × Json)) → FloatFreeMembers members →
    (read : List (Option String × Document)) → (outer : List Frame) → (ts : List Token) →
    Reading.run (.afterMember read outer) (tokenMembers members ++ ts) =
      (Reading.close (.object (read.reverse ++ documentMembers members)) outer).run ts
  | [], _, read, outer, ts => by
    have hclose : Reading.step (.afterMember read outer) .closeObject =
        some (Reading.close (.object read.reverse) outer) := rfl
    simp only [tokenMembers, List.cons_append, List.nil_append, documentMembers, List.append_nil]
    exact run_step ts hclose
  | (name, value) :: members, hfree, read, outer, ts => by
    have hcomma : Reading.step (.afterMember read outer) .comma =
        some (.beforeName false read outer) := rfl
    have hname : Reading.step (.beforeName false read outer) (.quoted (some name)) =
        some (.beforeColon (some name) read outer) := rfl
    have hcolon : Reading.step (.beforeColon (some name) read outer) .colon =
        some (.beforeValue false (.object read (some name) :: outer)) := rfl
    simp only [tokenMembers, List.cons_append, List.append_assoc]
    rw [run_step _ hcomma, run_step _ hname, run_step _ hcolon, run_tokenList value hfree.1,
      Reading.close, run_tokenMembers members hfree.2]
    simp [documentMembers]

end

theorem run_written {j : Json} (h : j.FloatFree) (ts : List Token) :
    Reading.run (.beforeValue false []) (j.tokenList ++ ts) =
      if ts = [] then some j.document else none :=
  (run_tokenList j h false [] ts).trans (run_done _ ts)

theorem ofChars?_compact {j : Json} (h : j.FloatFree) :
    Document.ofChars? j.compact = some j.document := by
  have hrun := run_written h []
  rw [List.append_nil] at hrun
  simp [Document.ofChars?, tokens_compact h, hrun]

theorem ofText?_compactText {j : Json} (h : j.FloatFree) :
    Document.ofText? j.compactText = some j.document := by
  simp [Document.ofText?, compactText, ofChars?_compact h]

theorem object_eq_of_append {ms ns : List (String × Json)} {z : List Char}
    (hms : (object ms).FloatFree) (hns : (object ns).FloatFree)
    (h : compact (.object ms) ++ z = compact (.object ns)) :
    ms = ns := by
  have hread : (Document.ofChars? (compact (.object ms) ++ z)) = some (document (.object ns)) := by
    rw [h]
    exact ofChars?_compact hns
  rw [Document.ofChars?, tokens, scan_object ms hms, Option.bind_map,
    Option.bind_eq_some_iff] at hread
  obtain ⟨ts, -, hrun⟩ := hread
  rw [Function.comp_apply, run_written hms] at hrun
  split at hrun
  · have hobject := document_injective (Option.some.inj hrun)
    exact Json.object.inj hobject
  · cases hrun

theorem object_append_inj {ms ns : List (String × Json)} {r s : List Char}
    (hms : (object ms).FloatFree) (hns : (object ns).FloatFree)
    (h : compact (.object ms) ++ r = compact (.object ns) ++ s) : ms = ns ∧ r = s := by
  have heq : ms = ns := by
    rcases List.append_eq_append_iff.1 h with ⟨z, hz, -⟩ | ⟨z, hz, -⟩
    · exact object_eq_of_append hms hns hz.symm
    · exact (object_eq_of_append hns hms hz.symm).symm
  subst heq
  exact ⟨rfl, List.append_cancel_left h⟩

end AuditedPetitions.Json
