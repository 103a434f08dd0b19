import AuditedPetitions.Json.Token
import AuditedPetitions.Json.Writer
import AuditedPetitions.Proofs.Text.Numerals
import Mathlib

/-! The scanner undoes the writer: the tokens of a compact text are those that its value spells, and
whatever follows the text is scanned on its own. Only a word or a number needs to know what follows,
as its run has no end of its own. -/

namespace AuditedPetitions

theorem Hex.digit?_digit (n : Nat) : digit? (digit n) = some (n % 16) := by
  have key : ∀ k < 16, digit? (Nat.digitChar k) = some k := by decide
  exact key _ (Nat.mod_lt _ (by decide))

namespace Json
open Numeral

mutual

/-- No double at any depth. -/
def FloatFree : Json → Prop
  | .float _ => False
  | .array items => FloatFreeItems items
  | .object members => FloatFreeMembers members
  | _ => True

def FloatFreeItems : List Json → Prop
  | [] => True
  | item :: items => item.FloatFree ∧ FloatFreeItems items

def FloatFreeMembers : List (String × Json) → Prop
  | [] => True
  | (_, value) :: members => value.FloatFree ∧ FloatFreeMembers members

end

mutual

/-- Tokens that a value spells. -/
def tokenList : Json → List Token
  | .null => [.bare nullWord]
  | .bool b => [.bare (word b)]
  | .integer n => [.bare (ofInt n.val)]
  | .float x => [.bare (floatChars x)]
  | .string s => [.quoted (some s)]
  | .array [] => [.openArray, .closeArray]
  | .array (item :: items) => .openArray :: item.tokenList ++ tokenItems items
  | .object [] => [.openObject, .closeObject]
  | .object ((name, value) :: members) =>
    .openObject :: .quoted (some name) :: .colon :: value.tokenList ++ tokenMembers members

def tokenItems : List Json → List Token
  | [] => [.closeArray]
  | item :: items => .comma :: item.tokenList ++ tokenItems items

def tokenMembers : List (String × Json) → List Token
  | [] => [.closeObject]
  | (name, value) :: members =>
    .comma :: .quoted (some name) :: .colon :: value.tokenList ++ tokenMembers members

end

/-- A run of bare characters ends where this text begins. -/
def Delimited (rest : List Char) : Prop := ∀ c ∈ rest.head?, isBareChar c = false

theorem delimited_nil : Delimited [] := by simp [Delimited]

theorem delimited_cons {c : Char} (rest : List Char) (h : isBareChar c = false) :
    Delimited (c :: rest) := by
  intro d hd
  simp only [List.head?_cons, Option.mem_some_iff] at hd
  rw [← hd]
  exact h

theorem scan_cons (s : Scan) (c : Char) (cs : List Char) :
    scan s (c :: cs) = (s.step c).bind fun r => (scan r.2 cs).map (r.1 ++ ·) := by
  rw [scan]
  cases s.step c <;> rfl

theorem scan_silent {s t : Scan} {c : Char} (cs : List Char) (h : s.step c = some ([], t)) :
    scan s (c :: cs) = scan t cs := by
  simp [scan_cons, h]

theorem scan_mark {c : Char} {t : Token} (cs : List Char)
    (h : Scan.begin c = some ([t], .between)) :
    scan .between (c :: cs) = (scan .between cs).map (t :: ·) := by
  simp [scan_cons, Scan.step, h]

theorem begin_bare {c : Char} (h : isBareChar c = true) : Scan.begin c = some ([], .bare [c]) := by
  have hmarks : [' ', '\n', '\t', '\r', '[', ']', '{', '}', ',', ':', '"'].all
      (isBareChar · = false) = true := by decide
  have hne : ∀ d ∈ [' ', '\n', '\t', '\r', '[', ']', '{', '}', ',', ':', '"'], c ≠ d := by
    rintro d hd rfl
    have hmark := List.all_eq_true.1 hmarks c hd
    simp [h] at hmark
  simp only [List.mem_cons, List.not_mem_nil, or_false, forall_eq_or_imp, forall_eq] at hne
  simp [Scan.begin, hne, h]

theorem scan_bareRun (read cs rest : List Char) (hcs : ∀ c ∈ cs, isBareChar c = true)
    (hrest : Delimited rest) : scan (.bare read) (cs ++ rest) =
      (scan .between rest).map (.bare (read.reverse ++ cs) :: ·) := by
  induction cs generalizing read with
  | nil =>
    cases rest with
    | nil => simp [scan, Scan.finish]
    | cons c rest =>
      have hc : isBareChar c = false := hrest c rfl
      simp only [List.nil_append, List.append_nil, scan_cons, Scan.step, hc]
      cases Scan.begin c <;> simp [Function.comp_def]
  | cons c cs ih =>
    have hc : isBareChar c = true := hcs c (List.mem_cons_self ..)
    have hstep : Scan.step (.bare read) c = some ([], .bare (c :: read)) := by
      simp [Scan.step, hc]
    rw [List.cons_append, scan_silent _ hstep, ih _ fun d hd => hcs d (List.mem_cons_of_mem _ hd)]
    simp

theorem scan_bare {cs rest : List Char} (hne : cs ≠ []) (hcs : ∀ c ∈ cs, isBareChar c = true)
    (hrest : Delimited rest) :
    scan .between (cs ++ rest) = (scan .between rest).map (.bare cs :: ·) := by
  cases cs with
  | nil => exact absurd rfl hne
  | cons c cs =>
    have hc : isBareChar c = true := hcs c (List.mem_cons_self ..)
    have hstep : Scan.step .between c = some ([], .bare [c]) := begin_bare hc
    rw [List.cons_append, scan_silent _ hstep,
      scan_bareRun _ _ _ (fun d hd => hcs d (List.mem_cons_of_mem _ hd)) hrest]
    rfl

theorem isBareChar_ofInt (n : Int) : ∀ c ∈ ofInt n, isBareChar c = true := by
  intro c hc
  rcases mem_ofInt hc with rfl | h
  · decide
  · simp [isBareChar, Char.isAlphanum, h]

theorem ofInt_ne_nil (n : Int) : ofInt n ≠ [] := by
  cases n with
  | ofNat n => exact digits_ne_nil n
  | negSucc n => simp [ofInt]

theorem scan_hex (read : List Nat) {n : Nat} (h : n < 65536) (rest : List Char) :
    scan (.quoted read) ('\\' :: 'u' :: Hex.fixed 4 n ++ rest) = scan (.quoted (n :: read)) rest := by
  have hval : (((n / 16 / 16 / 16 % 16) * 16 + n / 16 / 16 % 16) * 16 + n / 16 % 16) * 16 + n % 16
      = n := by omega
  simp [Hex.fixed, scan_cons, Scan.step, Hex.digit?_digit, hval, Function.comp_def]

theorem scan_letter (read : List Nat) {c e : Char} (rest : List Char)
    (h : simpleEscape? c = some e) :
    scan (.quoted read) ('\\' :: c :: rest) = scan (.quoted (e.toNat :: read)) rest := by
  have hu : c ≠ 'u' := by
    rintro rfl
    have hnone : simpleEscape? 'u' = none := rfl
    rw [hnone] at h
    cases h
  have hslash : Scan.step (.quoted read) '\\' = some ([], .escaped read) := rfl
  have hletter : Scan.step (.escaped read) c = some ([], .quoted (e.toNat :: read)) := by
    simp [Scan.step, hu, h]
  rw [scan_silent _ hslash, scan_silent _ hletter]

theorem scan_escape (read : List Nat) (c : Char) (rest : List Char) :
    scan (.quoted read) (escape c ++ rest) = scan (.quoted (c.toNat :: read)) rest := by
  unfold escape
  split
  · subst c
    exact scan_letter read rest rfl
  split
  · subst c
    exact scan_letter read rest rfl
  split
  · subst c
    exact scan_letter read rest rfl
  split
  · subst c
    exact scan_letter read rest rfl
  split
  · subst c
    exact scan_letter read rest rfl
  split
  · subst c
    exact scan_letter read rest rfl
  split
  · subst c
    exact scan_letter read rest rfl
  split
  · exact scan_hex read (by omega) rest
  · rename_i hquote hslash _ _ _ _ _ hlow
    exact scan_silent _ (by simp [Scan.step, hquote, hslash, hlow])

theorem scan_escapes (read : List Nat) (cs rest : List Char) :
    scan (.quoted read) (cs.flatMap escape ++ rest) =
      scan (.quoted ((cs.map Char.toNat).reverse ++ read)) rest := by
  induction cs generalizing read with
  | nil => rfl
  | cons c cs ih =>
    rw [List.flatMap_cons, List.append_assoc, scan_escape, ih]
    simp

theorem isHalf_toNat (c : Char) : isHighHalf c.toNat = false ∧ isLowHalf c.toNat = false := by
  have h : c.toNat < 0xD800 ∨ 0xDFFF < c.toNat ∧ c.toNat < 0x110000 := c.valid
  simp only [isHighHalf, isLowHalf, Bool.and_eq_false_iff, decide_eq_false_iff_not]
  omega

theorem pairHalves_toNat (cs : List Char) : pairHalves (cs.map Char.toNat) = some cs := by
  induction cs with
  | nil => rfl
  | cons c cs ih =>
    have hc := isHalf_toNat c
    cases cs with
    | nil => simp [pairHalves, hc]
    | cons d cs =>
      simp only [List.map_cons] at ih
      simp [pairHalves, hc, ih]

theorem scan_quote (s : String) (rest : List Char) :
    scan .between (quote s ++ rest) = (scan .between rest).map (.quoted (some s) :: ·) := by
  have hopen : Scan.step .between '"' = some ([], .quoted []) := rfl
  have hclose (read : List Nat) : Scan.step (.quoted read) '"' =
      some ([.quoted ((pairHalves read.reverse).map String.ofList)], .between) := rfl
  rw [quote, List.append_assoc, List.cons_append, scan_silent _ hopen, scan_escapes,
    List.singleton_append, scan_cons, hclose]
  simp [pairHalves_toNat]

theorem delimited_compactItems (items : List Json) (rest : List Char) :
    Delimited (compactItems items ++ rest) := by
  cases items <;> exact delimited_cons _ (by decide)

theorem delimited_compactMembers (members : List (String × Json)) (rest : List Char) :
    Delimited (compactMembers members ++ rest) := by
  cases members <;> exact delimited_cons _ (by decide)

theorem isBareChar_nullWord : ∀ c ∈ nullWord, isBareChar c = true :=
  List.all_eq_true.1 (by decide)

theorem isBareChar_word (b : Bool) : ∀ c ∈ word b, isBareChar c = true := by
  cases b <;> exact List.all_eq_true.1 (by decide)

theorem word_ne_nil (b : Bool) : word b ≠ [] := by cases b <;> decide

mutual

theorem scan_compact : (j : Json) → j.FloatFree → (rest : List Char) → Delimited rest →
    scan .between (j.compact ++ rest) = (scan .between rest).map (j.tokenList ++ ·)
  | .null, _, rest, hrest => scan_bare (List.cons_ne_nil _ _) isBareChar_nullWord hrest
  | .bool b, _, rest, hrest => scan_bare (word_ne_nil b) (isBareChar_word b) hrest
  | .integer n, _, rest, hrest => scan_bare (ofInt_ne_nil _) (isBareChar_ofInt _) hrest
  | .string s, _, rest, _ => scan_quote s rest
  | .array [], _, rest, _ => by
    simp only [compact, tokenList, List.cons_append, List.nil_append]
    rw [scan_mark (t := .openArray) _ rfl, scan_mark (t := .closeArray) _ rfl]
    simp [Function.comp_def]
  | .array (item :: items), hfree, rest, _ => by
    have hitem := scan_compact item hfree.1 _ (delimited_compactItems items rest)
    have hitems := scan_compactItems items hfree.2 rest
    simp only [compact, tokenList, List.cons_append, List.append_assoc]
    rw [scan_mark (t := .openArray) _ rfl, hitem, hitems]
    simp [Function.comp_def]
  | .object members, hfree, rest, _ => scan_object members hfree rest

theorem scan_compactItems : (items : List Json) → FloatFreeItems items → (rest : List Char) →
    scan .between (compactItems items ++ rest) =
      (scan .between rest).map (tokenItems items ++ ·)
  | [], _, rest => scan_mark (t := .closeArray) rest rfl
  | item :: items, hfree, rest => by
    have hitem := scan_compact item hfree.1 _ (delimited_compactItems items rest)
    have hitems := scan_compactItems items hfree.2 rest
    simp only [compactItems, tokenItems, List.cons_append, List.append_assoc]
    rw [scan_mark (t := .comma) _ rfl, hitem, hitems]
    simp [Function.comp_def]

theorem scan_object : (members : List (String × Json)) → FloatFreeMembers members →
    (rest : List Char) → scan .between (compact (.object members) ++ rest) =
      (scan .between rest).map (tokenList (.object members) ++ ·)
  | [], _, rest => by
    simp only [compact, tokenList, List.cons_append, List.nil_append]
    rw [scan_mark (t := .openObject) _ rfl, scan_mark (t := .closeObject) _ rfl]
    simp [Function.comp_def]
  | (name, value) :: members, hfree, rest => by
    have hvalue := scan_compact value hfree.1 _ (delimited_compactMembers members rest)
    have hmembers := scan_compactMembers members hfree.2 rest
    simp only [compact, tokenList, List.cons_append, List.append_assoc]
    rw [scan_mark (t := .openObject) _ rfl, scan_quote, scan_mark (t := .colon) _ rfl, hvalue,
      hmembers]
    simp [Function.comp_def]

theorem scan_compactMembers : (members : List (String × Json)) → FloatFreeMembers members →
    (rest : List Char) → scan .between (compactMembers members ++ rest) =
      (scan .between rest).map (tokenMembers members ++ ·)
  | [], _, rest => scan_mark (t := .closeObject) rest rfl
  | (name, value) :: members, hfree, rest => by
    have hvalue := scan_compact value hfree.1 _ (delimited_compactMembers members rest)
    have hmembers := scan_compactMembers members hfree.2 rest
    simp only [compactMembers, tokenMembers, List.cons_append, List.append_assoc]
    rw [scan_mark (t := .comma) _ rfl, scan_quote, scan_mark (t := .colon) _ rfl, hvalue,
      hmembers]
    simp [Function.comp_def]

end

theorem tokens_compact {j : Json} (h : j.FloatFree) : tokens j.compact = some j.tokenList := by
  have hscan := scan_compact j h [] delimited_nil
  simpa [tokens, scan, Scan.finish] using hscan

end Json

end AuditedPetitions
