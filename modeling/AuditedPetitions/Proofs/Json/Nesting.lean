import AuditedPetitions.Proofs.Json.Tokens
import AuditedPetitions.Text.Blank

/-! Where a reader stands in a JSON text: outside of the string literals or in one, and inside of how
many brackets. A compact text ends where it began, and never leaves the brackets around it on the way;
a blank in it stands in a literal. So the text of an object ends at the first place that is outside of
all its brackets, and none is a proper beginning of another one. -/

namespace AuditedPetitions.Json
open Text (isBlankChar)

inductive Mode
  | outside
  | literal
  /-- In a literal, behind a backslash. -/
  | escaped
  deriving DecidableEq

structure Place where
  mode : Mode
  /-- Number of brackets that are open. -/
  depth : Nat
  deriving DecidableEq

def Place.next (p : Place) (c : Char) : Place :=
  match p.mode with
  | .outside =>
    if c = '"' then ⟨.literal, p.depth⟩
    else if c = '[' ∨ c = '{' then ⟨.outside, p.depth + 1⟩
    else if c = ']' ∨ c = '}' then ⟨.outside, p.depth - 1⟩
    else p
  | .literal =>
    if c = '"' then ⟨.outside, p.depth⟩ else if c = '\\' then ⟨.escaped, p.depth⟩ else p
  | .escaped => ⟨.literal, p.depth⟩

/-- Place behind a text. -/
def place (cs : List Char) : Place := cs.foldl Place.next ⟨.outside, 0⟩

/-- A text leads from one place to another, at no place is inside of fewer brackets than so many, and
has blanks in its literals only. -/
def Tidy (least : Nat) (p : Place) : List Char → Place → Prop
  | [], q => p = q
  | c :: cs, q => (p.mode = .outside → isBlankChar c = false) ∧ least ≤ (p.next c).depth ∧
    Tidy least (p.next c) cs q

namespace Tidy

variable {least : Nat} {p q r : Place} {xs ys : List Char}

theorem append (hx : Tidy least p xs q) (hy : Tidy least q ys r) : Tidy least p (xs ++ ys) r := by
  induction xs generalizing p with
  | nil =>
    obtain rfl : p = q := hx
    exact hy
  | cons c xs ih => exact ⟨hx.1, hx.2.1, ih hx.2.2⟩

theorem lower {less : Nat} (h : Tidy least p xs q) (hle : less ≤ least) : Tidy less p xs q := by
  induction xs generalizing p with
  | nil => exact h
  | cons c xs ih => exact ⟨h.1, hle.trans h.2.1, ih h.2.2⟩

theorem place_eq (h : Tidy least p xs q) : xs.foldl Place.next p = q := by
  induction xs generalizing p with
  | nil => exact h
  | cons c xs ih => exact ih h.2.2

theorem mode_ne (h : Tidy least p (xs ++ c :: ys) q) (hc : isBlankChar c = true) :
    (xs.foldl Place.next p).mode ≠ .outside := by
  induction xs generalizing p with
  | nil =>
    intro hmode
    have hblank := h.1 hmode
    rw [hc] at hblank
    cases hblank
  | cons d xs ih => exact ih h.2.2

theorem le_depth (h : Tidy least p (xs ++ ys) q) (hp : least ≤ p.depth) :
    least ≤ (xs.foldl Place.next p).depth := by
  induction xs generalizing p with
  | nil => exact hp
  | cons c xs ih => exact ih h.2.2 h.2.1

end Tidy

theorem bounds_of_isBareChar {c : Char} (h : isBareChar c = true) :
    43 ≤ c.toNat ∧ c.toNat ≤ 122 := by
  simp only [isBareChar, Char.isAlphanum, Char.isAlpha, Char.isUpper, Char.isLower, Char.isDigit,
    Bool.or_eq_true, Bool.and_eq_true, decide_eq_true_eq, beq_iff_eq, UInt32.le_iff_toNat_le] at h
  change (((((65 ≤ c.toNat ∧ c.toNat ≤ 90) ∨ (97 ≤ c.toNat ∧ c.toNat ≤ 122)) ∨
    (48 ≤ c.toNat ∧ c.toNat ≤ 57)) ∨ c = '-') ∨ c = '+') ∨ c = '.' at h
  rcases h with (((h | h) | rfl) | rfl) | rfl
  · omega
  · omega
  all_goals decide

theorem isBlankChar_bare {c : Char} (h : isBareChar c = true) : isBlankChar c = false := by
  have hbounds := bounds_of_isBareChar h
  simp only [isBlankChar, Text.inRanges, Text.blankRanges, List.any_cons, List.any_nil,
    Bool.or_eq_false_iff, Bool.and_eq_false_iff, decide_eq_false_iff_not, and_true]
  omega

theorem next_bare {c : Char} (h : isBareChar c = true) (n : Nat) :
    Place.next ⟨.outside, n⟩ c = ⟨.outside, n⟩ := by
  have hne : ∀ d ∈ ['"', '[', '\x7b', ']', '\x7d'], c ≠ d := by
    rintro d hd rfl
    have hmarks : ['"', '[', '\x7b', ']', '\x7d'].all (isBareChar · = false) = true := by decide
    have hmark := List.all_eq_true.1 hmarks c hd
    simp [h] at hmark
  simp only [List.mem_cons, List.not_mem_nil, or_false, forall_eq_or_imp, forall_eq] at hne
  simp [Place.next, hne]

theorem tidy_bare {cs : List Char} (h : ∀ c ∈ cs, isBareChar c = true) (n : Nat) :
    Tidy n ⟨.outside, n⟩ cs ⟨.outside, n⟩ := by
  induction cs with
  | nil => rfl
  | cons c cs ih =>
    have hc := h c List.mem_cons_self
    refine ⟨fun _ => isBlankChar_bare hc, ?_, ?_⟩
    · rw [next_bare hc]
    · rw [next_bare hc]
      exact ih fun d hd => h d (List.mem_cons_of_mem _ hd)

theorem tidy_literal {cs : List Char} (h : ∀ c ∈ cs, c ≠ '"' ∧ c ≠ '\\') (n : Nat) :
    Tidy n ⟨.literal, n⟩ cs ⟨.literal, n⟩ := by
  induction cs with
  | nil => rfl
  | cons c cs ih =>
    have hc := h c List.mem_cons_self
    have hnext : Place.next ⟨.literal, n⟩ c = ⟨.literal, n⟩ := by simp [Place.next, hc]
    refine ⟨nofun, ?_, ?_⟩
    · rw [hnext]
    · rw [hnext]
      exact ih fun d hd => h d (List.mem_cons_of_mem _ hd)

theorem tidy_escape (c : Char) (n : Nat) : Tidy n ⟨.literal, n⟩ (escape c) ⟨.literal, n⟩ := by
  have hpair (d : Char) : Tidy n ⟨.literal, n⟩ ['\\', d] ⟨.literal, n⟩ :=
    ⟨nofun, le_rfl, nofun, le_rfl, rfl⟩
  have hnoQuote : '"' ∉ Hex.lowerDigits := by decide
  have hnoSlash : '\\' ∉ Hex.lowerDigits := by decide
  unfold escape
  split
  · exact hpair _
  split
  · exact hpair _
  split
  · exact hpair _
  split
  · exact hpair _
  split
  · exact hpair _
  split
  · exact hpair _
  split
  · exact hpair _
  split
  · have hcode : ∀ d ∈ Hex.fixed 4 c.toNat, d ≠ '"' ∧ d ≠ '\\' := fun d hd =>
      ⟨ne_of_mem_of_not_mem (Hex.mem_fixed hd) hnoQuote,
        ne_of_mem_of_not_mem (Hex.mem_fixed hd) hnoSlash⟩
    exact (hpair 'u').append (tidy_literal hcode n)
  · rename_i hquote hslash _ _ _ _ _ _
    exact tidy_literal (by simp [hquote, hslash]) n

theorem tidy_quote (s : String) (n : Nat) : Tidy n ⟨.outside, n⟩ (quote s) ⟨.outside, n⟩ := by
  have hopen : Tidy n ⟨.outside, n⟩ ['"'] ⟨.literal, n⟩ := ⟨fun _ => by decide, le_rfl, rfl⟩
  have hclose : Tidy n ⟨.literal, n⟩ ['"'] ⟨.outside, n⟩ := ⟨nofun, le_rfl, rfl⟩
  have hchars (cs : List Char) : Tidy n ⟨.literal, n⟩ (cs.flatMap escape) ⟨.literal, n⟩ := by
    induction cs with
    | nil => rfl
    | cons c cs ih => exact (tidy_escape c n).append ih
  exact hopen.append ((hchars s.toList).append hclose)

theorem isBareChar_of_isDigit {c : Char} (h : c.isDigit = true) : isBareChar c = true := by
  simp [isBareChar, Char.isAlphanum, h]

theorem isBareChar_layout {digits : List Char} (h : ∀ c ∈ digits, c.isDigit = true) (e : Int) :
    ∀ c ∈ layout digits e, isBareChar c = true := by
  have hdigits : ∀ c ∈ digits, isBareChar c = true := fun c hc => isBareChar_of_isDigit (h c hc)
  have hnumber (n : Nat) : ∀ c ∈ Numeral.digits n, isBareChar c = true :=
    fun c hc => isBareChar_of_isDigit (Numeral.isDigit_of_mem_digits hc)
  have hzeros (n : Nat) : ∀ c ∈ List.replicate n '0', isBareChar c = true :=
    fun c hc => List.eq_of_mem_replicate hc ▸ by decide
  have hcons {c : Char} {cs : List Char} (hc : isBareChar c = true)
      (hcs : ∀ d ∈ cs, isBareChar d = true) : ∀ d ∈ c :: cs, isBareChar d = true :=
    List.forall_mem_cons.2 ⟨hc, hcs⟩
  have hdot : isBareChar '.' = true := by decide
  unfold layout
  dsimp only
  split
  · refine List.forall_mem_append.2 ⟨List.forall_mem_append.2 ⟨hdigits, hzeros _⟩, ?_⟩
    exact List.all_eq_true.1 (by decide)
  split
  · refine List.forall_mem_append.2 ⟨fun c hc => hdigits c (List.mem_of_mem_take hc), ?_⟩
    exact hcons hdot fun c hc => hdigits c (List.mem_of_mem_drop hc)
  split
  · exact hcons (by decide) (hcons hdot (List.forall_mem_append.2 ⟨hzeros _, hdigits⟩))
  · refine List.forall_mem_append.2 ⟨?_, hcons (by decide) ?_⟩
    · split
      · exact hdigits
      · rw [List.forall_mem_cons] at hdigits
        exact hcons hdigits.1 (hcons hdot hdigits.2)
      · exact List.forall_mem_nil _
    · split
      · exact hcons (by decide) (hnumber _)
      · exact hcons (by decide) (hnumber _)

theorem isBareChar_floatChars (x : Float) : ∀ c ∈ floatChars x, isBareChar c = true := by
  have hsign : ∀ c ∈ (if x.toBits < 0x8000000000000000 then [] else ['-']),
      isBareChar c = true := by
    split
    · exact List.forall_mem_nil _
    · exact List.all_eq_true.1 (by decide)
  simp only [floatChars]
  split
  · exact List.forall_mem_append.2 ⟨hsign, List.all_eq_true.1 (by decide)⟩
  · refine List.forall_mem_append.2 ⟨hsign, isBareChar_layout ?_ _⟩
    exact fun c hc => Numeral.isDigit_of_mem_digits hc

theorem tidy_mark {c : Char} (h : c = ',' ∨ c = ':') (n : Nat) :
    Tidy n ⟨.outside, n⟩ [c] ⟨.outside, n⟩ := by
  rcases h with rfl | rfl
  · exact ⟨fun _ => by decide, le_rfl, rfl⟩
  · exact ⟨fun _ => by decide, le_rfl, rfl⟩

theorem tidy_wrap {opening closing : Char} {body : List Char} {n : Nat}
    (h : opening = '[' ∧ closing = ']' ∨ opening = '\x7b' ∧ closing = '\x7d')
    (hbody : Tidy (n + 1) ⟨.outside, n + 1⟩ body ⟨.outside, n + 1⟩) :
    Tidy n ⟨.outside, n⟩ (opening :: body ++ [closing]) ⟨.outside, n⟩ := by
  have hinside : Tidy n ⟨.outside, n + 1⟩ body ⟨.outside, n + 1⟩ := hbody.lower (Nat.le_succ n)
  rcases h with ⟨rfl, rfl⟩ | ⟨rfl, rfl⟩
  · have hopen : Tidy n ⟨.outside, n⟩ ['['] ⟨.outside, n + 1⟩ :=
      ⟨fun _ => by decide, Nat.le_succ n, rfl⟩
    have hclose : Tidy n ⟨.outside, n + 1⟩ [']'] ⟨.outside, n⟩ :=
      ⟨fun _ => by decide, le_rfl, rfl⟩
    exact hopen.append (hinside.append hclose)
  · have hopen : Tidy n ⟨.outside, n⟩ ['\x7b'] ⟨.outside, n + 1⟩ :=
      ⟨fun _ => by decide, Nat.le_succ n, rfl⟩
    have hclose : Tidy n ⟨.outside, n + 1⟩ ['\x7d'] ⟨.outside, n⟩ :=
      ⟨fun _ => by decide, le_rfl, rfl⟩
    exact hopen.append (hinside.append hclose)

mutual

theorem tidy_compact : (j : Json) → (n : Nat) → Tidy n ⟨.outside, n⟩ j.compact ⟨.outside, n⟩
  | .null, n => tidy_bare isBareChar_nullWord n
  | .bool b, n => tidy_bare (isBareChar_word b) n
  | .integer k, n => tidy_bare (isBareChar_ofInt k.val) n
  | .float x, n => tidy_bare (isBareChar_floatChars x) n
  | .string s, n => tidy_quote s n
  | .array [], n => by
    have hempty : Tidy (n + 1) ⟨.outside, n + 1⟩ [] ⟨.outside, n + 1⟩ := rfl
    exact tidy_wrap (.inl ⟨rfl, rfl⟩) hempty
  | .array (item :: items), n => by
    obtain ⟨body, hbody, hitems⟩ := tidy_compactItems items (n + 1)
    have hwrap := tidy_wrap (.inl ⟨rfl, rfl⟩) ((tidy_compact item (n + 1)).append hitems)
    simpa [compact, hbody] using hwrap
  | .object members, n => by
    obtain ⟨body, hbody, hmembers⟩ := tidy_object members (n + 1)
    rw [hbody]
    exact tidy_wrap (.inr ⟨rfl, rfl⟩) hmembers

theorem tidy_compactItems : (items : List Json) → (n : Nat) →
    ∃ body, compactItems items = body ++ [']'] ∧ Tidy n ⟨.outside, n⟩ body ⟨.outside, n⟩
  | [], n => ⟨[], rfl, rfl⟩
  | item :: items, n => by
    obtain ⟨body, hbody, hitems⟩ := tidy_compactItems items n
    refine ⟨',' :: (item.compact ++ body), by simp [compactItems, hbody], ?_⟩
    exact (tidy_mark (.inl rfl) n).append ((tidy_compact item n).append hitems)

theorem tidy_object : (members : List (String × Json)) → (n : Nat) →
    ∃ body, compact (.object members) = '\x7b' :: body ++ ['\x7d'] ∧
      Tidy n ⟨.outside, n⟩ body ⟨.outside, n⟩
  | [], n => ⟨[], rfl, rfl⟩
  | (name, value) :: members, n => by
    obtain ⟨body, hbody, hmembers⟩ := tidy_compactMembers members n
    refine ⟨quote name ++ ':' :: (value.compact ++ body), by simp [compact, hbody], ?_⟩
    have hvalue := (tidy_mark (.inr rfl) n).append ((tidy_compact value n).append hmembers)
    exact (tidy_quote name n).append hvalue

theorem tidy_compactMembers : (members : List (String × Json)) → (n : Nat) →
    ∃ body, compactMembers members = body ++ ['\x7d'] ∧ Tidy n ⟨.outside, n⟩ body ⟨.outside, n⟩
  | [], n => ⟨[], rfl, rfl⟩
  | (name, value) :: members, n => by
    obtain ⟨body, hbody, hmembers⟩ := tidy_compactMembers members n
    refine ⟨',' :: (quote name ++ ':' :: (value.compact ++ body)),
      by simp [compactMembers, hbody], ?_⟩
    have hvalue := (tidy_mark (.inr rfl) n).append ((tidy_compact value n).append hmembers)
    exact (tidy_mark (.inl rfl) n).append ((tidy_quote name n).append hvalue)

end

theorem mode_of_blank {j : Json} {before after : List Char} {c : Char}
    (h : j.compact = before ++ c :: after) (hc : isBlankChar c = true) :
    (place before).mode ≠ .outside := by
  have htidy := tidy_compact j 0
  rw [h] at htidy
  exact htidy.mode_ne hc

theorem object_eq_of_prefix {ms ns : List (String × Json)}
    (h : compact (.object ms) <+: compact (.object ns)) :
    compact (.object ms) = compact (.object ns) := by
  obtain ⟨body, hbody, hmembers⟩ := tidy_object ns 1
  rw [hbody] at h ⊢
  rcases List.prefix_concat_iff.1 h with h | ⟨rest, hrest⟩
  · exact h
  · exfalso
    -- at its end the shorter text would have left the brackets that the longer one is still in
    have hend : place (compact (.object ms)) = ⟨.outside, 0⟩ := (tidy_compact _ 0).place_eq
    obtain ⟨start, hstart, -⟩ := tidy_object ms 0
    rw [hstart, List.cons_append, List.cons_append] at hrest
    have hinside : 1 ≤ (place (compact (.object ms))).depth := by
      rw [hstart]
      rw [← (List.cons.inj hrest).2] at hmembers
      exact hmembers.le_depth le_rfl
    rw [hend] at hinside
    exact absurd hinside (by decide)

end AuditedPetitions.Json
