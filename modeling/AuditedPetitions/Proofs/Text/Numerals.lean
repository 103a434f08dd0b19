import AuditedPetitions.Text.Blank
import AuditedPetitions.Text.Numeral
import Mathlib

/-! Numerals in running text. A text that goes on behind a numeral can be split again in one way
only: a shortest numeral ends at the first character that is no digit, a padded one at its width. -/

namespace AuditedPetitions

namespace Text

theorem run_unique {p : Char → Bool} {xs ys : List Char} {x y : Char} {r s : List Char}
    (hxs : ∀ c ∈ xs, p c = true) (hys : ∀ c ∈ ys, p c = true) (hx : p x = false)
    (hy : p y = false) (h : xs ++ x :: r = ys ++ y :: s) : xs = ys ∧ x = y ∧ r = s := by
  induction xs generalizing ys with
  | nil =>
    cases ys with
    | nil => simpa using h
    | cons c ys =>
      have hc : x = c := (List.cons.inj h).1
      have := hys c (List.mem_cons_self ..)
      simp [← hc, hx] at this
  | cons c xs ih =>
    cases ys with
    | nil =>
      have hc : c = y := (List.cons.inj h).1
      have := hxs c (List.mem_cons_self ..)
      simp [hc, hy] at this
    | cons d ys =>
      obtain ⟨hcd, ht⟩ := List.cons.inj h
      have hrest := ih (fun e he => hxs e (List.mem_cons_of_mem _ he))
        (fun e he => hys e (List.mem_cons_of_mem _ he)) ht
      rw [hcd, hrest.1]
      exact ⟨rfl, hrest.2⟩

theorem isDigit_bounds {c : Char} (h : c.isDigit = true) : 48 ≤ c.toNat ∧ c.toNat ≤ 57 := by
  simp only [Char.isDigit, Bool.and_eq_true, decide_eq_true_eq, UInt32.le_iff_toNat_le] at h
  exact h

theorem isBlankChar_digit {c : Char} (h : c.isDigit = true) : isBlankChar c = false := by
  have hc := isDigit_bounds h
  simp only [isBlankChar, inRanges, blankRanges, List.any_cons, List.any_nil, Bool.or_eq_false_iff,
    Bool.and_eq_false_iff, decide_eq_false_iff_not, and_true]
  omega

theorem trimStart_cons {c : Char} (cs : List Char) (h : isBlankChar c = false) :
    trimStart (c :: cs) = c :: cs := by
  simp [trimStart, h]

end Text

namespace Numeral

theorem head_digits {n : Nat} (h : (digits n).head? = some '0') : digits n = ['0'] := by
  induction n using Nat.strongRecOn with
  | ind n ih =>
    rcases Nat.lt_or_ge n 10 with hn | hn
    · have hone : digits n = [n.digitChar] := Nat.toDigits_of_lt_base hn
      rw [hone] at h ⊢
      simpa using h
    · have hsplit : digits n = digits (n / 10) ++ [(n % 10).digitChar] :=
        Nat.toDigits_of_base_le (by decide) hn
      have hfirst : (digits (n / 10)).head? = some '0' := by
        rw [hsplit, List.head?_append_of_ne_nil _ (digits_ne_nil _)] at h
        exact h
      have hzero := ih (n / 10) (by omega) hfirst
      have hval : n / 10 = 0 := digits_injective (hzero.trans (by decide))
      omega

theorem isDigit_of_mem_padded {width n : Nat} {c : Char} (h : c ∈ padded width n) :
    c.isDigit = true := by
  simp only [padded, List.mem_append, List.mem_replicate] at h
  rcases h with ⟨-, rfl⟩ | h
  · decide
  · exact isDigit_of_mem_digits h

theorem value_padded (width n : Nat) : value (padded width n) = n := by
  rw [padded, value, Nat.ofDigitChars_append, Nat.ofDigitChars_replicate_zero, Nat.mul_zero]
  exact value_digits n

theorem padded_injective {width m n : Nat} (h : padded width m = padded width n) : m = n := by
  rw [← value_padded width m, h, value_padded]

theorem length_padded {width n : Nat} (hw : 0 < width) (hn : n < 10 ^ width) :
    (padded width n).length = width := by
  have hlen : (digits n).length ≤ width := (Nat.length_toDigits_le_iff (by decide) hw).2 hn
  simp only [padded, List.length_append, List.length_replicate]
  omega

theorem padded_ne_nil (width n : Nat) : padded width n ≠ [] := by
  simp [padded, digits_ne_nil]

theorem padded_append_inj {width m n : Nat} {r s : List Char} (hw : 0 < width)
    (hm : m < 10 ^ width) (hn : n < 10 ^ width) (h : padded width m ++ r = padded width n ++ s) :
    m = n ∧ r = s := by
  have hlen : (padded width m).length = (padded width n).length := by
    rw [length_padded hw hm, length_padded hw hn]
  have hparts := List.append_inj h hlen
  exact ⟨padded_injective hparts.1, hparts.2⟩

theorem length_digits_lt_ten {n : Nat} (h : n < 10) : (digits n).length = 1 := by
  have : digits n = [n.digitChar] := Nat.toDigits_of_lt_base h
  rw [this]
  rfl

theorem mem_ofInt {n : Int} {c : Char} (h : c ∈ ofInt n) : c = '-' ∨ c.isDigit = true := by
  cases n with
  | ofNat n => exact .inr (isDigit_of_mem_digits h)
  | negSucc n =>
    simp only [ofInt, List.mem_cons] at h
    rcases h with rfl | h
    · exact .inl rfl
    · exact .inr (isDigit_of_mem_digits h)

end Numeral

end AuditedPetitions
