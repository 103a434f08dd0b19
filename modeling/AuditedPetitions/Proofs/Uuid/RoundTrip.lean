import AuditedPetitions.Uuid
import AuditedPetitions.Proofs.Json.Tokens
import Mathlib

/-! Written identifiers can be read again: their digits are lower case, so the text is taken neither
for a braced one nor for a URN, and the hyphens stand in their places. -/

namespace AuditedPetitions

theorem Hex.mapM_fixed (width n : Nat) : ∃ ds, (fixed width n).mapM digit? = some ds ∧
    ds.foldl (· * 16 + ·) 0 = n % 16 ^ width := by
  induction width generalizing n with
  | zero => exact ⟨[], rfl, by simp [Nat.mod_one]⟩
  | succ width ih =>
    obtain ⟨ds, hds, hval⟩ := ih (n / 16)
    refine ⟨ds ++ [n % 16], ?_, ?_⟩
    · simp [fixed, List.mapM_append, hds, digit?_digit]
    · have hstep : n % 16 ^ (width + 1) = n % 16 + 16 * (n / 16 % 16 ^ width) := by
        rw [Nat.pow_succ', Nat.mod_mul]
      rw [List.foldl_append, hval, hstep]
      simp only [List.foldl_cons, List.foldl_nil]
      omega

namespace Uuid

theorem ne_of_mem_fixed {width n : Nat} {c d : Char} (h : c ∈ Hex.fixed width n)
    (hd : d ∉ Hex.lowerDigits) : c ≠ d := by
  rintro rfl
  exact hd (Hex.mem_fixed h)

theorem ofDigits?_fixed (u : Uuid) : ofDigits? (Hex.fixed 32 u.val) = some u := by
  obtain ⟨ds, hds, hval⟩ := Hex.mapM_fixed 32 u.val
  have hlt : u.val < 16 ^ 32 := u.isLt
  have hself : u.val % size = u.val := Nat.mod_eq_of_lt u.isLt
  rw [Nat.mod_eq_of_lt hlt] at hval
  simp only [ofDigits?, Hex.length_fixed, if_true, hds, Option.map_some, hval]
  exact congrArg some (ext_val hself)

theorem filter_group {ds : List Char} (h : ∀ d ∈ ds, d ≠ '-') :
    (group ds).filter (· ≠ '-') = ds := by
  have hkeep {part : List Char} (hpart : part ⊆ ds) : part.filter (· ≠ '-') = part :=
    List.filter_eq_self.2 fun d hd => by simpa using h d (hpart hd)
  have htake (i n : Nat) : ((ds.drop i).take n) ⊆ ds :=
    fun d hd => List.mem_of_mem_drop (List.mem_of_mem_take hd)
  have hfirst : (ds.take 8).filter (· ≠ '-') = ds.take 8 := hkeep (List.take_subset 8 ds)
  have hlast : (ds.drop 20).filter (· ≠ '-') = ds.drop 20 := hkeep (List.drop_subset 20 ds)
  simp only [group, List.filter_append, List.filter_cons, hfirst, hlast, hkeep (htake _ _)]
  simp only [ne_eq, not_true_eq_false, decide_false, Bool.false_eq_true, if_false]
  have hjoin (i : Nat) : (ds.drop i).take 4 ++ ds.drop (i + 4) = ds.drop i := by
    have hparts := List.take_append_drop 4 (ds.drop i)
    rwa [List.drop_drop] at hparts
  rw [hjoin 16, hjoin 12, hjoin 8, List.take_append_drop]

theorem ofGrouped?_chars (u : Uuid) : ofGrouped? u.chars = some u := by
  have hfilter : u.chars.filter (· ≠ '-') = Hex.fixed 32 u.val :=
    filter_group fun _ hd => ne_of_mem_fixed hd (by decide)
  have hgroup : u.chars = group (u.chars.filter (· ≠ '-')) := by rw [hfilter, chars]
  simp only [ofGrouped?]
  rw [if_pos hgroup, hfilter]
  exact u.ofDigits?_fixed

theorem length_chars (u : Uuid) : u.chars.length = 36 := by
  simp [chars, group]

theorem ofText?_text (u : Uuid) : ofText? u.text = some u := by
  have hlength := u.length_chars
  have hfirst : ∃ c cs, u.chars = c :: cs ∧ c ∈ Hex.fixed 32 u.val := by
    cases hds : Hex.fixed 32 u.val with
    | nil =>
      have := Hex.length_fixed 32 u.val
      simp [hds] at this
    | cons c ds => exact ⟨c, _, by rw [chars, hds, group]; rfl, List.mem_cons_self ..⟩
  obtain ⟨c, cs, hchars, hc⟩ := hfirst
  have hbrace : c ≠ '{' := ne_of_mem_fixed hc (by decide)
  have hscheme : dropScheme? u.chars = none := by
    have hlower : c.toLower ≠ 'u' := by
      have key : Hex.lowerDigits.all (·.toLower ≠ 'u') = true := by decide
      simpa using List.all_eq_true.1 key c (Hex.mem_fixed hc)
    have hprefix : (u.chars.take 9).map Char.toLower ≠ "urn:uuid:".toList := by
      rw [hchars]
      intro h
      exact hlower (List.cons.inj h).1
    rw [dropScheme?, if_neg hprefix]
  simp only [ofText?, text, String.toList_ofList]
  unfold ofChars?
  rw [hscheme]
  split
  · rename_i rest _ h
    rw [hchars] at h
    exact absurd (List.cons.inj h).1 hbrace
  · rename_i h _
    cases h
  · rw [if_neg (by omega)]
    exact u.ofGrouped?_chars

theorem text_injective {u v : Uuid} (h : u.text = v.text) : u = v := by
  have hread := u.ofText?_text
  rw [h, v.ofText?_text] at hread
  exact (Option.some.inj hread).symm

end Uuid

end AuditedPetitions
