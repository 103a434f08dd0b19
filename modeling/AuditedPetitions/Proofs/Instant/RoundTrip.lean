import AuditedPetitions.Instant.Printer
import AuditedPetitions.Instant.Reader
import AuditedPetitions.Proofs.Text.Numerals
import Mathlib

/-! Written instants can be read again, for every year and within leap seconds. The short form goes
through the reader; the digest form has no reader, and is taken apart by its widths. Neither tells a
leap second that is not at the end of its minute from the second after it, which is what is read. -/

namespace AuditedPetitions.Instant
open Text Numeral

theorem number_append {width : Nat} {ds rest : List Char} (hne : ds ≠ [])
    (hds : ∀ c ∈ ds, c.isDigit = true) (hlen : ds.length ≤ width)
    (hend : ∀ c ∈ (rest.take (width - ds.length)).head?, c.isDigit = false) :
    number width (ds ++ rest) = some (value ds, rest) := by
  have hrest : (rest.take (width - ds.length)).takeWhile Char.isDigit = [] := by
    cases hr : rest.take (width - ds.length) with
    | nil => rfl
    | cons c cs =>
      have hc : c.isDigit = false := hend c (by simp [hr])
      simp [hc]
  have htake : ((ds ++ rest).take width).takeWhile Char.isDigit = ds := by
    rw [List.take_append, List.take_of_length_le hlen, List.takeWhile_append_of_pos hds, hrest,
      List.append_nil]
  simp [number, htake, hne]

theorem trimStart_digits {ds : List Char} (rest : List Char) (hne : ds ≠ [])
    (hds : ∀ c ∈ ds, c.isDigit = true) : trimStart (ds ++ rest) = ds ++ rest := by
  cases ds with
  | nil => exact absurd rfl hne
  | cons d ds =>
    exact trimStart_cons _ (isBlankChar_digit (hds d (List.mem_cons_self ..)))

theorem number_padded {width n : Nat} (hw : 0 < width) (hn : n < 10 ^ width) (rest : List Char) :
    number width (padded width n ++ rest) = some (n, rest) := by
  have hlen := length_padded hw hn
  rw [number_append (padded_ne_nil width n) (fun _ hc => isDigit_of_mem_padded hc) hlen.le
    (by simp [hlen]), value_padded]

theorem field_padded {width n : Nat} (hw : 0 < width) (hn : n < 10 ^ width) (rest : List Char) :
    field width (padded width n ++ rest) = some (n, rest) := by
  rw [field, trimStart_digits rest (padded_ne_nil width n) fun _ hc => isDigit_of_mem_padded hc]
  exact number_padded hw hn rest

theorem mark_dash (rest : List Char) : mark '-' ('-' :: rest) = some rest := rfl

theorem mark_colon (rest : List Char) : mark ':' (':' :: rest) = some rest := rfl

theorem number_signed (n : Nat) (rest : List Char) :
    number (padded 4 n ++ '-' :: rest).length (padded 4 n ++ '-' :: rest) =
      some (n, '-' :: rest) := by
  have hend : ∀ c ∈ (List.take ((padded 4 n ++ '-' :: rest).length - (padded 4 n).length)
      ('-' :: rest)).head?, c.isDigit = false := by
    simp
  rw [number_append (padded_ne_nil 4 n) (fun _ hc => isDigit_of_mem_padded hc) (by simp) hend,
    value_padded]

theorem yearField_yearChars (year : Int) (rest : List Char) :
    yearField (yearChars year ++ '-' :: rest) = some (year, '-' :: rest) := by
  unfold yearChars
  split
  · rename_i hyear
    have hlt : year.toNat < 10 ^ 4 := by omega
    have hval : ((year.toNat : Nat) : Int) = year := by omega
    have htrim := trimStart_digits ('-' :: rest) (padded_ne_nil 4 year.toNat)
      fun _ hc => isDigit_of_mem_padded hc
    have hdigit : ∀ c cs, padded 4 year.toNat ++ '-' :: rest = c :: cs → c.isDigit = true := by
      intro c cs h
      cases hp : padded 4 year.toNat with
      | nil => exact absurd hp (padded_ne_nil 4 _)
      | cons d ds =>
        rw [hp] at h
        have hd : d = c := (List.cons.inj h).1
        have hmem : c ∈ padded 4 year.toNat := by simp [hp, hd]
        exact isDigit_of_mem_padded hmem
    unfold yearField
    rw [htrim]
    split
    · rename_i cs h
      exact absurd (hdigit _ _ h) (by decide)
    · rename_i cs h
      exact absurd (hdigit _ _ h) (by decide)
    · rw [number_padded (by decide) hlt, Option.map_some, hval]
  split
  · have hval : ((year.toNat : Nat) : Int) = year := by omega
    have htrim : trimStart ('+' :: (padded 4 year.toNat ++ '-' :: rest)) =
        '+' :: (padded 4 year.toNat ++ '-' :: rest) := rfl
    simp only [List.cons_append, yearField, htrim, number_signed, Option.map_some, hval]
  · have hval : -(((-year).toNat : Nat) : Int) = year := by omega
    have htrim : trimStart ('-' :: (padded 4 (-year).toNat ++ '-' :: rest)) =
        '-' :: (padded 4 (-year).toNat ++ '-' :: rest) := rfl
    simp only [List.cons_append, yearField, htrim, number_signed, Option.map_some, hval]

theorem month_lt (d : Date) : d.month < 10 ^ 2 := by
  have := d.month_range
  omega

theorem day_lt (d : Date) : d.day < 10 ^ 2 := by
  have := d.day_le
  omega

theorem dateField_dateChars (d : Date) (rest : List Char) :
    dateField (dateChars d ++ rest) = some (d, rest) := by
  simp only [dateField, dateChars, List.append_assoc, List.cons_append]
  simp only [yearField_yearChars, mark_dash, field_padded (by decide) (month_lt d),
    field_padded (by decide) (day_lt d), d.of?_self, Option.bind_eq_bind, Option.bind_some]
  rfl

theorem ext_fields {t u : Instant} (hd : t.date = u.date) (hs : t.second = u.second)
    (hn : t.nano = u.nano) : t = u := by
  cases t
  cases u
  simp only at hd hs hn
  subst hd hs hn
  rfl

/-- Instant that the written forms stand for: within a leap second away from the end of its minute,
the same fraction of the second after it. -/
def asRead (t : Instant) : Instant :=
  if h : 1000000000 ≤ t.nano ∧ t.second % 60 ≠ 59 then
    ⟨t.date, t.second + 1, t.nano - 1000000000, by have := t.second_lt; omega,
      by have := t.nano_lt; omega⟩
  else t

/-- A leap second, if it is one, is at the end of its minute. -/
def Readable (t : Instant) : Prop := 1000000000 ≤ t.nano → t.second % 60 = 59

theorem asRead_eq_self_iff {t : Instant} : t.asRead = t ↔ t.Readable := by
  unfold asRead
  split
  · rename_i h
    refine iff_of_false (fun heq => ?_) fun hleap => h.2 (hleap h.1)
    have hsecond : t.second + 1 = t.second := congrArg second heq
    omega
  · rename_i h
    exact iff_of_true rfl fun hleap => not_not.1 fun hsecond => h ⟨hleap, hsecond⟩

/-- A leap second in the middle of a minute. -/
def midMinuteLeap : Instant :=
  ⟨(default : Instant).date, 36004, 1333333333, by decide, by decide⟩

theorem not_readable_midMinuteLeap : ¬ midMinuteLeap.Readable := fun h =>
  absurd (h (by decide)) (by decide)

theorem midMinuteLeap_ne : midMinuteLeap ≠ midMinuteLeap.asRead := fun h =>
  not_readable_midMinuteLeap (asRead_eq_self_iff.1 h.symm)

theorem asRead_asRead (t : Instant) : t.asRead.asRead = t.asRead := by
  rw [asRead_eq_self_iff, Readable, asRead]
  split
  · have := t.nano_lt
    dsimp only
    omega
  · omega

theorem wholeChars_asRead (t : Instant) : t.asRead.wholeChars = t.wholeChars := by
  unfold asRead
  split
  · rename_i h
    have hhour : (t.second + 1) / 3600 = t.second / 3600 := by omega
    have hminute : (t.second + 1) / 60 % 60 = t.second / 60 % 60 := by omega
    have hsecond : (t.second + 1) % 60 + (t.nano - 1000000000) / 1000000000 =
        t.second % 60 + t.nano / 1000000000 := by omega
    simp only [wholeChars, clockChars, hour, minute, minuteSecond, hhour, hminute, hsecond]
  · rfl

theorem fraction_asRead (t : Instant) : t.asRead.fraction = t.fraction := by
  unfold asRead
  split
  · simp only [fraction]
    omega
  · rfl

theorem digestChars_asRead (t : Instant) : t.asRead.digestChars = t.digestChars := by
  rw [digestChars, wholeChars_asRead, fraction_asRead, digestChars]

theorem shortText_asRead (t : Instant) : t.asRead.shortText = t.shortText := by
  rw [shortText, shortChars, wholeChars_asRead, fraction_asRead, shortText, shortChars]

theorem of?_parts (t : Instant) :
    of? t.date t.hour t.minute t.minuteSecond t.fraction = some t.asRead := by
  have hs := t.second_lt
  have hn := t.nano_lt
  have hrange : t.hour < 24 ∧ t.minute < 60 ∧ t.minuteSecond ≤ 60 ∧ t.fraction < 1000000000 := by
    simp only [hour, minute, minuteSecond, fraction]
    omega
  rw [of?, dif_pos hrange, asRead]
  -- Second 60 is a leap second at the end of the minute; any other number an ordinary second.
  by_cases hlast : t.minuteSecond = 60
  · rw [dif_pos hlast]
    simp only [minuteSecond] at hlast
    rw [dif_neg (by omega)]
    refine congrArg some (ext_fields rfl ?_ ?_)
    · simp only [hour, minute]
      omega
    · simp only [fraction]
      omega
  · rw [dif_neg hlast]
    simp only [minuteSecond] at hlast
    split
    · refine congrArg some (ext_fields rfl ?_ ?_)
      · simp only [hour, minute, minuteSecond]
        omega
      · simp only [fraction]
        omega
    · refine congrArg some (ext_fields rfl ?_ ?_)
      · simp only [hour, minute, minuteSecond]
        omega
      · simp only [fraction]
        omega

theorem hour_lt (t : Instant) : t.hour < 10 ^ 2 := by
  have := t.second_lt
  simp only [hour]
  omega

theorem minute_lt (t : Instant) : t.minute < 10 ^ 2 := by
  simp only [minute]
  omega

theorem minuteSecond_lt (t : Instant) : t.minuteSecond < 10 ^ 2 := by
  have := t.nano_lt
  simp only [minuteSecond]
  omega

theorem fraction_lt (t : Instant) : t.fraction < 10 ^ 9 := by
  simp only [fraction]
  omega

theorem fractionField_padded {width n : Nat} (hw : 0 < width) (hle : width ≤ 9)
    (hn : n < 10 ^ width) (rest : List Char) :
    fractionField ('.' :: padded width n ++ 'Z' :: rest) =
      some (n * 10 ^ (9 - width), 'Z' :: rest) := by
  have hlen := length_padded hw hn
  have hdigits : ∀ c ∈ padded width n, c.isDigit = true := fun _ hc => isDigit_of_mem_padded hc
  have hZ : Char.isDigit 'Z' = false := by decide
  have hend : ∀ c ∈ (List.take (9 - (padded width n).length) ('Z' :: rest)).head?,
      c.isDigit = false := by
    rw [hlen]
    cases 9 - width <;> simp
  have hnumber := number_append (padded_ne_nil width n) hdigits (hlen.trans_le hle) hend
  have hwidth : ((List.take 9 (padded width n ++ 'Z' :: rest)).takeWhile Char.isDigit).length =
      width := by
    rw [List.take_append, List.take_of_length_le (hlen.trans_le hle),
      List.takeWhile_append_of_pos hdigits, hlen]
    cases 9 - width <;> simp [hlen]
  have hdrop : (padded width n ++ 'Z' :: rest).dropWhile Char.isDigit = 'Z' :: rest := by
    rw [List.dropWhile_append_of_pos hdigits]
    simp
  simp only [fractionField, List.cons_append, hnumber, hwidth, hdrop, value_padded,
    Option.bind_eq_bind, Option.bind_some]
  rfl

theorem fractionField_fractionChars {n : Nat} (hn : n < 10 ^ 9) (rest : List Char) :
    fractionField (fractionChars n ++ 'Z' :: rest) = some (n, 'Z' :: rest) := by
  unfold fractionChars
  split
  · subst n
    rfl
  split
  · have hval : n / 1000000 * 10 ^ (9 - 3) = n := by omega
    rw [fractionField_padded (by decide) (by decide) (by omega), hval]
  split
  · have hval : n / 1000 * 10 ^ (9 - 6) = n := by omega
    rw [fractionField_padded (by decide) (by decide) (by omega), hval]
  · have hval : n * 10 ^ (9 - 9) = n := by omega
    rw [fractionField_padded (by decide) (by decide) hn, hval]

theorem clockField_clockChars (t : Instant) (rest : List Char) :
    clockField t.date (t.clockChars ++ (fractionChars t.fraction ++ 'Z' :: rest)) =
      some (t.asRead, 'Z' :: rest) := by
  simp only [clockField, clockChars, List.append_assoc, List.cons_append]
  simp only [field_padded (by decide) t.hour_lt, mark_colon,
    field_padded (by decide) t.minute_lt, field_padded (by decide) t.minuteSecond_lt,
    fractionField_fractionChars t.fraction_lt, t.of?_parts, Option.bind_eq_bind, Option.bind_some]
  rfl

theorem behind?_zero (t : Instant) : t.behind? 0 = some t := by
  have hs := t.second_lt
  have hlow : ¬ ((t.second : Int) - 60 * 0 < 0) := by omega
  have hhigh : ¬ (86400 ≤ (t.second : Int) - 60 * 0) := by omega
  have hsecond : (((t.second : Int) - 60 * 0) % 86400).toNat = t.second := by omega
  simp only [behind?, if_neg hlow, if_neg hhigh, Option.map_some, hsecond]

theorem ofText?_shortText (t : Instant) : ofText? t.shortText = some t.asRead := by
  have hchars : t.shortChars =
      dateChars t.date ++ 'T' :: (t.clockChars ++ (fractionChars t.fraction ++ ['Z'])) := by
    simp [shortChars, wholeChars]
  simp only [ofText?, shortText, String.toList_ofList, ofChars?, hchars, dateField_dateChars,
    separator, clockField_clockChars, Option.bind_eq_bind, Option.bind_some]
  exact t.asRead.behind?_zero

theorem shortText_eq_iff {t u : Instant} : t.shortText = u.shortText ↔ t.asRead = u.asRead := by
  constructor
  · intro h
    have hread := ofText?_shortText t
    rw [h, ofText?_shortText u] at hread
    exact (Option.some.inj hread).symm
  · intro h
    rw [← t.shortText_asRead, h, u.shortText_asRead]

theorem mem_yearChars {year : Int} {c : Char} (h : c ∈ yearChars year) :
    c = '+' ∨ c = '-' ∨ c.isDigit = true := by
  unfold yearChars at h
  split at h
  · exact .inr (.inr (isDigit_of_mem_padded h))
  split at h
  · rcases List.mem_cons.1 h with rfl | h
    · exact .inl rfl
    · exact .inr (.inr (isDigit_of_mem_padded h))
  · rcases List.mem_cons.1 h with rfl | h
    · exact .inr (.inl rfl)
    · exact .inr (.inr (isDigit_of_mem_padded h))

theorem yearChars_cases (year : Int) :
    (0 ≤ year ∧ year ≤ 9999 ∧ yearChars year = padded 4 year.toNat) ∨
      ∃ sign, ((sign = '+' ∧ 0 ≤ year) ∨ (sign = '-' ∧ year < 0)) ∧
        yearChars year = sign :: padded 4 year.natAbs := by
  unfold yearChars
  split
  · rename_i h
    exact .inl ⟨h.1, h.2, rfl⟩
  split
  · have hval : year.toNat = year.natAbs := by omega
    exact .inr ⟨'+', .inl ⟨rfl, by omega⟩, by rw [hval]⟩
  · have hval : (-year).toNat = year.natAbs := by omega
    exact .inr ⟨'-', .inr ⟨rfl, by omega⟩, by rw [hval]⟩

theorem digits_ne_signed {i j m n : Nat} {sign : Char} (hsign : sign = '+' ∨ sign = '-') :
    digits i ++ padded 4 m ≠ digits j ++ sign :: padded 4 n := by
  intro h
  have hmem : sign ∈ digits i ++ padded 4 m := by simp [h]
  have hdigit : sign.isDigit = true := by
    rcases List.mem_append.1 hmem with h | h
    · exact isDigit_of_mem_digits h
    · exact isDigit_of_mem_padded h
  rcases hsign with rfl | rfl
  · exact absurd hdigit (by decide)
  · exact absurd hdigit (by decide)

theorem digits_year_inj {i j : Nat} {y z : Int}
    (h : digits i ++ yearChars y = digits j ++ yearChars z) : i = j ∧ y = z := by
  rcases yearChars_cases y with ⟨hy0, hy1, hy⟩ | ⟨c, hc, hy⟩
  · rcases yearChars_cases z with ⟨hz0, hz1, hz⟩ | ⟨d, hd, hz⟩
    · rw [hy, hz] at h
      have hlen : (padded 4 y.toNat).length = (padded 4 z.toNat).length := by
        rw [length_padded (by decide) (by omega), length_padded (by decide) (by omega)]
      have hparts := List.append_inj' h hlen
      have hyear := padded_injective hparts.2
      exact ⟨digits_injective hparts.1, by omega⟩
    · rw [hy, hz] at h
      exact absurd h (digits_ne_signed (hd.imp And.left And.left))
  · rcases yearChars_cases z with ⟨hz0, hz1, hz⟩ | ⟨d, hd, hz⟩
    · rw [hy, hz] at h
      exact absurd h.symm (digits_ne_signed (hc.imp And.left And.left))
    · rw [hy, hz] at h
      have hsign : ∀ e, e = '+' ∨ e = '-' → e.isDigit = false := by
        rintro e (rfl | rfl) <;> decide
      have hparts := run_unique (fun _ hm => isDigit_of_mem_digits hm)
        (fun _ hm => isDigit_of_mem_digits hm) (hsign c (hc.imp And.left And.left))
        (hsign d (hd.imp And.left And.left)) h
      have hyear := padded_injective hparts.2.2
      have hcd := hparts.2.1
      refine ⟨digits_injective hparts.1, ?_⟩
      rcases hc with ⟨rfl, hy0⟩ | ⟨rfl, hy0⟩
      · rcases hd with ⟨rfl, hz0⟩ | ⟨rfl, hz0⟩
        · omega
        · exact absurd hcd (by decide)
      · rcases hd with ⟨rfl, hz0⟩ | ⟨rfl, hz0⟩
        · exact absurd hcd (by decide)
        · omega

theorem digits_date_inj {i j : Nat} {d e : Date}
    (h : digits i ++ dateChars d = digits j ++ dateChars e) : i = j ∧ d = e := by
  have hlen (d : Date) : ('-' :: padded 2 d.month ++ '-' :: padded 2 d.day).length = 6 := by
    simp [length_padded (by decide) (month_lt d), length_padded (by decide) (day_lt d)]
  have hsplit (k : Nat) (d : Date) : digits k ++ dateChars d =
      (digits k ++ yearChars d.year) ++ ('-' :: padded 2 d.month ++ '-' :: padded 2 d.day) := by
    simp [dateChars]
  rw [hsplit, hsplit] at h
  have hparts := List.append_inj' h ((hlen d).trans (hlen e).symm)
  obtain ⟨hij, hyear⟩ := digits_year_inj hparts.1
  obtain ⟨hmonth, hrest⟩ := padded_append_inj (by decide) (month_lt d) (month_lt e)
    (List.cons.inj hparts.2).2
  have hday := padded_injective (List.cons.inj hrest).2
  have hself := d.of?_self
  rw [hyear, hmonth, hday, e.of?_self] at hself
  exact ⟨hij, (Option.some.inj hself).symm⟩

theorem ne_T_of_mem {i : Nat} {d : Date} {c : Char} (h : c ∈ digits i ++ dateChars d) :
    (c != 'T') = true := by
  have hcases : c = '+' ∨ c = '-' ∨ c.isDigit = true := by
    simp only [dateChars, List.mem_append, List.mem_cons] at h
    rcases h with h | (h | rfl | h) | rfl | h
    · exact .inr (.inr (isDigit_of_mem_digits h))
    · exact mem_yearChars h
    · exact .inr (.inl rfl)
    · exact .inr (.inr (isDigit_of_mem_padded h))
    · exact .inr (.inl rfl)
    · exact .inr (.inr (isDigit_of_mem_padded h))
  rcases hcases with rfl | rfl | h
  · decide
  · decide
  · rw [bne_iff_ne]
    rintro rfl
    exact absurd h (by decide)

/-- A number, the digest form of an instant and more text can be told apart, although the number and
the year run together. -/
theorem digits_digest_inj {i j : Nat} {t u : Instant} {r s : List Char}
    (h : digits i ++ (t.digestChars ++ r) = digits j ++ (u.digestChars ++ s)) :
    i = j ∧ t.asRead = u.asRead ∧ r = s := by
  have hsplit (k : Nat) (t : Instant) (r : List Char) : digits k ++ (t.digestChars ++ r) =
      (digits k ++ dateChars t.date) ++
        'T' :: (t.clockChars ++ '.' :: (padded 9 t.fraction ++ 'Z' :: r)) := by
    simp [digestChars, wholeChars]
  rw [hsplit, hsplit] at h
  obtain ⟨hfront, -, hback⟩ := run_unique (p := (· != 'T')) (fun _ => ne_T_of_mem)
    (fun _ => ne_T_of_mem) (by decide) (by decide) h
  obtain ⟨hij, hdate⟩ := digits_date_inj hfront
  simp only [clockChars, List.append_assoc, List.cons_append] at hback
  obtain ⟨hhour, hback⟩ := padded_append_inj (by decide) t.hour_lt u.hour_lt hback
  obtain ⟨hminute, hback⟩ := padded_append_inj (by decide) t.minute_lt u.minute_lt
    (List.cons.inj hback).2
  obtain ⟨hsecond, hback⟩ := padded_append_inj (by decide) t.minuteSecond_lt u.minuteSecond_lt
    (List.cons.inj hback).2
  obtain ⟨hfraction, hback⟩ := padded_append_inj (by decide) t.fraction_lt u.fraction_lt
    (List.cons.inj hback).2
  have hself := t.of?_parts
  rw [hdate, hhour, hminute, hsecond, hfraction, u.of?_parts] at hself
  exact ⟨hij, (Option.some.inj hself).symm, (List.cons.inj hback).2⟩

end AuditedPetitions.Instant
