/-! Dates of the proleptic Gregorian calendar with year 0, between the first and the last year that
an instant can have. A date carries its validity, so no later step checks it again. -/

namespace AuditedPetitions

def minYear : Int := -262143

def maxYear : Int := 262142

def isLeapYear (year : Int) : Bool :=
  year % 4 == 0 && (year % 100 != 0 || year % 400 == 0)

def monthLength (year : Int) (month : Nat) : Nat :=
  if month = 2 then if isLeapYear year then 29 else 28
  else if month = 4 ∨ month = 6 ∨ month = 9 ∨ month = 11 then 30
  else 31

theorem monthLength_le (year : Int) (month : Nat) : monthLength year month ≤ 31 := by
  unfold monthLength
  split <;> split <;> omega

structure Date where
  year : Int
  month : Nat
  day : Nat
  year_range : minYear ≤ year ∧ year ≤ maxYear
  month_range : 1 ≤ month ∧ month ≤ 12
  day_range : 1 ≤ day ∧ day ≤ monthLength year month
  deriving DecidableEq

namespace Date

def of? (year : Int) (month day : Nat) : Option Date :=
  if h : (minYear ≤ year ∧ year ≤ maxYear) ∧ (1 ≤ month ∧ month ≤ 12) ∧
      (1 ≤ day ∧ day ≤ monthLength year month) then
    some ⟨year, month, day, h.1, h.2.1, h.2.2⟩
  else none

theorem of?_self (d : Date) : of? d.year d.month d.day = some d :=
  dif_pos ⟨d.year_range, d.month_range, d.day_range⟩

/-- Day after, unless it is the last one. -/
def next? (d : Date) : Option Date :=
  if d.day < monthLength d.year d.month then of? d.year d.month (d.day + 1)
  else if d.month < 12 then of? d.year (d.month + 1) 1
  else of? (d.year + 1) 1 1

/-- Day before, unless it is the first one. -/
def previous? (d : Date) : Option Date :=
  if 1 < d.day then of? d.year d.month (d.day - 1)
  else if 1 < d.month then of? d.year (d.month - 1) (monthLength d.year (d.month - 1))
  else of? (d.year - 1) 12 31

/-- Position in a calendar whose months all have 31 days; it grows with the date. -/
def rank (d : Date) : Int := (d.year * 12 + (d.month - 1)) * 31 + (d.day - 1)

theorem day_le (d : Date) : d.day ≤ 31 := Nat.le_trans d.day_range.2 (monthLength_le _ _)

theorem rank_injective {a b : Date} (h : a.rank = b.rank) : a = b := by
  have ha := a.day_le
  have hb := b.day_le
  obtain ⟨ya, ma, da, _, hma, hda⟩ := a
  obtain ⟨yb, mb, db, _, hmb, hdb⟩ := b
  simp only [rank] at h ha hb
  have : ya = yb := by omega
  have : ma = mb := by omega
  have : da = db := by omega
  subst_vars
  rfl

end Date

end AuditedPetitions
