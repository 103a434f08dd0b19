import AuditedPetitions.Instant.Calendar

/-! Points in time, in Coordinated Universal Time, to the nanosecond. A leap second is a second
running on: its nanosecond lies between one and two milliards. What is read has leap seconds at the
end of a minute only, but an instant can be set to have one anywhere. The order is the order of the
fields, read through a whole number that determines the instant. -/

namespace AuditedPetitions

structure Instant where
  date : Date
  /-- Second of the day. -/
  second : Nat
  nano : Nat
  second_lt : second < 86400
  nano_lt : nano < 2000000000
  deriving DecidableEq

namespace Instant

instance : Inhabited Instant :=
  ⟨⟨⟨1970, 1, 1, by decide, by decide, by decide⟩, 0, 0, by decide, by decide⟩⟩

/-- Instant on a date, at a second of that day from 0 to 59 in each minute, or 60 for a leap
second. -/
def of? (date : Date) (hour minute second nano : Nat) : Option Instant :=
  if h : hour < 24 ∧ minute < 60 ∧ second ≤ 60 ∧ nano < 1000000000 then
    if hs : second = 60 then
      some ⟨date, hour * 3600 + minute * 60 + 59, 1000000000 + nano, by omega, by omega⟩
    else
      some ⟨date, hour * 3600 + minute * 60 + second, nano, by omega, by omega⟩
  else none

/-- Same instant of a local clock that is `offset` minutes ahead, in universal time. -/
def behind? (t : Instant) (offset : Int) : Option Instant :=
  let moved : Int := t.second - 60 * offset
  let day : Option Date :=
    if moved < 0 then t.date.previous? else if 86400 ≤ moved then t.date.next? else some t.date
  day.map fun date => ⟨date, (moved % 86400).toNat, t.nano, by omega, t.nano_lt⟩

def rank (t : Instant) : Int := (t.date.rank * 86400 + t.second) * 2000000000 + t.nano

theorem rank_injective {a b : Instant} (h : a.rank = b.rank) : a = b := by
  obtain ⟨da, sa, na, hsa, hna⟩ := a
  obtain ⟨db, sb, nb, hsb, hnb⟩ := b
  simp only [rank] at h
  have hn : na = nb := by omega
  have hs : sa = sb := by omega
  have hd : da = db := Date.rank_injective (by omega)
  subst hn hs hd
  rfl

instance : LT Instant := ⟨fun a b => a.rank < b.rank⟩

instance : LE Instant := ⟨fun a b => a.rank ≤ b.rank⟩

instance (a b : Instant) : Decidable (a < b) := inferInstanceAs (Decidable (a.rank < b.rank))

instance (a b : Instant) : Decidable (a ≤ b) := inferInstanceAs (Decidable (a.rank ≤ b.rank))

end Instant

end AuditedPetitions
