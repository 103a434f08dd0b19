import AuditedPetitions.Proofs.Petition.CacheKeys
import Mathlib

/-! Windows of the listing. With positive page sizes, a request is refused for a number out of its
range, stands for the whole listing, or becomes one window: its size, its start, and a number when
the start is a multiple of the size. Counting the pages from one costs the last of them: at the end
of the 64-bit range, with windows of a single petition, the number does not fit. Windows that carry
a number never share a key. -/

namespace AuditedPetitions

namespace Pagination

/-- Size of the windows: what the caller asks for up to the largest page, or else the usual page. -/
def sizeFor (config : Pagination) : Option Int64 → Int
  | some limit => min limit.toInt config.maxPageSize.toInt
  | none => config.defaultPageSize.toInt

end Pagination

namespace PageRequest

/-- The refusal that a caller's numbers deserve; a bad offset is told before a bad limit. -/
inductive Refusal (limit offset : Option Int64) : PetitionError → Prop
  | offset (negative : ∃ o ∈ offset, o.toInt < 0) :
    Refusal limit offset (.validation .offsetNotNegative)
  | limit (nonnegative : ∀ o ∈ offset, 0 ≤ o.toInt) (small : ∃ l ∈ limit, l.toInt < 1) :
    Refusal limit offset (.validation .limitPositive)

/-- The window that a request asks for. -/
structure Window (config : Pagination) (limit offset : Option Int64) (size start : Int64)
    (number : Option Int64) : Prop where
  sized : size.toInt = config.sizeFor limit
  begins : start = offset.getD 0
  aligned : number.isSome ↔ size.toInt ∣ start.toInt
  counted : ∀ p ∈ number, (p.toInt - 1) * size.toInt = start.toInt

/-- The only request without an answer: the page after the last one that has a number. -/
structure Unnumberable (config : Pagination) (limit offset : Option Int64) : Prop where
  single : config.sizeFor limit = 1
  last : offset = some Int64.maxValue

/-- What becomes of a request. Each outcome is of one of these four forms. -/
structure Resolved (config : Pagination) (limit offset : Option Int64)
    (outcome : Outcome PetitionError PageRequest) : Prop where
  refused : ∀ e, outcome = refuse e ↔ Refusal limit offset e
  whole : outcome = .ok .all ↔ limit = none ∧ offset = none
  window : ∀ size start number, outcome = .ok (.page size start number) →
    Window config limit offset size start number
  fault : ∀ f, outcome = .error (.arithmetic f) ↔
    f = .additionOverflow ∧ Unnumberable config limit offset

section number

variable {limit offset : Int64}

theorem remInt64_of_pos {ε : Type} (hpos : 0 < limit.toInt) :
    remInt64 (ε := ε) offset limit = .ok (offset % limit) := by
  refine if_neg ?_
  rintro rfl
  exact absurd hpos (by decide)

theorem mod_eq_zero_iff_dvd : offset % limit = 0 ↔ limit.toInt ∣ offset.toInt := by
  rw [Int.dvd_iff_tmod_eq_zero, ← Int64.toInt_mod, ← Int64.toInt_inj]
  exact Iff.rfl

theorem number?_of_not_dvd {ε : Type} (hpos : 0 < limit.toInt)
    (hdvd : ¬ limit.toInt ∣ offset.toInt) : number? (ε := ε) limit offset = .ok none := by
  have hrest : ¬ offset % limit = 0 := fun h => hdvd (mod_eq_zero_iff_dvd.1 h)
  rw [number?, remInt64_of_pos hpos]
  exact if_neg hrest

theorem number?_of_dvd {ε : Type} (hpos : 0 < limit.toInt) (hdvd : limit.toInt ∣ offset.toInt) :
    number? (ε := ε) limit offset = (addInt64 (offset / limit) 1).map some := by
  have hrest : offset % limit = 0 := mod_eq_zero_iff_dvd.2 hdvd
  rw [number?, remInt64_of_pos hpos]
  exact if_pos hrest

theorem addInt64_one_eq_error {ε : Type} {a : Int64} {e : Failure ε} :
    addInt64 a 1 = .error e ↔ e = .arithmetic .additionOverflow ∧ a = Int64.maxValue := by
  have one : (1 : Int64).toInt = 1 := by decide
  have top : Int64.maxValue.toInt = 9223372036854775807 := by decide
  have hlow := Int64.le_toInt a
  have hhigh := Int64.toInt_lt a
  rw [addInt64, one]
  split
  · rename_i hrange
    constructor
    · intro h
      cases h
    · intro h
      rw [h.2, top] at hrange
      omega
  · rename_i hrange
    have ha : a = Int64.maxValue := by
      rw [← Int64.toInt_inj, top]
      omega
    constructor
    · intro h
      exact ⟨(Except.error.inj h).symm, ha⟩
    · intro h
      rw [h.1]

/-- Only the last offset, with windows of a single petition, has no number. -/
theorem number?_eq_error {ε : Type} {e : Failure ε} (hpos : 0 < limit.toInt)
    (hoffset : 0 ≤ offset.toInt) :
    number? limit offset = .error e ↔
      e = .arithmetic .additionOverflow ∧ limit.toInt = 1 ∧ offset = Int64.maxValue := by
  have top : Int64.maxValue.toInt = 9223372036854775807 := by decide
  have hne : limit ≠ -1 := by
    rintro rfl
    exact absurd hpos (by decide)
  have hhigh := Int64.toInt_lt offset
  by_cases hdvd : limit.toInt ∣ offset.toInt
  · rw [number?_of_dvd hpos hdvd]
    have herror : (addInt64 (ε := ε) (offset / limit) 1).map some = .error e ↔
        addInt64 (offset / limit) 1 = .error e := by
      cases addInt64 (ε := ε) (offset / limit) 1 <;> simp [Except.map]
    have hquotient : (offset / limit).toInt = offset.toInt / limit.toInt := by
      rw [Int64.toInt_div_of_ne_right _ _ hne, Int.tdiv_eq_ediv_of_nonneg hoffset]
    have hlast : offset / limit = Int64.maxValue ↔
        limit.toInt = 1 ∧ offset = Int64.maxValue := by
      rw [← Int64.toInt_inj, ← Int64.toInt_inj, hquotient, top]
      constructor
      · intro h
        -- a quotient as large as the largest number leaves room for the divisor one only
        have hle : 9223372036854775807 * limit.toInt ≤ offset.toInt :=
          h ▸ Int.ediv_mul_le offset.toInt (by omega)
        omega
      · rintro ⟨hone, hmax⟩
        rw [hone, hmax, Int.ediv_one]
    rw [herror, addInt64_one_eq_error, hlast]
  · rw [number?_of_not_dvd hpos hdvd]
    refine ⟨nofun, ?_⟩
    rintro ⟨-, hone, -⟩
    exact absurd (hone ▸ Int.one_dvd _) hdvd

theorem number?_isSome {ε : Type} {number : Option Int64} (hpos : 0 < limit.toInt)
    (h : number? (ε := ε) limit offset = .ok number) :
    number.isSome ↔ limit.toInt ∣ offset.toInt := by
  by_cases hdvd : limit.toInt ∣ offset.toInt
  · rw [number?_of_dvd hpos hdvd] at h
    cases hsum : addInt64 (ε := ε) (offset / limit) 1 with
    | error e =>
      rw [hsum] at h
      cases h
    | ok n =>
      rw [hsum] at h
      cases h
      exact iff_of_true rfl hdvd
  · rw [number?_of_not_dvd hpos hdvd] at h
    cases h
    exact iff_of_false nofun hdvd

end number

section resolve

variable {config : Pagination} {limit offset : Option Int64}

theorem brokenRule?_eq_some {rule : Rule} :
    brokenRule? limit offset = some rule ↔ Refusal limit offset (.validation rule) := by
  have zero : (0 : Int64).toInt = 0 := by decide
  have one : (1 : Int64).toInt = 1 := by decide
  have hoffset : offset.any (· < 0) ↔ ∃ o ∈ offset, o.toInt < 0 := by
    simp [Int64.lt_iff_toInt_lt, zero, Option.any_eq_true]
  have hlimit : limit.any (· < 1) ↔ ∃ l ∈ limit, l.toInt < 1 := by
    simp [Int64.lt_iff_toInt_lt, one, Option.any_eq_true]
  rw [brokenRule?]
  split
  · rename_i h
    constructor
    · rintro ⟨⟩
      exact .offset (hoffset.1 h)
    · rintro (_ | ⟨hnonneg, -⟩)
      · rfl
      · obtain ⟨o, ho, hneg⟩ := hoffset.1 h
        exact absurd (hnonneg o ho) (by omega)
  · rename_i h
    have hnonneg : ∀ o ∈ offset, 0 ≤ o.toInt := by
      intro o ho
      by_contra hneg
      exact h (hoffset.2 ⟨o, ho, by omega⟩)
    split
    · rename_i hl
      constructor
      · rintro ⟨⟩
        exact .limit hnonneg (hlimit.1 hl)
      · rintro (hneg | _)
        · exact absurd (hoffset.2 hneg) h
        · rfl
    · rename_i hl
      constructor
      · intro hnone
        cases hnone
      · rintro (hneg | ⟨-, hsmall⟩)
        · exact absurd (hoffset.2 hneg) h
        · exact absurd (hlimit.2 hsmall) hl

theorem brokenRule?_eq_none (h : brokenRule? limit offset = none) :
    (∀ o ∈ offset, 0 ≤ o.toInt) ∧ ∀ l ∈ limit, 1 ≤ l.toInt := by
  have hfree (rule : Rule) : ¬ Refusal limit offset (.validation rule) := by
    intro hrule
    rw [brokenRule?_eq_some.2 hrule] at h
    cases h
  have hnonneg : ∀ o ∈ offset, 0 ≤ o.toInt := by
    intro o ho
    by_contra hneg
    exact hfree _ (.offset ⟨o, ho, by omega⟩)
  refine ⟨hnonneg, fun l hl => ?_⟩
  by_contra hsmall
  exact hfree _ (.limit hnonneg ⟨l, hl, by omega⟩)

theorem toInt_min (a b : Int64) : (min a b).toInt = min a.toInt b.toInt := by
  have hmin : min a b = if a ≤ b then a else b := rfl
  rw [hmin]
  split
  · rename_i h
    exact (min_eq_left (Int64.le_iff_toInt_le.1 h)).symm
  · rename_i h
    have hlt : ¬ a.toInt ≤ b.toInt := fun hle => h (Int64.le_iff_toInt_le.2 hle)
    exact (min_eq_right (by omega)).symm

theorem resolve_eq_window (hconfig : config.Positive) (hrules : brokenRule? limit offset = none)
    (hsome : ¬ (limit = none ∧ offset = none)) :
    ∃ size : Int64, size.toInt = config.sizeFor limit ∧ 0 < size.toInt ∧
      resolve limit offset config = window size offset := by
  unfold resolve
  rw [hrules]
  cases limit with
  | some l =>
    have hl : 1 ≤ l.toInt := (brokenRule?_eq_none hrules).2 l rfl
    have hmax := hconfig.max_pos
    refine ⟨min l config.maxPageSize, toInt_min _ _, ?_, rfl⟩
    rw [toInt_min]
    omega
  | none =>
    cases offset with
    | some o => exact ⟨config.defaultPageSize, rfl, hconfig.default_pos, rfl⟩
    | none => exact absurd ⟨rfl, rfl⟩ hsome

theorem window_eq_ok {size : Int64} {request : PageRequest} :
    window size offset = .ok request ↔ ∃ number,
      number? (ε := PetitionError) size (offset.getD 0) = .ok number ∧
        request = .page size (offset.getD 0) number := by
  rw [window, Outcome.bind_eq_ok]
  constructor
  · rintro ⟨number, hnumber, ⟨⟩⟩
    exact ⟨number, hnumber, rfl⟩
  · rintro ⟨number, hnumber, rfl⟩
    exact ⟨number, hnumber, rfl⟩

theorem window_eq_error {size : Int64} {e : Failure PetitionError} :
    window size offset = .error e ↔ number? size (offset.getD 0) = .error e := by
  rw [window, Outcome.bind_eq_error]
  exact or_iff_left nofun

theorem Refusal.exists_rule {e : PetitionError} (h : Refusal limit offset e) :
    ∃ rule, e = .validation rule := by
  cases h with
  | offset _ => exact ⟨_, rfl⟩
  | limit _ _ => exact ⟨_, rfl⟩

theorem Unnumberable.not_refusal (hconfig : config.Positive) (h : Unnumberable config limit offset)
    {e : PetitionError} : ¬ Refusal limit offset e := by
  obtain ⟨hsingle, rfl⟩ := h
  have hlast : (0 : Int) ≤ Int64.maxValue.toInt := by decide
  rintro (⟨o, ho, hneg⟩ | ⟨-, l, hl, hsmall⟩)
  · cases ho
    omega
  · cases hl
    have hmax := hconfig.max_pos
    simp only [Pagination.sizeFor] at hsingle
    omega

theorem resolved_of_broken (hconfig : config.Positive) {rule : Rule}
    (hrule : brokenRule? limit offset = some rule) :
    Resolved config limit offset (resolve limit offset config) := by
  have hrefusal := brokenRule?_eq_some.1 hrule
  have houtcome : resolve limit offset config = refuse (.validation rule) := by
    unfold resolve
    rw [hrule]
  rw [houtcome]
  constructor
  case refused =>
    intro e
    constructor
    · rintro ⟨⟩
      exact hrefusal
    · intro he
      obtain ⟨rule', rfl⟩ := he.exists_rule
      rw [brokenRule?_eq_some.2 he] at hrule
      cases hrule
      rfl
  case whole =>
    refine ⟨nofun, ?_⟩
    rintro ⟨rfl, rfl⟩
    cases hrule
  case window => exact nofun
  case fault => exact fun f => ⟨nofun, fun h => absurd hrefusal (h.2.not_refusal hconfig)⟩

theorem resolved_all : Resolved config none none (resolve none none config) := by
  constructor
  case refused =>
    refine fun e => ⟨nofun, ?_⟩
    rintro (⟨o, ⟨⟩, -⟩ | ⟨-, l, ⟨⟩, -⟩)
  case whole => exact ⟨fun _ => ⟨rfl, rfl⟩, fun _ => rfl⟩
  case window => exact nofun
  case fault => exact fun f => ⟨nofun, fun h => nomatch h.2.last⟩

theorem resolved_window (hconfig : config.Positive) (hrules : brokenRule? limit offset = none)
    (hsome : ¬ (limit = none ∧ offset = none)) :
    Resolved config limit offset (resolve limit offset config) := by
  obtain ⟨size, hsize, hpos, houtcome⟩ := resolve_eq_window hconfig hrules hsome
  have hstart : 0 ≤ (offset.getD 0).toInt := by
    cases offset with
    | none => exact le_of_eq rfl
    | some o => exact (brokenRule?_eq_none hrules).1 o rfl
  rw [houtcome]
  constructor
  case refused =>
    intro e
    constructor
    · intro h
      exact nomatch ((number?_eq_error hpos hstart).1 (window_eq_error.1 h)).1
    · intro he
      obtain ⟨rule, rfl⟩ := he.exists_rule
      rw [brokenRule?_eq_some.2 he] at hrules
      cases hrules
  case whole =>
    refine ⟨fun h => ?_, fun h => absurd h hsome⟩
    obtain ⟨number, -, hpage⟩ := window_eq_ok.1 h
    cases hpage
  case window =>
    intro size' start number h
    obtain ⟨number', hnumber, hpage⟩ := window_eq_ok.1 h
    cases hpage
    refine ⟨hsize, rfl, number?_isSome hpos hnumber, ?_⟩
    rintro p ⟨⟩
    exact (offset_of_number? hpos hnumber).symm
  case fault =>
    intro f
    have hlast : offset.getD 0 = Int64.maxValue ↔ offset = some Int64.maxValue := by
      cases offset with
      | none => exact iff_of_false (by decide) nofun
      | some o => exact (Option.some_inj (a := o)).symm
    rw [window_eq_error, number?_eq_error hpos hstart, Failure.arithmetic.injEq, hsize, hlast]
    exact and_congr_right fun _ => ⟨fun h => ⟨h.1, h.2⟩, fun h => ⟨h.single, h.last⟩⟩

theorem resolved (hconfig : config.Positive) :
    Resolved config limit offset (resolve limit offset config) := by
  cases hrules : brokenRule? limit offset with
  | some rule => exact resolved_of_broken hconfig hrules
  | none =>
    by_cases hsome : limit = none ∧ offset = none
    · obtain ⟨rfl, rfl⟩ := hsome
      exact resolved_all
    · exact resolved_window hconfig hrules hsome

end resolve

/-- Two accepted requests with one key are the same request, whatever page sizes they were
resolved with. -/
theorem resolve_eq_of_cacheKey? {config config' : Pagination}
    {limit offset limit' offset' : Option Int64} {r r' : PageRequest} {key : String}
    (hconfig : config.Positive) (hconfig' : config'.Positive)
    (h : resolve limit offset config = .ok r) (h' : resolve limit' offset' config' = .ok r')
    (hkey : r.cacheKey? = some key) (hkey' : r'.cacheKey? = some key) : r = r' := by
  have hquery : r.query = r'.query :=
    (resolve_hasKey hconfig h hkey).unique (resolve_hasKey hconfig' h' hkey')
  cases r with
  | all =>
    cases r' with
    | all => rfl
    | page size start number => cases hquery
  | page size start number =>
    cases r' with
    | all => cases hquery
    | page size' start' number' =>
      cases hquery
      cases number with
      | none => cases hkey
      | some p =>
        cases number' with
        | none => cases hkey'
        | some p' =>
          cases hkey
          rw [(CacheKey.page_injective (Option.some.inj hkey')).1]

theorem Resolved.exists_window {config : Pagination} {limit offset : Option Int64}
    {outcome : Outcome PetitionError PageRequest} (h : Resolved config limit offset outcome)
    (hrefusal : ∀ e, ¬ Refusal limit offset e) (hsome : ¬ (limit = none ∧ offset = none))
    (hnumber : ¬ Unnumberable config limit offset) :
    ∃ size start number, outcome = .ok (.page size start number) ∧
      Window config limit offset size start number := by
  rcases outcome with (e | fault) | (_ | ⟨size, start, number⟩)
  · exact absurd ((h.refused e).1 rfl) (hrefusal e)
  · exact absurd ((h.fault fault).1 rfl).2 hnumber
  · exact absurd (h.whole.1 rfl) hsome
  · exact ⟨size, start, number, rfl, h.window size start number rfl⟩

/-- With positive page sizes every request is refused, stands for the whole listing or becomes its
window, but for the one past the last number; and accepted requests with one key are the same. -/
theorem resolve_addresses {config : Pagination} (hconfig : config.Positive)
    (limit offset : Option Int64) :
    Resolved config limit offset (resolve limit offset config) ∧
      ((∀ e, ¬ Refusal limit offset e) → ¬ (limit = none ∧ offset = none) →
        ¬ Unnumberable config limit offset →
        ∃ size start number, resolve limit offset config = .ok (.page size start number) ∧
          Window config limit offset size start number) ∧
      ∀ (config' : Pagination) (limit' offset' : Option Int64) (r r' : PageRequest) (key : String),
        config'.Positive → resolve limit offset config = .ok r →
        resolve limit' offset' config' = .ok r' →
        r.cacheKey? = some key → r'.cacheKey? = some key → r = r' := by
  have hresolved : Resolved config limit offset (resolve limit offset config) := resolved hconfig
  refine ⟨hresolved, hresolved.exists_window, ?_⟩
  intro config' limit' offset' r r' key hconfig' h h' hkey hkey'
  exact resolve_eq_of_cacheKey? hconfig hconfig' h h' hkey hkey'

theorem resolve_addresses_last : Pagination.standard.Positive ∧
    resolve (some 1) (some Int64.maxValue) .standard = .error (.arithmetic .additionOverflow) ∧
    resolve (some 7) (some Int64.maxValue) .standard =
      .ok (.page 7 Int64.maxValue (some 1317624576693539402)) ∧
    Unnumberable .standard (some 1) (some Int64.maxValue) ∧
    Window .standard (some 7) (some Int64.maxValue) 7 Int64.maxValue
      (some 1317624576693539402) := by
  have hstandard : Pagination.standard.Positive := ⟨by decide, by decide⟩
  have hone : resolve (some 1) (some Int64.maxValue) .standard =
      .error (.arithmetic .additionOverflow) := by decide
  have hseven : resolve (some 7) (some Int64.maxValue) .standard =
      .ok (.page 7 Int64.maxValue (some 1317624576693539402)) := by decide
  have hfirst := (resolve_addresses hstandard (some 1) (some Int64.maxValue)).1
  have hother := (resolve_addresses hstandard (some 7) (some Int64.maxValue)).1
  exact ⟨hstandard, hone, hseven, ((hfirst.fault _).1 hone).2, hother.window _ _ _ hseven⟩

end PageRequest

end AuditedPetitions
