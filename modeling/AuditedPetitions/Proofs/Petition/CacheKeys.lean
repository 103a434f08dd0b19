import AuditedPetitions.Petition.Service
import AuditedPetitions.Proofs.Uuid.RoundTrip
import Mathlib

/-! One key, one query. A key names the petition, the whole listing, or the page and the limit of a
window, and for a positive limit these determine the offset; so no two reads that are cached share a
key. Keys of listings all begin with the key of the whole listing, and keys of petitions do not. -/

namespace AuditedPetitions

theorem Numeral.ofInt_injective {m n : Int} (h : ofInt m = ofInt n) : m = n := by
  have hminus (k : Nat) (rest : List Char) : digits k ≠ '-' :: rest := by
    intro hk
    have hmem : '-' ∈ digits k := hk ▸ List.mem_cons_self ..
    exact absurd (isDigit_of_mem_digits hmem) (by decide)
  cases m with
  | ofNat m =>
    cases n with
    | ofNat n => exact congrArg Int.ofNat (digits_injective h)
    | negSucc n => exact absurd h (hminus m _)
  | negSucc m =>
    cases n with
    | ofNat n => exact absurd h.symm (hminus n _)
    | negSucc n =>
      have hdigits := digits_injective (List.cons.inj h).2
      have hmn : m = n := by omega
      rw [hmn]

namespace CacheKey

theorem petition_injective {a b : Uuid} (h : petition a = petition b) : a = b := by
  have htext := congrArg String.toList h
  simp only [petition, String.toList_append] at htext
  exact Uuid.text_injective (String.toList_injective (List.append_cancel_left htext))

theorem listing_isPrefix_page (number limit : Int64) :
    listing.toList <+: (page number limit).toList := by
  simp only [page, String.toList_append, List.append_assoc]
  exact List.prefix_append _ _

theorem not_listing_isPrefix_petition (id : Uuid) : ¬ listing.toList <+: (petition id).toList := by
  rintro ⟨rest, hrest⟩
  simp only [petition, String.toList_append] at hrest
  have hparts := (List.append_inj hrest (by decide)).1
  exact absurd hparts (by decide)

theorem listing_ne_page (number limit : Int64) : listing ≠ page number limit := by
  intro h
  have hlength := congrArg (fun s => s.toList.length) h
  simp [page, listing] at hlength

theorem page_injective {m n k l : Int64} (h : page m k = page n l) : m = n ∧ k = l := by
  have hcolon : ∀ i : Int, ∀ c ∈ Numeral.ofInt i, (c != ':') = true := by
    intro i c hc
    rw [bne_iff_ne]
    rintro rfl
    rcases Numeral.mem_ofInt hc with hc | hc
    · exact absurd hc (by decide)
    · exact absurd hc (by decide)
  have hsplit (i j : Int64) : (page i j).toList = (listing ++ ":page:").toList ++
      (Numeral.ofInt i.toInt ++ ':' :: ("limit:".toList ++ Numeral.ofInt j.toInt)) := by
    simp [page, Numeral.intText]
  have htext := congrArg String.toList h
  rw [hsplit, hsplit] at htext
  obtain ⟨hnumber, -, hlimit⟩ := Text.run_unique (p := (· != ':')) (hcolon _) (hcolon _)
    (by decide) (by decide) (List.append_cancel_left htext)
  exact ⟨Int64.toInt_inj.1 (Numeral.ofInt_injective hnumber),
    Int64.toInt_inj.1 (Numeral.ofInt_injective (List.append_cancel_left hlimit))⟩

end CacheKey

namespace Query

/-- The key under which the answer to a query is cached. -/
def HasKey (q : Query) (key : String) : Prop :=
  match q with
  | .petition id => key = CacheKey.petition id
  | .listing none offset => offset = 0 ∧ key = CacheKey.listing
  | .listing (some limit) offset => 0 < limit.toInt ∧ ∃ number : Int64,
    offset.toInt = (number.toInt - 1) * limit.toInt ∧ key = CacheKey.page number limit

theorem HasKey.listing_isPrefix {limit : Option Int64} {offset : Int64} {key : String}
    (h : (Query.listing limit offset).HasKey key) : CacheKey.listing.toList <+: key.toList := by
  cases limit with
  | none => rw [h.2]
  | some limit =>
    obtain ⟨-, number, -, rfl⟩ := h
    exact CacheKey.listing_isPrefix_page number limit

theorem HasKey.unique {q r : Query} {key : String} (hq : q.HasKey key) (hr : r.HasKey key) :
    q = r := by
  cases q with
  | petition a =>
    cases r with
    | petition b =>
      have hkey : CacheKey.petition a = CacheKey.petition b := Eq.trans (Eq.symm hq) hr
      rw [CacheKey.petition_injective hkey]
    | listing limit offset =>
      have hprefix := hr.listing_isPrefix
      rw [hq] at hprefix
      exact absurd hprefix (CacheKey.not_listing_isPrefix_petition a)
  | listing limit offset =>
    cases r with
    | petition b =>
      have hprefix := hq.listing_isPrefix
      rw [hr] at hprefix
      exact absurd hprefix (CacheKey.not_listing_isPrefix_petition b)
    | listing limit' offset' =>
      cases limit with
      | none =>
        cases limit' with
        | none => rw [hq.1, hr.1]
        | some limit' =>
          obtain ⟨-, number, -, hkey⟩ := hr
          exact absurd (hq.2.symm.trans hkey) (CacheKey.listing_ne_page number limit')
      | some limit =>
        cases limit' with
        | none =>
          obtain ⟨-, number, -, hkey⟩ := hq
          exact absurd (hr.2.symm.trans hkey) (CacheKey.listing_ne_page number limit)
        | some limit' =>
          obtain ⟨-, number, hoffset, hkey⟩ := hq
          obtain ⟨-, number', hoffset', hkey'⟩ := hr
          obtain ⟨hnumber, hlimit⟩ := CacheKey.page_injective (hkey.symm.trans hkey')
          have hsame : offset.toInt = offset'.toInt := by rw [hoffset, hoffset', hnumber, hlimit]
          rw [hlimit, Int64.toInt_inj.1 hsame]

end Query

/-- Pages of at least one petition. -/
structure Pagination.Positive (p : Pagination) : Prop where
  default_pos : 0 < p.defaultPageSize.toInt
  max_pos : 0 < p.maxPageSize.toInt

namespace PageRequest

/-- What a listing request asks the store for. -/
def query : PageRequest → Query
  | .all => .listing none 0
  | .page limit offset _ => .listing (some limit) offset

theorem offset_of_number? {ε : Type} {limit offset n : Int64} (hpos : 0 < limit.toInt)
    (h : number? (ε := ε) limit offset = .ok (some n)) :
    offset.toInt = (n.toInt - 1) * limit.toInt := by
  have one : (1 : Int64).toInt = 1 := by decide
  have hne : limit ≠ -1 := by
    rintro rfl
    exact absurd hpos (by decide)
  obtain ⟨rest, hrest, hn⟩ := Outcome.bind_eq_ok.1 h
  have hzero : limit ≠ 0 := by
    rintro rfl
    exact absurd hpos (by decide)
  rw [remInt64, if_neg hzero, Except.ok.injEq] at hrest
  subst hrest
  by_cases haligned : offset % limit = 0
  · rw [if_pos haligned] at hn
    obtain ⟨m, hm, hmn⟩ := Outcome.bind_eq_ok.1 hn
    cases hmn
    have hdiv : offset.toInt.tdiv limit.toInt * limit.toInt = offset.toInt := by
      refine Int.tdiv_mul_cancel_of_tmod_eq_zero ?_
      rw [← Int64.toInt_mod, haligned]
      rfl
    rw [addInt64] at hm
    split at hm
    · rename_i hrange
      cases hm
      rw [Int64.toInt_ofInt_of_le (by omega) (by omega), one, Int.add_sub_cancel,
        Int64.toInt_div_of_ne_right _ _ hne, hdiv]
    · cases hm
  · rw [if_neg haligned] at hn
    cases hn

theorem window_hasKey {limit : Int64} {offset : Option Int64} {request : PageRequest} {key : String}
    (hpos : 0 < limit.toInt) (h : window limit offset = .ok request)
    (hkey : request.cacheKey? = some key) : request.query.HasKey key := by
  obtain ⟨number, hnumber, hrequest⟩ := Outcome.bind_eq_ok.1 h
  cases hrequest
  cases number with
  | none => cases hkey
  | some n =>
    cases hkey
    exact ⟨hpos, n, offset_of_number? hpos hnumber, rfl⟩

theorem resolve_hasKey {limit offset : Option Int64} {config : Pagination} {request : PageRequest}
    {key : String} (hconfig : config.Positive) (h : resolve limit offset config = .ok request)
    (hkey : request.cacheKey? = some key) : request.query.HasKey key := by
  unfold resolve at h
  split at h
  · cases h
  · rename_i hrules
    cases limit with
    | none =>
      cases offset with
      | none =>
        cases h
        cases hkey
        exact ⟨rfl, rfl⟩
      | some offset => exact window_hasKey hconfig.default_pos h hkey
    | some limit =>
      refine window_hasKey ?_ h hkey
      have hlimit : ¬ limit < 1 := by
        intro hlt
        simp only [brokenRule?, Option.any_some, hlt, decide_true, if_true] at hrules
        split at hrules <;> cases hrules
      have one : (1 : Int64).toInt = 1 := by decide
      rw [Int64.lt_iff_toInt_lt, one] at hlimit
      have hmin : min limit config.maxPageSize = limit ∨
          min limit config.maxPageSize = config.maxPageSize := by
        simp only [Min.min]
        split
        · exact .inl rfl
        · exact .inr rfl
      cases hmin with
      | inl hmin =>
        rw [hmin]
        omega
      | inr hmin =>
        rw [hmin]
        exact hconfig.max_pos

end PageRequest

theorem Service.startList_eq (s : Service) (limit offset : Option Int64) :
    s.startList limit offset =
      match PageRequest.resolve limit offset s.settings.pagination with
      | .error f => .done (.error f)
      | .ok request =>
        request.cacheKey?.elim (.load request.query none) (.look request.query) := by
  unfold startList
  cases PageRequest.resolve limit offset s.settings.pagination with
  | error f => rfl
  | ok request =>
    dsimp only
    cases hkey : request.cacheKey? with
    | none => cases request <;> rfl
    | some key => cases request <;> rfl

end AuditedPetitions
