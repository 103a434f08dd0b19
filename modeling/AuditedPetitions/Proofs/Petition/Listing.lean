import AuditedPetitions.Proofs.Petition.StoreLaws
import Mathlib

/-! The listing and its windows. Petitions stand in the order of their creation, the latest first, and
in that of their identifiers within one moment. No two of a store share an identifier, so exactly one
list holds each of them once in this order, however the store keeps them. A reader who asks for
windows of one size, one behind the other, until one is empty, has read this list. -/

namespace AuditedPetitions

namespace Petition

/-- Order of a listing: the later one first, and in one moment the one with the smaller
identifier. -/
def Precedes (a b : Petition) : Prop :=
  b.createdAt < a.createdAt ∨ a.createdAt = b.createdAt ∧ a.id < b.id

instance (a b : Petition) : Decidable (a.Precedes b) := inferInstanceAs (Decidable (_ ∨ _ ∧ _))

section order
variable {a b : Petition}

theorem precedes_iff : a.Precedes b ↔ b.createdAt.rank < a.createdAt.rank ∨
    a.createdAt.rank = b.createdAt.rank ∧ a.id.val < b.id.val := by
  have hmoment : a.createdAt = b.createdAt ↔ a.createdAt.rank = b.createdAt.rank :=
    ⟨congrArg Instant.rank, Instant.rank_injective⟩
  rw [Precedes, hmoment]
  exact Iff.rfl

theorem listedBefore_iff : a.listedBefore b = true ↔ b.createdAt.rank < a.createdAt.rank ∨
    a.createdAt.rank = b.createdAt.rank ∧ a.id.val ≤ b.id.val := by
  have hmoment : a.createdAt = b.createdAt ↔ a.createdAt.rank = b.createdAt.rank :=
    ⟨congrArg Instant.rank, Instant.rank_injective⟩
  rw [listedBefore, Bool.or_eq_true, Bool.and_eq_true, decide_eq_true_eq, decide_eq_true_eq,
    decide_eq_true_eq, hmoment]
  exact Iff.rfl

theorem listedBefore_trans (a b c : Petition) (hab : a.listedBefore b = true)
    (hbc : b.listedBefore c = true) : a.listedBefore c = true := by
  rw [listedBefore_iff] at *
  omega

theorem listedBefore_total (a b : Petition) : (a.listedBefore b || b.listedBefore a) = true := by
  rw [Bool.or_eq_true, listedBefore_iff, listedBefore_iff]
  omega

theorem Precedes.asymm (hab : a.Precedes b) : ¬ b.Precedes a := by
  rw [precedes_iff] at *
  omega

theorem precedes_of_listedBefore (h : a.listedBefore b = true) (hne : a.id ≠ b.id) :
    a.Precedes b := by
  have hval : a.id.val ≠ b.id.val := fun hsame => hne (Uuid.ext_val hsame)
  rw [listedBefore_iff] at h
  rw [precedes_iff]
  omega

end order

end Petition

namespace Store

/-- The petitions that are not deleted, each of them once, in their order. -/
structure Lists (s : Store) (ps : List Petition) : Prop where
  once : ∀ p, ps.count p = if s.raw p.id = some p ∧ p.deletedAt = none then 1 else 0
  ordered : ps.Pairwise Petition.Precedes

theorem mem_listing {s : Store} {p : Petition} :
    p ∈ s.listing ↔ s.raw p.id = some p ∧ p.deletedAt = none := by
  rw [listing, List.mem_mergeSort, List.mem_filter, Table.mem_rows_iff]
  simp [Petition.isDeleted, raw]

theorem nodup_ids_listing (s : Store) : (s.listing.map Petition.id).Nodup := by
  have hperm := (List.mergeSort_perm (s.petitions.rows.filter (!·.isDeleted))
    Petition.listedBefore).map Petition.id
  exact hperm.nodup_iff.2 (s.petitions.keep (!·.isDeleted)).keys_nodup

theorem lists_listing (s : Store) : s.Lists s.listing where
  once := by
    intro p
    have hnodup : s.listing.Nodup := s.nodup_ids_listing.of_map
    split
    · rename_i hlive
      exact List.count_eq_one_of_mem hnodup (mem_listing.2 hlive)
    · rename_i hdead
      exact List.count_eq_zero_of_not_mem fun hp => hdead (mem_listing.1 hp)
  ordered := by
    have hsorted := List.pairwise_mergeSort Petition.listedBefore_trans
      Petition.listedBefore_total (s.petitions.rows.filter (!·.isDeleted))
    rw [← listing] at hsorted
    have hdistinct := List.pairwise_map.1 s.nodup_ids_listing
    exact (hsorted.and hdistinct).imp fun h => Petition.precedes_of_listedBefore h.1 h.2

theorem Lists.unique {s t : Store} {ps qs : List Petition} (hs : s.Lists ps) (ht : t.Lists qs)
    (hraw : ∀ id, t.raw id = s.raw id) : qs = ps := by
  have hperm : qs.Perm ps := by
    refine List.perm_iff_count.2 fun p => ?_
    rw [hs.once, ht.once, hraw]
  exact hperm.eq_of_pairwise (fun _ _ _ _ hab hba => absurd hba hab.asymm) ht.ordered hs.ordered

theorem listing_eq_of_perm {s : Store} {ps : List Petition}
    (hperm : (s.petitions.rows.filter (!·.isDeleted)).Perm ps)
    (hordered : ps.Pairwise Petition.Precedes) : s.listing = ps :=
  ((List.mergeSort_perm _ _).trans hperm).eq_of_pairwise
    (fun _ _ _ _ hab hba => absurd hba hab.asymm) s.lists_listing.ordered hordered

theorem list_eq {s : Store} (h : s.available = true) (limit : Option Int64) (offset : Int64) :
    s.list limit offset = .ok (window limit offset s.listing) := by
  rw [list, checkAvailable, if_pos h]
  rfl

theorem list_window {s : Store} (h : s.available = true) {limit : Int64} (hpos : 1 ≤ limit.toInt)
    (offset : Int64) : s.list (some limit) offset =
      .ok ((s.listing.drop offset.toInt.toNat).take limit.toInt.toNat) := by
  have hlimit : ¬ limit < 0 := by
    have hzero : (0 : Int64).toInt = 0 := by decide
    rw [Int64.lt_iff_toInt_lt, hzero]
    omega
  rw [list_eq h]
  exact congrArg Except.ok (if_neg hlimit)

/-- What a reader holds who asks for windows of one size, from an offset on and one behind the other,
until one is empty. -/
inductive Browsed (s : Store) (limit : Int64) : Int64 → List Petition → Prop
  | last {offset : Int64} (empty : s.list (some limit) offset = .ok []) : Browsed s limit offset []
  | turn {offset next : Int64} {page rest : List Petition}
    (shown : s.list (some limit) offset = .ok page) (nonempty : page ≠ [])
    (moved : next.toInt = offset.toInt + limit.toInt) (onward : Browsed s limit next rest) :
    Browsed s limit offset (page ++ rest)

section browse
variable {s : Store} {limit offset : Int64}

theorem Browsed.eq_drop {held : List Petition} (h : s.Browsed limit offset held)
    (havailable : s.available = true) (hpos : 1 ≤ limit.toInt) (hoffset : 0 ≤ offset.toInt) :
    held = s.listing.drop offset.toInt.toNat := by
  induction h with
  | last empty =>
    rw [list_window havailable hpos, Except.ok.injEq, List.take_eq_nil_iff] at empty
    have hlimit : limit.toInt.toNat ≠ 0 := by omega
    exact (empty.resolve_left hlimit).symm
  | turn shown nonempty moved onward ih =>
    rw [list_window havailable hpos, Except.ok.injEq] at shown
    have hnext := Int.toNat_add hoffset (by omega : 0 ≤ limit.toInt)
    rw [ih (by omega), ← shown, moved, hnext, ← List.drop_drop, List.take_append_drop]

theorem browsed_drop (havailable : s.available = true) (hpos : 1 ≤ limit.toInt)
    (hroom : s.listing.length ≤ 2 ^ 62) (hoffset : offset.toInt = 0 ∨ limit.toInt ≤ offset.toInt) :
    s.Browsed limit offset (s.listing.drop offset.toInt.toNat) := by
  induction hleft : s.listing.length - offset.toInt.toNat using Nat.strong_induction_on
    generalizing offset with
  | _ left ih =>
    have hlimit := limit.toInt_lt
    have hwindow := list_window havailable hpos offset
    by_cases hend : s.listing.length ≤ offset.toInt.toNat
    · rw [List.drop_eq_nil_of_le hend] at hwindow ⊢
      rw [List.take_nil] at hwindow
      exact .last hwindow
    · -- an offset ahead of the end is zero or not below the size, so the next one is a number
      have hnext : (Int64.ofInt (offset.toInt + limit.toInt)).toInt =
          offset.toInt + limit.toInt := Int64.toInt_ofInt_of_le (by omega) (by omega)
      have hnat := Int.toNat_add (by omega : 0 ≤ offset.toInt) (by omega : 0 ≤ limit.toInt)
      have honward : s.Browsed limit (Int64.ofInt (offset.toInt + limit.toInt)) _ :=
        ih _ (by omega) (by omega) rfl
      rw [hnext, hnat, ← List.drop_drop] at honward
      have hpage : (s.listing.drop offset.toInt.toNat).take limit.toInt.toNat ≠ [] := by
        rw [ne_eq, List.take_eq_nil_iff, List.drop_eq_nil_iff]
        omega
      have hturn := Browsed.turn hwindow hpage hnext honward
      rwa [List.take_append_drop] at hturn

end browse

/-- A store that answers has one listing, which does not depend on how it keeps its petitions. Every
window is a slice of it; windows of one size, read up to the first empty one, make it up, and the
reader gets there in every store of a size that offsets can count. -/
theorem listing_paged {s : Store} (h : s.available = true) :
    ∃ all, s.list none 0 = .ok all ∧ s.Lists all ∧
      (∀ t : Store, t.available = true → (∀ id, t.raw id = s.raw id) →
        ∀ limit offset, t.list limit offset = s.list limit offset) ∧
      ∀ limit : Int64, 1 ≤ limit.toInt →
        (∀ offset : Int64, 0 ≤ offset.toInt → s.list (some limit) offset =
          .ok ((all.drop offset.toInt.toNat).take limit.toInt.toNat)) ∧
        (∀ held, s.Browsed limit 0 held → held = all) ∧
        (all.length ≤ 2 ^ 62 → s.Browsed limit 0 all) := by
  have hzero : (0 : Int64).toInt = 0 := by decide
  refine ⟨s.listing, list_eq h none 0, s.lists_listing, fun t ht hraw limit offset => ?_,
    fun limit hpos => ⟨fun offset _ => list_window h hpos offset, fun held hheld => ?_,
      fun hroom => ?_⟩⟩
  · rw [list_eq h, list_eq ht, s.lists_listing.unique t.lists_listing hraw]
  · exact hheld.eq_drop h hpos hzero.ge
  · exact browsed_drop h hpos hroom (.inl hzero)

/-- Petition created on a day of a January. -/
def posted (id day : Nat) : Petition :=
  let moment := ((Date.of? 1970 1 day).bind (Instant.of? · 0 0 0 0)).getD default
  ⟨.ofNat id, .ofNat 9, "Bike lanes", "Protected lanes downtown", 10, 0, 0, default, none, moment,
    moment⟩

theorem listing_paged_ties :
    let s := (((empty.seed (posted 3 1)).seed (posted 2 5)).seed (posted 1 1)).seed
      ((posted 4 2).delete default)
    let t := (((empty.seed ((posted 4 2).delete default)).seed (posted 1 1)).seed
      (posted 3 1)).seed (posted 2 5)
    let all := [posted 2 5, posted 1 1, posted 3 1]
    s.available = true ∧ s.list none 0 = .ok all ∧ s.Lists all ∧
      t.available = true ∧ (∀ id, t.raw id = s.raw id) ∧ t.list none 0 = .ok all ∧
      1 ≤ (2 : Int64).toInt ∧ 0 ≤ (2 : Int64).toInt ∧ s.list (some 2) 2 = .ok [posted 3 1] ∧
      s.Browsed 2 0 all := by
  intro s t all
  have h : s.available = true := rfl
  have ht : t.available = true := rfl
  obtain ⟨shown, hshown, hlists, hsame, hwindows⟩ := listing_paged h
  have hall : shown = all := by
    have hlisting : s.listing = all := listing_eq_of_perm (by decide +kernel) (by decide +kernel)
    rw [list_eq h, hlisting, Except.ok.injEq] at hshown
    exact hshown.symm
  rw [hall] at hshown hlists hwindows
  have hraw : ∀ id, t.raw id = s.raw id := by
    intro id
    by_cases hthree : (posted 3 1).id = id
    · subst hthree
      rfl
    by_cases htwo : (posted 2 5).id = id
    · subst htwo
      rfl
    by_cases hone : (posted 1 1).id = id
    · subst hone
      rfl
    · simp only [raw, s, t, seed, Table.get?_put, if_neg hthree, if_neg htwo, if_neg hone]
  have htwo : 1 ≤ (2 : Int64).toInt := by decide
  have hstart : 0 ≤ (2 : Int64).toInt := by decide
  obtain ⟨hwindow, -, hbrowsed⟩ := hwindows 2 htwo
  have hfew : all.length ≤ 2 ^ 62 := by decide
  refine ⟨h, hshown, hlists, ht, hraw, ?_, htwo, hstart, hwindow 2 hstart, hbrowsed hfew⟩
  rw [hsame t ht hraw, hshown]

end Store

end AuditedPetitions
