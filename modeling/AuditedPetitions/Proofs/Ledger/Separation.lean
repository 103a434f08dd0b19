import AuditedPetitions.Proofs.Json.Nesting
import AuditedPetitions.Proofs.Ledger.Binding
import Mathlib

/-! What the hashed text tells apart. Index, timestamp as it is written, transaction and
previous hash can be read off it, although nothing stands between them. Nonce and difficulty run
together: all that can be read off is the one row of digits that they make, so digits may move from
the end of a nonce to the front of a difficulty. A difficulty that a configuration admits has one
digit, and leaves no room for that. -/

namespace AuditedPetitions.Ledger
open Numeral

theorem Transaction.canonicalText_append_inj {t u : Transaction} {r s : List Char}
    (h : t.canonicalText.toList ++ r = u.canonicalText.toList ++ s) :
    t.canonicalText = u.canonicalText ∧ r = s := by
  simp only [canonicalText, String.toList_ofList] at h ⊢
  have hchars : t.canonicalChars = u.canonicalChars := by
    rcases List.prefix_or_prefix_of_prefix (List.prefix_append _ r)
      (h ▸ List.prefix_append u.canonicalChars s) with hprefix | hprefix
    · exact Json.object_eq_of_prefix hprefix
    · exact (Json.object_eq_of_prefix hprefix).symm
  rw [hchars] at h ⊢
  exact ⟨rfl, List.append_cancel_left h⟩

/-- What is hashed for a block behind another one: the text of some transaction, the hash of the block
before with its sixty-four digits, and any numbers. -/
@[ext]
structure HashInput where
  index : UInt64
  timestamp : Instant
  canonical : String
  prevHash : String
  nonce : UInt64
  difficulty : UInt32
  exists_transaction : ∃ t : Transaction, canonical = t.canonicalText
  length_prevHash : prevHash.toList.length = 64
  mem_prevHash : ∀ c ∈ prevHash.toList, c ∈ Hex.lowerDigits

namespace HashInput
variable {x y : HashInput}

def bytes (x : HashInput) : List UInt8 :=
  Sha256.bytes (hashedText x.index x.timestamp x.canonical x.prevHash x.nonce x.difficulty)

/-- Input that the written form of its time stands for. -/
def asRead (x : HashInput) : HashInput := { x with timestamp := x.timestamp.asRead }

/-- All that is hashed ahead of the nonce is the same, and the times are written alike. -/
structure SameHeader (x y : HashInput) : Prop where
  index : x.index = y.index
  timestamp : x.timestamp.asRead = y.timestamp.asRead
  canonical : x.canonical = y.canonical
  prevHash : x.prevHash = y.prevHash

/-- The digits at the end of a nonce have moved to the front of the difficulty. -/
structure Moved (x y : HashInput) : Prop extends SameHeader x y where
  shift : ∃ ds, ds ≠ [] ∧ digits x.nonce.toNat = digits y.nonce.toNat ++ ds ∧
    digits y.difficulty.toNat = ds ++ digits x.difficulty.toNat

theorem bytes_eq_iff_header : x.bytes = y.bytes ↔ x.SameHeader y ∧
    digits x.nonce.toNat ++ digits x.difficulty.toNat =
      digits y.nonce.toNat ++ digits y.difficulty.toNat := by
  constructor
  · intro h
    have htext := congrArg String.toList (Sha256.bytes_injective h)
    rw [hashedText_toList, hashedText_toList] at htext
    obtain ⟨hindex, htimestamp, hrest⟩ := Instant.digits_digest_inj htext
    obtain ⟨t, ht⟩ := x.exists_transaction
    obtain ⟨u, hu⟩ := y.exists_transaction
    rw [ht, hu] at hrest
    obtain ⟨hcanonical, hrest⟩ := Transaction.canonicalText_append_inj hrest
    obtain ⟨hprev, hproof⟩ :=
      List.append_inj hrest (x.length_prevHash.trans y.length_prevHash.symm)
    exact ⟨⟨UInt64.toNat_inj.1 hindex, htimestamp, ht.trans (hcanonical.trans hu.symm),
      String.toList_injective hprev⟩, hproof⟩
  · rintro ⟨⟨hindex, htimestamp, hcanonical, hprev⟩, hproof⟩
    have hjoin : proofText x.nonce x.difficulty = proofText y.nonce y.difficulty := by
      apply String.toList_injective
      simpa [proofText, Numeral.text] using hproof
    have hdigest : x.timestamp.digestText = y.timestamp.digestText := by
      rw [Instant.digestText, ← x.timestamp.digestChars_asRead, htimestamp,
        y.timestamp.digestChars_asRead, Instant.digestText]
    rw [bytes, bytes, hashedText, hashedText, headerText, headerText, hindex, hdigest, hcanonical,
      hprev, hjoin]

theorem bytes_asRead (x : HashInput) : x.asRead.bytes = x.bytes :=
  bytes_eq_iff_header.2 ⟨⟨rfl, x.timestamp.asRead_asRead, rfl, rfl⟩, rfl⟩

theorem asRead_eq_self_iff : x.asRead = x ↔ x.timestamp.Readable := by
  rw [← Instant.asRead_eq_self_iff]
  cases x
  simp [asRead]

theorem Moved.bytes_eq (h : x.Moved y) : x.bytes = y.bytes := by
  obtain ⟨ds, -, hnonce, hdifficulty⟩ := h.shift
  refine bytes_eq_iff_header.2 ⟨h.toSameHeader, ?_⟩
  rw [hnonce, hdifficulty, List.append_assoc]

theorem SameHeader.symm (h : x.SameHeader y) : y.SameHeader x :=
  ⟨h.index.symm, h.timestamp.symm, h.canonical.symm, h.prevHash.symm⟩

theorem asRead_eq_or_moved {ds : List Char} (h : x.SameHeader y)
    (hnonce : digits x.nonce.toNat = digits y.nonce.toNat ++ ds)
    (hdifficulty : digits y.difficulty.toNat = ds ++ digits x.difficulty.toNat) :
    x.asRead = y.asRead ∨ x.Moved y := by
  by_cases hds : ds = []
  · rw [hds, List.append_nil] at hnonce
    rw [hds, List.nil_append] at hdifficulty
    exact .inl (HashInput.ext h.index h.timestamp h.canonical h.prevHash
      (UInt64.toNat_inj.1 (digits_injective hnonce))
      (UInt32.toNat_inj.1 (digits_injective hdifficulty.symm)))
  · exact .inr ⟨h, ds, hds, hnonce, hdifficulty⟩

/-- Two cuts of one row of digits differ by the digits that stand between them. -/
theorem bytes_eq_iff : x.bytes = y.bytes ↔ x.asRead = y.asRead ∨ x.Moved y ∨ y.Moved x := by
  constructor
  · intro h
    obtain ⟨hheader, hrow⟩ := bytes_eq_iff_header.1 h
    rcases List.append_eq_append_iff.1 hrow with ⟨ds, hnonce, hdifficulty⟩ | ⟨ds, hnonce, hdifficulty⟩
    · rcases asRead_eq_or_moved hheader.symm hnonce hdifficulty with heq | hmoved
      · exact .inl heq.symm
      · exact .inr (.inr hmoved)
    · rcases asRead_eq_or_moved hheader hnonce hdifficulty with heq | hmoved
      · exact .inl heq
      · exact .inr (.inl hmoved)
  · rintro (hread | hmoved | hmoved)
    · rw [← x.bytes_asRead, hread, y.bytes_asRead]
    · exact hmoved.bytes_eq
    · exact hmoved.bytes_eq.symm

theorem Moved.length_lt (h : x.Moved y) :
    (digits y.nonce.toNat).length < (digits x.nonce.toNat).length ∧
      (digits x.difficulty.toNat).length < (digits y.difficulty.toNat).length := by
  obtain ⟨ds, hds, hnonce, hdifficulty⟩ := h.shift
  have hlength := List.length_pos_iff.2 hds
  rw [hnonce, hdifficulty, List.length_append, List.length_append]
  omega

theorem Moved.nonce_ne (h : x.Moved y) : x.nonce ≠ y.nonce := fun heq =>
  h.length_lt.1.ne (by rw [heq])

theorem Moved.difficulty_ne (h : x.Moved y) : x.difficulty ≠ y.difficulty := fun heq =>
  h.length_lt.2.ne (by rw [heq])

theorem Moved.ten_le (h : x.Moved y) : 10 ≤ y.difficulty := by
  have hlt := h.length_lt.2
  have hpos := List.length_pos_iff.2 (digits_ne_nil x.difficulty.toNat)
  refine UInt32.le_iff_toNat_le.2 (not_lt.1 fun hsmall => ?_)
  rw [length_digits_lt_ten hsmall] at hlt
  omega

/-- The bytes of two inputs are the same only if the inputs are, up to times that are written alike, or
if they have one header and digits have moved from the end of a nonce to the front of a difficulty. Then
both numbers differ, and a difficulty has two digits or more. So inputs whose difficulties a
configuration admits are told apart, but for such times; and these are the same if both are readable. -/
theorem bytes_separate (x y : HashInput) :
    (x.bytes = y.bytes ↔ x.asRead = y.asRead ∨ x.Moved y ∨ y.Moved x) ∧
    (x.Moved y → x.nonce ≠ y.nonce ∧ x.difficulty ≠ y.difficulty ∧ 10 ≤ y.difficulty) ∧
    (x.difficulty ≤ maxDifficulty → y.difficulty ≤ maxDifficulty → x.asRead ≠ y.asRead →
      x.bytes ≠ y.bytes) ∧
    (x.timestamp.Readable → y.timestamp.Readable → (x.asRead = y.asRead ↔ x = y)) := by
  refine ⟨bytes_eq_iff, fun h => ⟨h.nonce_ne, h.difficulty_ne, h.ten_le⟩, fun hx hy hne h => ?_,
    fun hx hy => ?_⟩
  · have hsmall : ¬ (10 : UInt32) ≤ maxDifficulty := by decide
    rcases bytes_eq_iff.1 h with heq | hmoved | hmoved
    · exact hne heq
    · exact hsmall (UInt32.le_trans hmoved.ten_le hy)
    · exact hsmall (UInt32.le_trans hmoved.ten_le hx)
  · rw [asRead_eq_self_iff.2 hx, asRead_eq_self_iff.2 hy]

/-- Input with a given index, nonce and difficulty, and all else fixed. -/
def numbered (index nonce : UInt64) (difficulty : UInt32) : HashInput where
  index := index
  timestamp := default
  canonical := leapVote.transaction.canonicalText
  prevHash := Sha256.hexDigest []
  nonce := nonce
  difficulty := difficulty
  exists_transaction := ⟨_, rfl⟩
  length_prevHash := by rw [Sha256.hexDigest, String.toList_ofList, Sha256.Words.length_hex]
  mem_prevHash _ h := by
    rw [Sha256.hexDigest, String.toList_ofList] at h
    exact Sha256.Words.mem_hex h

theorem moved_numbered : (numbered 1 12 0).Moved (numbered 1 1 20) where
  index := rfl
  timestamp := rfl
  canonical := rfl
  prevHash := rfl
  shift := ⟨['2'], by decide, by decide, by decide⟩

/-- Not all different inputs are told apart: nonce 12 with difficulty 0 is hashed as nonce 1 with
difficulty 20 is, and a leap second in the middle of a minute as the second after it is. -/
theorem bytes_ambiguous :
    (¬ ∀ x y : HashInput, x.timestamp = y.timestamp → x ≠ y → x.bytes ≠ y.bytes) ∧
      ¬ ∀ x y : HashInput, x.nonce = y.nonce → x ≠ y → x.bytes ≠ y.bytes := by
  constructor
  · intro h
    have hne : numbered 1 12 0 ≠ numbered 1 1 20 := fun heq =>
      moved_numbered.nonce_ne (congrArg nonce heq)
    exact h (numbered 1 12 0) (numbered 1 1 20) rfl hne moved_numbered.bytes_eq
  · intro h
    let x : HashInput := { numbered 1 12 0 with timestamp := .midMinuteLeap }
    have hne : x ≠ x.asRead := fun heq =>
      Instant.not_readable_midMinuteLeap (asRead_eq_self_iff.1 heq.symm)
    exact h x x.asRead rfl hne x.bytes_asRead.symm

theorem bytes_separate_numbered :
    ((numbered 1 12 0).Moved (numbered 1 1 20) ∧ (10 : UInt32) ≤ 20) ∧
      (2 : UInt32) ≤ maxDifficulty ∧ (numbered 11 1 2).asRead ≠ (numbered 1 11 2).asRead ∧
      (numbered 11 1 2).bytes ≠ (numbered 1 11 2).bytes ∧
      (numbered 11 1 2).timestamp.Readable ∧ (numbered 1 11 2).timestamp.Readable ∧
      numbered 11 1 2 ≠ numbered 1 11 2 := by
  have hmoved := (bytes_separate (numbered 1 12 0) (numbered 1 1 20)).2.1 moved_numbered
  have hadmitted : (2 : UInt32) ≤ maxDifficulty := by decide
  have hne : (numbered 11 1 2).asRead ≠ (numbered 1 11 2).asRead := fun heq =>
    absurd (congrArg index heq) (by decide)
  have hread (i n : UInt64) : (numbered i n 2).timestamp.Readable := fun hleap =>
    absurd (show 1000000000 ≤ (default : Instant).nano from hleap) (by decide)
  have hsame := (bytes_separate (numbered 11 1 2) (numbered 1 11 2)).2.2.2 (hread 11 1) (hread 1 11)
  exact ⟨⟨moved_numbered, hmoved.2.2⟩, hadmitted, hne,
    (bytes_separate _ _).2.2.1 hadmitted hadmitted hne, hread 11 1, hread 1 11, mt hsame.2 hne⟩

end HashInput

end AuditedPetitions.Ledger
