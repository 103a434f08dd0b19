import AuditedPetitions.Proofs.Instant.RoundTrip
import AuditedPetitions.Proofs.Json.RoundTrip
import AuditedPetitions.Proofs.Ledger.Sealing
import Mathlib

/-! What a stored hash stands for. The hashed fields of a block follow each other without separators;
in a verified chain they can be split again, because the previous hash is empty in the first block and
has sixty-four digits in every other, and an admitted difficulty has one digit. So a hash stands for
all fields of its block, as far as their written forms tell them, among them the hash before, and by
that for the whole chain, unless two different texts have one digest. -/

namespace AuditedPetitions.Ledger
open Numeral

namespace Transaction

/-- Transaction that the written forms stand for. -/
def asRead (t : Transaction) : Transaction := { t with timestamp := t.timestamp.asRead }

theorem canonicalJson_asRead (t : Transaction) : t.asRead.canonicalJson = t.canonicalJson := by
  simp only [canonicalJson, asRead, Instant.shortText_asRead]

theorem canonicalText_asRead (t : Transaction) : t.asRead.canonicalText = t.canonicalText := by
  rw [canonicalText, canonicalChars, canonicalJson_asRead, canonicalText, canonicalChars]

theorem asRead_eq_of_canonicalJson {t u : Transaction} (h : t.canonicalJson = u.canonicalJson) :
    t.asRead = u.asRead := by
  simp only [canonicalJson, Json.object.injEq, List.cons.injEq, Prod.mk.injEq, true_and, and_true,
    Json.string.injEq] at h
  obtain ⟨hdescription, hpayload, htimestamp, hkind⟩ := h
  have hname := t.kind.ofName?_name
  rw [hkind, u.kind.ofName?_name] at hname
  cases t
  cases u
  simp only [asRead, Transaction.mk.injEq]
  exact ⟨(Option.some.inj hname).symm, Payload.ext_value hpayload,
    Instant.shortText_eq_iff.1 htimestamp, hdescription⟩

theorem floatFree_canonicalJson {t : Transaction} (h : t.payload.value.FloatFree) :
    t.canonicalJson.FloatFree :=
  ⟨trivial, h, trivial, trivial, trivial⟩

theorem canonicalChars_append_inj {t u : Transaction} {r s : List Char}
    (ht : t.payload.value.FloatFree) (hu : u.payload.value.FloatFree)
    (h : t.canonicalChars ++ r = u.canonicalChars ++ s) : t.asRead = u.asRead ∧ r = s := by
  have hmembers := Json.object_append_inj (floatFree_canonicalJson ht) (floatFree_canonicalJson hu) h
  exact ⟨asRead_eq_of_canonicalJson (congrArg Json.object hmembers.1), hmembers.2⟩

end Transaction

/-- Length of the hash that a block at a position links to. -/
def linkLength (position : Nat) : Nat := if position = 0 then 0 else 64

/-- Difficulty as a configuration admits it, and no double in the payload. -/
structure Block.Plain (b : Block) : Prop where
  difficulty_le : b.difficulty ≤ maxDifficulty
  floatFree : b.transaction.payload.value.FloatFree

theorem hashedText_toList (index : UInt64) (timestamp : Instant) (canonical prevHash : String)
    (nonce : UInt64) (difficulty : UInt32) :
    (hashedText index timestamp canonical prevHash nonce difficulty).toList =
      digits index.toNat ++ (timestamp.digestChars ++ (canonical.toList ++
        (prevHash.toList ++ (digits nonce.toNat ++ digits difficulty.toNat)))) := by
  simp [hashedText, headerText, proofText, Numeral.text, Instant.digestText]

namespace Block

theorem hashedText_toList (b : Block) : b.hashedText.toList =
    digits b.index.toNat ++ (b.timestamp.digestChars ++ (b.transaction.canonicalChars ++
      (b.prevHash.toList ++ (digits b.nonce.toNat ++ digits b.difficulty.toNat)))) := by
  rw [hashedText, Ledger.hashedText_toList, Transaction.canonicalText, String.toList_ofList]

theorem Plain.length_difficulty {b : Block} (h : b.Plain) :
    (digits b.difficulty.toNat).length = 1 := by
  have hle : b.difficulty.toNat ≤ 6 := h.difficulty_le
  exact length_digits_lt_ten (by omega)

theorem length_computeHash (b : Block) : b.computeHash.toList.length = 64 := by
  simp [computeHash, blockDigest, Sha256.hexDigest, Sha256.Words.length_hex]

/-- Block that the written forms stand for. -/
def asRead (b : Block) : Block :=
  { b with timestamp := b.timestamp.asRead, transaction := b.transaction.asRead }

theorem Plain.asRead {b : Block} (h : b.Plain) : b.asRead.Plain :=
  ⟨h.difficulty_le, h.floatFree⟩

@[simp] theorem index_asRead (b : Block) : b.asRead.index = b.index := rfl

@[simp] theorem prevHash_asRead (b : Block) : b.asRead.prevHash = b.prevHash := rfl

/-- The times of a block are told by their written forms. -/
def Readable (b : Block) : Prop := b.timestamp.Readable ∧ b.transaction.timestamp.Readable

theorem asRead_eq_self_iff {b : Block} : b.asRead = b ↔ b.Readable := by
  rw [Readable, ← Instant.asRead_eq_self_iff, ← Instant.asRead_eq_self_iff]
  obtain ⟨_, _, ⟨_, _, _, _⟩, _, _, _, _⟩ := b
  simp [asRead, Transaction.asRead]

theorem hashedText_asRead (b : Block) : b.asRead.hashedText = b.hashedText := by
  apply String.toList_injective
  rw [hashedText_toList, hashedText_toList]
  simp only [asRead, Instant.digestChars_asRead, Transaction.canonicalChars,
    Transaction.canonicalJson_asRead]

theorem computeHash_asRead (b : Block) : b.asRead.computeHash = b.computeHash :=
  congrArg (Sha256.hexDigest ∘ Sha256.bytes) b.hashedText_asRead

theorem fault?_asRead (b : Block) (position : Nat) (prev : String) :
    b.asRead.fault? position prev = b.fault? position prev := by
  simp only [fault?, computeHash_asRead]
  rfl

/-- The hashed text determines every field but the stored hash, up to how times are written. -/
theorem asRead_eq_of_hashedText {a b : Block} (ha : a.Plain) (hb : b.Plain)
    (hla : a.prevHash.toList.length = linkLength a.index.toNat)
    (hlb : b.prevHash.toList.length = linkLength b.index.toNat) (hhash : a.hash = b.hash)
    (h : a.hashedText = b.hashedText) : a.asRead = b.asRead := by
  have htext := congrArg String.toList h
  rw [a.hashedText_toList, b.hashedText_toList] at htext
  obtain ⟨hindex, htimestamp, hrest⟩ := Instant.digits_digest_inj htext
  obtain ⟨htransaction, hrest⟩ :=
    Transaction.canonicalChars_append_inj ha.floatFree hb.floatFree hrest
  have hlink : a.prevHash.toList.length = b.prevHash.toList.length := by rw [hla, hlb, hindex]
  obtain ⟨hprev, hproof⟩ := List.append_inj hrest hlink
  have hone := ha.length_difficulty.trans hb.length_difficulty.symm
  obtain ⟨hnonce, hdifficulty⟩ := List.append_inj' hproof hone
  cases a
  cases b
  simp only [asRead, Block.mk.injEq]
  exact ⟨UInt64.toNat_inj.1 hindex, htimestamp, htransaction, String.toList_injective hprev, hhash,
    UInt64.toNat_inj.1 (digits_injective hnonce),
    UInt32.toNat_inj.1 (digits_injective hdifficulty)⟩

end Block

/-- Hash that the block behind a list of blocks links to. -/
def lastHash (prev : String) (bs : List Block) : String := (bs.getLast?.map Block.hash).getD prev

theorem lastHash_cons (prev : String) (b : Block) (bs : List Block) :
    lastHash prev (b :: bs) = lastHash b.hash bs := by
  cases bs with
  | nil => rfl
  | cons c bs =>
    rw [lastHash, lastHash, List.getLast?_cons_cons, List.getLast?_cons]
    rfl

theorem verifyFrom_concat (position : Nat) (prev : String) (bs : List Block) (b : Block) :
    verifyFrom position prev (bs ++ [b]) = .ok () ↔
      verifyFrom position prev bs = .ok () ∧
        b.fault? (position + bs.length) (lastHash prev bs) = none := by
  induction bs generalizing position prev with
  | nil =>
    have hlast : lastHash prev [] = prev := rfl
    simp only [List.nil_append, verifyFrom, List.length_nil, Nat.add_zero, true_and, hlast]
    cases b.fault? position prev <;> simp
  | cons c bs ih =>
    simp only [List.cons_append, verifyFrom, List.length_cons, lastHash_cons]
    cases c.fault? position prev with
    | some fault => simp
    | none =>
      rw [ih]
      have hposition : position + 1 + bs.length = position + (bs.length + 1) := by omega
      rw [hposition]

theorem length_lastHash {bs : List Block} (h : verifyFrom 0 "" bs = .ok ()) :
    (lastHash "" bs).toList.length = linkLength bs.length := by
  induction bs using List.reverseRecOn with
  | nil => rfl
  | append_singleton bs b ih =>
    have hb := Block.fault?_eq_none.1 ((verifyFrom_concat ..).1 h).2
    have hlast : lastHash "" (bs ++ [b]) = b.hash := by simp [lastHash]
    rw [hlast, ← hb.2.2.1, b.length_computeHash]
    simp [linkLength]

/-- Different bytes were hashed to one digest for a block of each list. -/
def Collide (xs ys : List Block) : Prop :=
  ∃ a ∈ xs, ∃ b ∈ ys, Sha256.bytes a.hashedText ≠ Sha256.bytes b.hashedText ∧
    Sha256.hexDigest (Sha256.bytes a.hashedText) = Sha256.hexDigest (Sha256.bytes b.hashedText)

theorem Collide.concat {xs ys : List Block} (h : Collide xs ys) (x y : Block) :
    Collide (xs ++ [x]) (ys ++ [y]) := by
  obtain ⟨a, ha, b, hb, hne, heq⟩ := h
  exact ⟨a, List.mem_append_left _ ha, b, List.mem_append_left _ hb, hne, heq⟩

theorem eq_or_collide {xs ys : List Block} (hx : verifyFrom 0 "" xs = .ok ())
    (hy : verifyFrom 0 "" ys = .ok ()) (hplainX : ∀ b ∈ xs, b.Plain)
    (hplainY : ∀ b ∈ ys, b.Plain)
    (hlast : xs.getLast?.map Block.hash = ys.getLast?.map Block.hash) :
    xs.map Block.asRead = ys.map Block.asRead ∨ Collide xs ys := by
  -- From the last block backwards: each pair of blocks stores one hash, so it links to one hash.
  induction xs using List.reverseRecOn generalizing ys with
  | nil =>
    cases ys using List.reverseRecOn with
    | nil => exact .inl rfl
    | append_singleton ys y => simp at hlast
  | append_singleton xs x ih =>
    cases ys using List.reverseRecOn with
    | nil => simp at hlast
    | append_singleton ys y =>
      obtain ⟨hxs, hxfault⟩ := (verifyFrom_concat ..).1 hx
      obtain ⟨hys, hyfault⟩ := (verifyFrom_concat ..).1 hy
      obtain ⟨hxindex, hxprev, hxhash, -⟩ := Block.fault?_eq_none.1 hxfault
      obtain ⟨hyindex, hyprev, hyhash, -⟩ := Block.fault?_eq_none.1 hyfault
      have hhash : x.hash = y.hash := by simpa using hlast
      have hxmem : x ∈ xs ++ [x] := List.mem_append_right _ (List.mem_singleton_self x)
      have hymem : y ∈ ys ++ [y] := List.mem_append_right _ (List.mem_singleton_self y)
      by_cases hbytes : Sha256.bytes x.hashedText = Sha256.bytes y.hashedText
      · have hxy : x.asRead = y.asRead := by
          refine Block.asRead_eq_of_hashedText (hplainX x hxmem) (hplainY y hymem) ?_ ?_ hhash
            (Sha256.bytes_injective hbytes)
          · rw [hxprev, length_lastHash hxs, hxindex, Nat.zero_add]
          · rw [hyprev, length_lastHash hys, hyindex, Nat.zero_add]
        have hindex : x.index = y.index := by rw [← x.index_asRead, hxy, y.index_asRead]
        have hlength : xs.length = ys.length := by
          have : 0 + xs.length = 0 + ys.length := by rw [← hxindex, ← hyindex, hindex]
          omega
        have hlink : lastHash "" xs = lastHash "" ys := by
          rw [← hxprev, ← hyprev, ← x.prevHash_asRead, hxy, y.prevHash_asRead]
        have hprevious : xs.getLast?.map Block.hash = ys.getLast?.map Block.hash := by
          cases xs using List.reverseRecOn with
          | nil =>
            have hnil : ys = [] := List.eq_nil_of_length_eq_zero hlength.symm
            rw [hnil]
          | append_singleton xs u =>
            cases ys using List.reverseRecOn with
            | nil => simp at hlength
            | append_singleton ys v => simpa [lastHash] using hlink
        have hbefore := ih hxs hys (fun b hb => hplainX b (List.mem_append_left _ hb))
          (fun b hb => hplainY b (List.mem_append_left _ hb)) hprevious
        rcases hbefore with hbefore | hbefore
        · exact .inl (by rw [List.map_append, List.map_append, hbefore, List.map_singleton, hxy,
            List.map_singleton])
        · exact .inr (hbefore.concat x y)
      · have hdigest : x.computeHash = y.computeHash := by rw [hxhash, hyhash, hhash]
        exact .inr ⟨x, hxmem, y, hymem, hbytes, hdigest⟩

theorem verifyFrom_of_verifyChain {bs : List Block} (h : verifyChain bs = .ok ()) :
    verifyFrom 0 "" bs = .ok () := by
  cases bs with
  | nil => cases h
  | cons b bs => exact h

theorem plain_append_asRead {bs : List Block} (h : ∀ b ∈ bs, b.Plain) :
    ∀ b ∈ bs ++ bs.map Block.asRead, b.Plain :=
  List.forall_mem_append.2 ⟨h, List.forall_mem_map.2 fun b hb => (h b hb).asRead⟩

theorem map_asRead_eq_self_iff {bs : List Block} :
    bs.map Block.asRead = bs ↔ ∀ b ∈ bs, b.Readable := by
  simp only [← Block.asRead_eq_self_iff]
  conv_lhs => rhs; rw [← bs.map_id]
  exact List.map_inj_left

theorem verifyFrom_asRead (position : Nat) (prev : String) (bs : List Block) :
    verifyFrom position prev (bs.map Block.asRead) = verifyFrom position prev bs := by
  induction bs generalizing position prev with
  | nil => rfl
  | cons b bs ih =>
    rw [List.map_cons, verifyFrom, Block.fault?_asRead, ih, verifyFrom]
    rfl

theorem verifyChain_asRead (bs : List Block) :
    verifyChain (bs.map Block.asRead) = verifyChain bs := by
  cases bs with
  | nil => rfl
  | cons b bs => exact verifyFrom_asRead 0 "" (b :: bs)

/-- The hash of the last block stands for the whole chain as it is written, and for the chain itself
if its times are told by that, unless SHA-256 collides on bytes that were hashed for the two chains. -/
theorem verifyChain_binding {xs ys : List Block} (hx : verifyChain xs = .ok ())
    (hy : verifyChain ys = .ok ()) (hplain : ∀ b ∈ xs ++ ys, b.Plain)
    (hlast : xs.getLast?.map Block.hash = ys.getLast?.map Block.hash) :
    (xs.map Block.asRead = ys.map Block.asRead ∨ Collide xs ys) ∧
      ((∀ b ∈ xs ++ ys, b.Readable) → xs = ys ∨ Collide xs ys) := by
  have hbound : xs.map Block.asRead = ys.map Block.asRead ∨ Collide xs ys :=
    eq_or_collide (verifyFrom_of_verifyChain hx) (verifyFrom_of_verifyChain hy)
      (fun b hb => hplain b (List.mem_append_left _ hb))
      (fun b hb => hplain b (List.mem_append_right _ hb)) hlast
  refine ⟨hbound, fun hread => ?_⟩
  rw [map_asRead_eq_self_iff.2 fun b hb => hread b (List.mem_append_left _ hb),
    map_asRead_eq_self_iff.2 fun b hb => hread b (List.mem_append_right _ hb)] at hbound
  exact hbound

theorem verifyChain_pair {a b : Block} (ha : a.fault? 0 "" = none)
    (hb : b.fault? 1 a.hash = none) : verifyChain [a, b] = .ok () := by
  simp [verifyChain, verifyFrom, ha, hb]

/-- First template in a leap second of the year 10000. -/
def leapGenesis : Template :=
  let date := (Date.of? 10000 12 31).getD (default : Instant).date
  let t := (Instant.of? date 23 59 60 5).getD default
  .genesis 0 "Genesis block" t t

/-- Template behind it, with a nested payload. -/
def leapVote : Template :=
  let payload := Payload.ofJson (.object [("items", .array [.null, .bool true, .string "-1"])])
  ⟨1, leapGenesis.timestamp, ⟨.voteCast, payload, leapGenesis.timestamp, "vote"⟩,
    (leapGenesis.proved 7).hash, 0⟩

/-- The chain itself is not always told: a first block in a leap second in the middle of a minute has
the hash of the same block a second later, and all that is hashed is the same. -/
theorem verifyChain_ambiguous : ¬ ∀ xs ys : List Block, verifyChain xs = .ok () →
    verifyChain ys = .ok () → (∀ b ∈ xs ++ ys, b.Plain) →
    xs.getLast?.map Block.hash = ys.getLast?.map Block.hash → xs = ys ∨ Collide xs ys := by
  intro h
  let first : Block :=
    (Template.genesis 0 "Genesis block" .midMinuteLeap .midMinuteLeap).proved 7
  have hfault : first.fault? 0 "" = none :=
    Block.fault?_eq_none.2 ⟨rfl, rfl, Template.computeHash_proved _ 7, Block.meetsDifficulty_zero rfl⟩
  have hplain : ∀ b ∈ [first] ++ [first.asRead], b.Plain :=
    plain_append_asRead (List.forall_mem_singleton.2 ⟨Nat.zero_le _, trivial⟩)
  rcases h [first] [first.asRead] (verifyChain_single hfault)
    (verifyChain_single ((first.fault?_asRead 0 "").trans hfault)) hplain rfl with
    heq | ⟨a, ha, b, hb, hne, -⟩
  · have hread : first.Readable := Block.asRead_eq_self_iff.1 (List.cons.inj heq).1.symm
    exact Instant.not_readable_midMinuteLeap hread.1
  · rw [List.mem_singleton.1 ha, List.mem_singleton.1 hb, Block.hashedText_asRead] at hne
    exact hne rfl

/-- Chain of a first block and a vote, both made at one time. -/
def votedAt (t : Instant) : List Block :=
  let first := (Template.genesis 0 "Genesis block" t t).proved 7
  let vote : Template := ⟨1, t, ⟨.voteCast, leapVote.transaction.payload, t, "vote"⟩, first.hash, 0⟩
  [first, vote.proved 9]

theorem verifyChain_votedAt (t : Instant) : verifyChain (votedAt t) = .ok () :=
  verifyChain_pair
    (Block.fault?_eq_none.2 ⟨rfl, rfl, Template.computeHash_proved _ 7, Block.meetsDifficulty_zero rfl⟩)
    (Block.fault?_eq_none.2 ⟨rfl, rfl, Template.computeHash_proved _ 9, Block.meetsDifficulty_zero rfl⟩)

theorem plain_votedAt (t : Instant) : ∀ b ∈ votedAt t, b.Plain := by
  simp only [votedAt, List.forall_mem_cons]
  have hpayload : leapVote.transaction.payload.value.FloatFree :=
    ⟨⟨trivial, trivial, trivial, trivial⟩, trivial⟩
  exact ⟨⟨Nat.zero_le _, trivial⟩, ⟨Nat.zero_le _, hpayload⟩, List.forall_mem_nil _⟩

theorem readable_votedAt {t : Instant} (h : t.Readable) : ∀ b ∈ votedAt t, b.Readable := by
  simp only [votedAt, List.forall_mem_cons]
  exact ⟨⟨h, h⟩, ⟨h, h⟩, List.forall_mem_nil _⟩

theorem verifyChain_binding_midMinute :
    let xs := votedAt .midMinuteLeap
    let ys := xs.map Block.asRead
    let zs := votedAt leapGenesis.timestamp
    (verifyChain xs = .ok () ∧ verifyChain ys = .ok () ∧ xs ≠ ys ∧
        (xs.map Block.asRead = ys.map Block.asRead ∨ Collide xs ys)) ∧
      verifyChain zs = .ok () ∧ (∀ b ∈ zs ++ zs.map Block.asRead, b.Readable) ∧
        (zs = zs.map Block.asRead ∨ Collide zs (zs.map Block.asRead)) := by
  intro xs ys zs
  have hx : verifyChain xs = .ok () := verifyChain_votedAt _
  have hy : verifyChain ys = .ok () := (verifyChain_asRead xs).trans hx
  have hz : verifyChain zs = .ok () := verifyChain_votedAt _
  have hne : xs ≠ ys := fun h =>
    Instant.not_readable_midMinuteLeap (map_asRead_eq_self_iff.1 h.symm _ (List.mem_cons_self ..)).1
  have hleap : ∀ b ∈ zs, b.Readable := readable_votedAt fun _ => rfl
  have hread : ∀ b ∈ zs ++ zs.map Block.asRead, b.Readable := by
    rw [map_asRead_eq_self_iff.2 hleap]
    exact List.forall_mem_append.2 ⟨hleap, hleap⟩
  have hbound := verifyChain_binding hx hy (plain_append_asRead (plain_votedAt _)) rfl
  have hsame := verifyChain_binding hz ((verifyChain_asRead zs).trans hz)
    (plain_append_asRead (plain_votedAt _)) rfl
  exact ⟨⟨hx, hy, hne, hbound.1⟩, hz, hread, hsame.2 hread⟩

end AuditedPetitions.Ledger
