import AuditedPetitions.Ledger.Snapshot
import AuditedPetitions.Proofs.Json.Pretty
import AuditedPetitions.Proofs.Json.Records
import AuditedPetitions.Proofs.Ledger.Binding
import Mathlib

/-! Exported chains read back. Every field of a block, and of its transaction, is read as what it was,
a time as the one that its written form stands for; only a payload can nest deeper than the reader goes,
and then the whole text is refused. -/

namespace AuditedPetitions

namespace Json.Document

theorem nat?_ofUInt64 {limit : Nat} {n : UInt64} (h : n.toNat < limit) :
    (ofUInt64 n).document.nat? limit = some n.toNat := by
  have hval : (WideInt.ofUInt64 n).val = n.toNat := rfl
  simp [ofUInt64, document, nat?, wideInt?, hval, h]

theorem uint64?_ofUInt64 (n : UInt64) : (ofUInt64 n).document.uint64? = some n := by
  simp [uint64?, nat?_ofUInt64 n.toNat_lt_size]

theorem uint32?_ofUInt64 (n : UInt32) : (ofUInt64 n.toUInt64).document.uint32? = some n := by
  have hval : n.toUInt64.toNat = n.toNat := n.toNat_toUInt64
  have hlt : n.toUInt64.toNat < UInt32.size := hval ▸ n.toNat_lt_size
  rw [uint32?, nat?_ofUInt64 hlt, hval, Option.map_some, UInt32.ofNat_toNat]

theorem choice?_string (s : String) : (document (.string s)).choice? = some s := rfl

end Json.Document

namespace Ledger

open Json.Document

/-- Arrays and objects that a payload may nest to be read back from an export: those of any text
less the snapshot's array, the block and the transaction. -/
def exportDepth : Nat := Json.Document.depthLimit - 3

namespace Transaction

theorem floatFree_toJson {t : Transaction} (h : t.payload.value.FloatFree) : t.toJson.FloatFree :=
  ⟨trivial, h, trivial, trivial, trivial⟩

theorem toJson_asRead (t : Transaction) : t.asRead.toJson = t.toJson := by
  simp only [toJson, asRead, Instant.shortText_asRead]

theorem ofDocument?_toJson (t : Transaction) (room : Nat) :
    ofDocument? room t.toJson.document =
      if t.payload.value.depth ≤ room then some t.asRead else none := by
  have hfields : t.toJson.document.fields? fieldNames = _ := fields?_object rfl (by decide)
  simp only [ofDocument?, hfields, List.map_cons, List.map_nil, Option.bind_some, choice?_string,
    EventKind.ofName?_name, instant?_shortText, string?_string, Json.toJson?_document_eq,
    Option.bind_eq_bind]
  by_cases hroom : t.payload.value.depth ≤ room
  · rw [if_pos hroom, if_pos hroom, Option.bind_some, Payload.ofJson_value]
    rfl
  · rw [if_neg hroom, if_neg hroom]
    rfl

end Transaction

namespace Block

theorem floatFree_toJson {b : Block} (h : b.transaction.payload.value.FloatFree) :
    b.toJson.FloatFree :=
  ⟨trivial, trivial, Transaction.floatFree_toJson h, trivial, trivial, trivial, trivial, trivial⟩

theorem toJson_asRead (b : Block) : b.asRead.toJson = b.toJson := by
  simp only [toJson, asRead, Instant.shortText_asRead, Transaction.toJson_asRead]

theorem ofDocument?_of_fields {d : Json.Document} {room : Nat}
    {index timestamp transaction prevHash hash nonce difficulty : Json.Document}
    (h : d.fields? fieldNames = some (([index, timestamp, transaction, prevHash, hash, nonce,
      difficulty]).map some)) :
    ofDocument? room d = do
      let index ← index.uint64?
      let timestamp ← timestamp.instant?
      let transaction ← Transaction.ofDocument? (room - 1) transaction
      let prevHash ← prevHash.string?
      let hash ← hash.string?
      let nonce ← nonce.uint64?
      let difficulty ← difficulty.uint32?
      return ⟨index, timestamp, transaction, prevHash, hash, nonce, difficulty⟩ := by
  rw [ofDocument?, h]
  rfl

theorem ofDocument?_toJson (b : Block) (room : Nat) :
    ofDocument? room b.toJson.document =
      if b.transaction.payload.value.depth ≤ room - 1 then some b.asRead else none := by
  have hfields : b.toJson.document.fields? fieldNames = _ := fields?_object rfl (by decide)
  rw [ofDocument?_of_fields hfields, uint64?_ofUInt64, uint64?_ofUInt64, uint32?_ofUInt64,
    instant?_shortText, string?_string, string?_string, Transaction.ofDocument?_toJson]
  by_cases hroom : b.transaction.payload.value.depth ≤ room - 1
  · rw [if_pos hroom, if_pos hroom]
    rfl
  · rw [if_neg hroom, if_neg hroom]
    rfl

end Block

namespace Snapshot

/-- Chain that the written form stands for. -/
def asRead (s : Snapshot) : Snapshot := ⟨s.blocks.map Block.asRead⟩

theorem asRead_eq_self_iff {s : Snapshot} : s.asRead = s ↔ ∀ b ∈ s.blocks, b.Readable := by
  rw [← map_asRead_eq_self_iff]
  cases s
  simp [asRead]

theorem verify_asRead (s : Snapshot) : s.asRead.verify = s.verify := verifyChain_asRead s.blocks

theorem exportText_asRead (s : Snapshot) : s.asRead.exportText = s.exportText := by
  simp only [exportText, toJson, asRead, List.map_map, Function.comp_def, Block.toJson_asRead]

theorem floatFree_toJson {s : Snapshot}
    (h : ∀ b ∈ s.blocks, b.transaction.payload.value.FloatFree) : s.toJson.FloatFree := by
  refine Json.floatFreeItems_iff.2 fun j hj => ?_
  obtain ⟨b, hb, rfl⟩ := List.mem_map.1 hj
  exact Block.floatFree_toJson (h b hb)

theorem mapM_ofDocument? (room : Nat) (bs : List Block) :
    ((bs.map Block.toJson).map Json.document).mapM (Block.ofDocument? room) =
      if ∀ b ∈ bs, b.transaction.payload.value.depth ≤ room - 1 then some (bs.map Block.asRead)
      else none := by
  induction bs with
  | nil => rfl
  | cons b bs ih =>
    simp only [List.map_cons, List.mapM_cons, ih, Block.ofDocument?_toJson, List.forall_mem_cons]
    by_cases hb : b.transaction.payload.value.depth ≤ room - 1
    · by_cases hbs : ∀ b ∈ bs, b.transaction.payload.value.depth ≤ room - 1
      · rw [if_pos hb, if_pos hbs, if_pos ⟨hb, hbs⟩]
        rfl
      · rw [if_pos hb, if_neg hbs, if_neg fun h => hbs h.2]
        rfl
    · have hnot : ¬ (b.transaction.payload.value.depth ≤ room - 1 ∧
          ∀ c ∈ bs, c.transaction.payload.value.depth ≤ room - 1) := fun h => hb h.1
      rw [if_neg hb, if_neg hnot]
      rfl

theorem ofText?_exportText {s : Snapshot}
    (h : ∀ b ∈ s.blocks, b.transaction.payload.value.FloatFree) :
    ofText? s.exportText =
      if ∀ b ∈ s.blocks, b.transaction.payload.value.depth ≤ exportDepth then some s.asRead
      else none := by
  have hroom : depthLimit - 1 - 1 - 1 = exportDepth := rfl
  rw [ofText?, exportText, Json.ofText?_prettyText (floatFree_toJson h), Option.bind_some,
    ofDocument?, toJson, Json.document, Json.documentItems_eq, list?, array?, Option.bind_some,
    mapM_ofDocument?, hroom]
  split <;> rfl

/-- An exported chain is read back exactly when every payload nests at most 124 arrays and objects,
and then as what its written form stands for: itself, unless one of its times is a leap second in the
middle of a minute. It verifies as before, every block has the hash it had, and a second export is the
same text. -/
theorem exportText_roundTrip (s : Snapshot)
    (h : ∀ b ∈ s.blocks, b.transaction.payload.value.FloatFree) :
    ((∃ r, ofText? s.exportText = some r) ↔
        ∀ b ∈ s.blocks, b.transaction.payload.value.depth ≤ 124) ∧
      ∀ r, ofText? s.exportText = some r → r = s.asRead ∧
        (r = s ↔ ∀ b ∈ s.blocks, b.Readable) ∧ r.verify = s.verify ∧
        r.blocks.map Block.computeHash = s.blocks.map Block.computeHash ∧
        r.exportText = s.exportText := by
  rw [ofText?_exportText h]
  constructor
  · split
    · rename_i hdepth
      exact iff_of_true ⟨s.asRead, rfl⟩ hdepth
    · rename_i hdepth
      exact iff_of_false (by simp) hdepth
  · intro r hr
    split at hr
    · cases hr
      have hhashes : s.asRead.blocks.map Block.computeHash = s.blocks.map Block.computeHash := by
        simp only [asRead, List.map_map, Function.comp_def, Block.computeHash_asRead]
      exact ⟨rfl, asRead_eq_self_iff, s.verify_asRead, hhashes, s.exportText_asRead⟩
    · cases hr

/-- Not every chain is read back as itself: one that is made in a leap second in the middle of a minute
is read as made a second later. -/
theorem exportText_ambiguous : ¬ ∀ s : Snapshot,
    (∀ b ∈ s.blocks, b.transaction.payload.value.FloatFree) →
      ∀ r, ofText? s.exportText = some r → r = s := by
  intro h
  let s : Snapshot := ⟨votedAt .midMinuteLeap⟩
  have hfree : ∀ b ∈ s.blocks, b.transaction.payload.value.FloatFree := fun b hb =>
    (plain_votedAt .midMinuteLeap b hb).floatFree
  have hdepth : ∀ b ∈ s.blocks, b.transaction.payload.value.depth ≤ exportDepth := by
    simp only [s, votedAt, List.forall_mem_cons]
    exact ⟨Nat.zero_le _, by decide, List.forall_mem_nil _⟩
  have hself : s.asRead = s := h s hfree s.asRead (by rw [ofText?_exportText hfree, if_pos hdepth])
  have hread := asRead_eq_self_iff.1 hself _ (List.mem_cons_self ..)
  exact Instant.not_readable_midMinuteLeap hread.1

/-- Arrays inside each other around an empty object. -/
def nested : Nat → Json
  | 0 => .object []
  | n + 1 => .array [nested n]

theorem depth_nested (n : Nat) : (nested n).depth = n + 1 := by
  induction n with
  | zero => rfl
  | succ n ih => rw [nested, Json.depth, Json.depthItems, ih, Json.depthItems, Nat.max_zero]

theorem ordered_nested (n : Nat) : (nested n).Ordered := by
  induction n with
  | zero => exact ⟨List.Pairwise.nil, trivial⟩
  | succ n ih => exact ⟨ih, trivial⟩

theorem floatFree_nested (n : Nat) : (nested n).FloatFree := by
  induction n with
  | zero => trivial
  | succ n ih => exact ⟨ih, trivial⟩

/-- A first block in a leap second of the year 10000, and a vote whose payload nests. -/
def nestedVote (n : Nat) : Snapshot :=
  let vote : Transaction := ⟨.voteCast, ⟨nested n, ordered_nested n⟩, leapGenesis.timestamp, "vote"⟩
  let template : Template := ⟨1, leapGenesis.timestamp, vote, (leapGenesis.proved 7).hash, 0⟩
  ⟨[leapGenesis.proved 7, template.proved 9]⟩

theorem floatFree_nestedVote (n : Nat) :
    ∀ b ∈ (nestedVote n).blocks, b.transaction.payload.value.FloatFree := by
  simp only [nestedVote, List.forall_mem_cons]
  exact ⟨trivial, floatFree_nested n, List.forall_mem_nil _⟩

theorem depth_nestedVote (n limit : Nat) :
    (∀ b ∈ (nestedVote n).blocks, b.transaction.payload.value.depth ≤ limit) ↔ n + 1 ≤ limit := by
  simp only [nestedVote, List.forall_mem_cons]
  rw [← depth_nested n]
  exact ⟨fun h => h.2.1, fun h => ⟨Nat.zero_le _, h, List.forall_mem_nil _⟩⟩

theorem readable_nestedVote (n : Nat) : ∀ b ∈ (nestedVote n).blocks, b.Readable := by
  have hleap : leapGenesis.timestamp.Readable := fun _ => rfl
  simp only [nestedVote, List.forall_mem_cons]
  exact ⟨⟨hleap, hleap⟩, ⟨hleap, hleap⟩, List.forall_mem_nil _⟩

theorem exportText_roundTrip_boundary :
    (∀ b ∈ (nestedVote 123).blocks, b.transaction.payload.value.FloatFree) ∧
      (∀ b ∈ (nestedVote 124).blocks, b.transaction.payload.value.FloatFree) ∧
      ofText? (nestedVote 123).exportText = some (nestedVote 123) ∧
      ¬ ∃ r, ofText? (nestedVote 124).exportText = some r := by
  obtain ⟨hread, hself⟩ := exportText_roundTrip (nestedVote 123) (floatFree_nestedVote 123)
  obtain ⟨hrefused, -⟩ := exportText_roundTrip (nestedVote 124) (floatFree_nestedVote 124)
  refine ⟨floatFree_nestedVote 123, floatFree_nestedVote 124, ?_, ?_⟩
  · obtain ⟨r, hr⟩ := hread.2 ((depth_nestedVote 123 124).2 (Nat.le_refl _))
    rw [hr, (hself r hr).2.1.2 (readable_nestedVote 123)]
  · rw [hrefused, depth_nestedVote]
    omega

end Snapshot

end Ledger

end AuditedPetitions
