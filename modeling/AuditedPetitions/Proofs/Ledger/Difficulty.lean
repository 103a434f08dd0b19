import AuditedPetitions.Proofs.Ledger.LiveChain
import AuditedPetitions.Proofs.Ledger.NonceSearch

/-! Work behind the blocks that a chain takes from anybody. A block states the difficulty that it
was sealed with, and a push holds it to that statement alone: the difficulty of the chain goes into
its templates, and what was sealed with less is accepted in its place. So the chain's difficulty is
met by every block that states as much, and by one that states less only as it happens. -/

namespace AuditedPetitions.Ledger

/-- The hash begins with a number of zeros. -/
def Block.Carries (b : Block) (zeros : Nat) : Prop := List.replicate zeros '0' <+: b.hash.toList

theorem Block.Carries.of_le {b : Block} {m n : Nat} (h : b.Carries m) (hle : n ≤ m) :
    b.Carries n := by
  rw [Carries, replicate_prefix_iff] at h ⊢
  exact hle.trans h

namespace Chain

/-- What a push asks of a block; the difficulty of the chain is no part of it. -/
structure Fits (c : Chain) (b : Block) : Prop where
  index : b.index.toNat = c.size
  link : b.prevHash = c.tail.hash
  hash : b.hash = b.computeHash
  work : b.Carries b.difficulty.toNat

/-- Chain that blocks were offered to, one after the other. -/
def offerAll (c : Chain) (bs : List Block) : Chain := bs.foldl offer c

/-- Those of the offered blocks that were accepted, in order. -/
def accepted (c : Chain) : List Block → List Block
  | [] => []
  | b :: bs =>
    match c.push b with
    | .ok d => b :: d.accepted bs
    | .error _ => c.accepted bs

theorem accepted_cons_ok {c d : Chain} {b : Block} (h : c.push b = .ok d) (bs : List Block) :
    c.accepted (b :: bs) = b :: d.accepted bs := by
  simp only [accepted, h]

theorem exists_push_iff_fits {c : Chain} (h : c.verify = .ok ()) (b : Block) :
    (∃ d, c.push b = .ok d) ↔ c.Fits b := by
  rw [exists_push, pushFault?_eq_none h, Block.fault?_eq_none]
  constructor
  · rintro ⟨hindex, hlink, hhash, hmeets⟩
    exact ⟨hindex, hlink, hhash.symm, meetsDifficulty_iff.1 hmeets⟩
  · rintro ⟨hindex, hlink, hhash, hwork⟩
    exact ⟨hindex, hlink, hhash.symm, meetsDifficulty_iff.2 hwork⟩

theorem blocks_offerAll (c : Chain) (bs : List Block) :
    (c.offerAll bs).blocks = c.blocks ++ c.accepted bs := by
  induction bs generalizing c with
  | nil => exact (List.append_nil _).symm
  | cons b bs ih =>
    have hnext : c.offerAll (b :: bs) = (c.offer b).offerAll bs := rfl
    rw [hnext, ih, accepted, offer]
    cases hpush : c.push b with
    | error e => rfl
    | ok d =>
      dsimp only
      rw [blocks_push hpush, List.append_assoc]
      rfl

theorem verify_offerAll {c : Chain} (h : c.verify = .ok ()) (bs : List Block) :
    (c.offerAll bs).verify = .ok () := by
  induction bs generalizing c with
  | nil => exact h
  | cons b bs ih => exact ih (verify_offer h b)

theorem carries_of_verify {c : Chain} (h : c.verify = .ok ()) :
    ∀ b ∈ c.blocks, b.Carries b.difficulty.toNat := fun b hb =>
  meetsDifficulty_iff.1 (verifyFrom_meets (verifyFrom_of_verifyChain h) b hb)

/-- However blocks are offered to a chain, each one that it holds carries the work that it states,
and one in its place is accepted whatever the difficulty of the chain. This difficulty is met by the
whole chain exactly when the accepted blocks that state less happen to meet it. -/
theorem offerAll_work {first : Block} {c : Chain} (h : ofGenesis first = .ok c)
    (bs : List Block) :
    let d := c.offerAll bs
    d.difficulty = first.difficulty ∧ d.blocks = first :: c.accepted bs ∧
    (∀ b, (∃ e, d.push b = .ok e) ↔ d.Fits b) ∧
    (∀ b ∈ d.blocks, b.Carries b.difficulty.toNat) ∧
    ((∀ b ∈ d.blocks, b.Carries d.difficulty.toNat) ↔
      ∀ b ∈ c.accepted bs, b.difficulty < d.difficulty → b.Carries d.difficulty.toNat) := by
  intro d
  have hverify : d.verify = .ok () := verify_offerAll (verify_ofGenesis h) bs
  have hblocks : d.blocks = first :: c.accepted bs := by
    rw [blocks_offerAll, blocks_ofGenesis h, List.singleton_append]
  have hdifficulty : d.difficulty = first.difficulty := by
    have hhead := congrArg List.head? hblocks
    simp only [blocks, List.head?_cons, Option.some.injEq] at hhead
    rw [Chain.difficulty, hhead]
  have hcarries := carries_of_verify hverify
  refine ⟨hdifficulty, hblocks, exists_push_iff_fits hverify, hcarries, ?_⟩
  constructor
  · intro hall b hb _
    exact hall b (hblocks ▸ List.mem_cons_of_mem _ hb)
  · intro hless b hb
    by_cases hlow : b.difficulty < d.difficulty
    · rw [hblocks] at hb
      rcases List.mem_cons.1 hb with rfl | hb
      · rw [hdifficulty] at hlow
        exact absurd hlow (UInt32.lt_irrefl _)
      · exact hless b hb hlow
    · have hle : d.difficulty.toNat ≤ b.difficulty.toNat :=
        UInt32.le_iff_toNat_le.1 (UInt32.not_lt.1 hlow)
      exact (hcarries b hb).of_le hle

/-- Template behind a first block, sealed with no work at all. -/
def cheap (first : Block) : Template :=
  { nextTemplate ⟨first, []⟩ ⟨.voteCast, .null, default, "vote"⟩ default with difficulty := 0 }

theorem hash_cheap : ((cheap ((Template.opening "a").proved 1)).proved 1).hash =
    "7608a1f718031e4a1610cbb40aa0e7d93a802e12d61abc91e74ad73300101570" := by
  -- the hash of the first block is known, and need not be found again
  have hcheap (first : Block) : cheap first =
      ⟨first.index + 1, default, ⟨.voteCast, .null, default, "vote"⟩, first.hash, 0⟩ := rfl
  rw [hcheap, Template.hash_opening]
  decide +kernel

theorem offerAll_work_cheap :
    let first := (Template.opening "a").proved 1
    let vote := (cheap first).proved 1
    ∃ c : Chain, ofGenesis first = .ok c ∧ (c.offerAll [vote, vote]).difficulty = 1 ∧
      (c.offerAll [vote, vote]).blocks = [first, vote] ∧ vote.Carries 0 ∧
      ¬ ∀ b ∈ (c.offerAll [vote, vote]).blocks,
        b.Carries (c.offerAll [vote, vote]).difficulty.toNat := by
  intro first vote
  have hmeets : first.meetsDifficulty = true := by
    have hhash : first.hash = _ := Template.hash_opening
    rw [Block.meetsDifficulty, hhash]
    decide
  have hfirst : ofGenesis first = .ok ⟨first, []⟩ := ofGenesis_proved rfl rfl hmeets
  obtain ⟨hdifficulty, hblocks, -⟩ := offerAll_work hfirst [vote, vote]
  have hverify := verify_ofGenesis hfirst
  have hfit : Fits ⟨first, []⟩ vote :=
    ⟨rfl, rfl, ((cheap first).computeHash_proved 1).symm, List.nil_prefix⟩
  obtain ⟨d, hd⟩ := (exists_push_iff_fits hverify vote).2 hfit
  have hagain : ¬ ∃ e, d.push vote = .ok e := by
    rw [exists_push_iff_fits (verify_push hverify hd)]
    intro htwice
    have hsize := congrArg List.length (blocks_push hd)
    rw [length_blocks] at hsize
    have hindex := htwice.index
    rw [hsize] at hindex
    exact absurd hindex (by decide)
  have haccepted : accepted ⟨first, []⟩ [vote, vote] = [vote] := by
    rw [accepted_cons_ok hd, accepted]
    cases hpush : d.push vote with
    | error e => rfl
    | ok e => exact absurd ⟨e, hpush⟩ hagain
  have hlow : ¬ vote.Carries 1 := by
    have hhash : vote.hash = _ := hash_cheap
    rw [Block.Carries, hhash]
    decide
  rw [haccepted] at hblocks
  refine ⟨_, hfirst, hdifficulty, hblocks, List.nil_prefix, fun hcarried => hlow ?_⟩
  have hvote := hcarried vote (hblocks ▸ List.mem_cons_of_mem _ (List.mem_singleton.2 rfl))
  rwa [hdifficulty] at hvote

end Chain

end AuditedPetitions.Ledger
