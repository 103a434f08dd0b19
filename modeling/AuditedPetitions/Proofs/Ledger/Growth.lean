import AuditedPetitions.Arithmetic
import AuditedPetitions.Ledger.Snapshot
import AuditedPetitions.Proofs.Ledger.Binding
import Mathlib

/-! A chain that grows block by block and a list that is checked as a whole. The checks of a push look
at the tail alone, those of a whole chain carry the position and the hash of the block before; on a
verified chain the tail stands for both, so the two ways to check a list agree. -/

namespace AuditedPetitions.Ledger

theorem verifyChain_eq_ok {bs : List Block} :
    verifyChain bs = .ok () ↔ bs ≠ [] ∧ verifyFrom 0 "" bs = .ok () := by
  cases bs with
  | nil => simp [verifyChain]
  | cons b bs => simp [verifyChain]

theorem verifyFrom_append {position : Nat} {prev : String} {xs ys : List Block}
    (h : verifyFrom position prev (xs ++ ys) = .ok ()) : verifyFrom position prev xs = .ok () := by
  induction xs generalizing position prev with
  | nil => rfl
  | cons b xs ih =>
    simp only [List.cons_append, verifyFrom] at h ⊢
    cases hfault : b.fault? position prev with
    | some fault => simp [hfault] at h
    | none =>
      rw [hfault] at h
      exact ih h

theorem verifyChain_append {xs ys : List Block} (hne : xs ≠ [])
    (h : verifyChain (xs ++ ys) = .ok ()) : verifyChain xs = .ok () :=
  verifyChain_eq_ok.2 ⟨hne, verifyFrom_append (verifyFrom_of_verifyChain h)⟩

theorem verifyChain_concat {bs : List Block} (hne : bs ≠ []) (b : Block) :
    verifyChain (bs ++ [b]) = .ok () ↔
      verifyChain bs = .ok () ∧ b.fault? bs.length (lastHash "" bs) = none := by
  rw [verifyChain_eq_ok, verifyChain_eq_ok, verifyFrom_concat, Nat.zero_add]
  simp [hne]

namespace Chain

/-- Chain that a block was offered to: with the block behind its tail, or as it was. -/
def offer (c : Chain) (b : Block) : Chain :=
  match c.push b with
  | .ok d => d
  | .error _ => c

/-- Blocks pushed in order, up to the first that is refused. -/
def pushAll (c : Chain) : List Block → Except Error Chain
  | [] => .ok c
  | b :: bs =>
    match c.push b with
    | .error e => .error e
    | .ok d => d.pushAll bs

/-- Chain of a first block and the blocks that are pushed behind it. -/
def grow (first : Block) (bs : List Block) : Except Error Chain :=
  match ofGenesis first with
  | .error e => .error e
  | .ok c => c.pushAll bs

/-- Chains that come of a first block and any offers. -/
inductive Reached : Chain → Prop
  | first {b : Block} {c : Chain} (h : ofGenesis b = .ok c) : Reached c
  | offered {c : Chain} (h : Reached c) (b : Block) : Reached (c.offer b)

theorem blocks_ne_nil (c : Chain) : c.blocks ≠ [] := List.cons_ne_nil _ _

theorem length_blocks (c : Chain) : c.blocks.length = c.size := rfl

theorem getLast?_blocks (c : Chain) : c.blocks.getLast? = some c.tail := by
  rw [blocks, List.getLast?_cons, tail, List.getLastD_eq_getLast?]

theorem lastHash_blocks (c : Chain) : lastHash "" c.blocks = c.tail.hash := by
  rw [lastHash, getLast?_blocks]
  rfl

theorem exists_ofGenesis {b : Block} :
    (∃ c, ofGenesis b = .ok c) ↔ verifyChain [b] = .ok () := by
  have hfault : verifyChain [b] = .ok () ↔ b.fault? 0 "" = none := by
    simp only [verifyChain, verifyFrom]
    cases b.fault? 0 "" <;> simp
  constructor
  · rintro ⟨c, hc⟩
    unfold ofGenesis at hc
    split at hc
    · cases hc
    · cases hv : verifyChain [b] with
      | error e => simp [hv] at hc
      | ok u => rfl
  · intro hv
    obtain ⟨hindex, hprev, -⟩ := Block.fault?_eq_none.1 (hfault.1 hv)
    have hfirst : ¬ (¬ b.isGenesis ∨ b.prevHash ≠ "") := by
      have hzero : b.index = 0 := UInt64.toNat_inj.1 hindex
      simp [Block.isGenesis, hzero, hprev]
    exact ⟨_, by rw [ofGenesis, if_neg hfirst, hv]⟩

theorem exists_push {c : Chain} {b : Block} : (∃ d, c.push b = .ok d) ↔ c.pushFault? b = none := by
  unfold push
  cases c.pushFault? b <;> simp

theorem index_tail {c : Chain} (h : c.verify = .ok ()) : c.tail.index.toNat + 1 = c.size := by
  cases hlater : c.later using List.reverseRecOn with
  | nil =>
    have hsingle : c.blocks = [] ++ [c.genesis] := by rw [blocks, hlater, List.nil_append]
    have hfault := ((verifyFrom_concat ..).1 (hsingle ▸ verifyFrom_of_verifyChain h)).2
    have hindex := (Block.fault?_eq_none.1 hfault).1
    rw [tail, size, hlater]
    simpa using hindex
  | append_singleton later b =>
    have hsplit : c.blocks = (c.genesis :: later) ++ [b] := by rw [blocks, hlater, List.cons_append]
    have hfault := ((verifyFrom_concat ..).1 (hsplit ▸ verifyFrom_of_verifyChain h)).2
    have hindex := (Block.fault?_eq_none.1 hfault).1
    rw [tail, size, hlater]
    simpa using hindex

/-- On a verified chain a push finds fault where the whole chain would. -/
theorem pushFault?_eq_none {c : Chain} (h : c.verify = .ok ()) (b : Block) :
    c.pushFault? b = none ↔ b.fault? c.size c.tail.hash = none := by
  rw [Block.fault?_eq_none, ← index_tail h]
  unfold pushFault?
  by_cases hindex : b.index.toNat = c.tail.index.toNat + 1
  · by_cases hprev : b.prevHash = c.tail.hash
    · simp [hindex, hprev, Block.isSealed]
    · simp [hindex, hprev]
  · simp [hindex]

theorem push_iff_verifyChain {c : Chain} (h : c.verify = .ok ()) (b : Block) :
    (∃ d, c.push b = .ok d) ↔ verifyChain (c.blocks ++ [b]) = .ok () := by
  rw [exists_push, pushFault?_eq_none h, verifyChain_concat c.blocks_ne_nil, length_blocks,
    lastHash_blocks]
  exact (and_iff_right h).symm

theorem verify_push {c d : Chain} {b : Block} (h : c.verify = .ok ()) (hd : c.push b = .ok d) :
    d.verify = .ok () := by
  rw [verify, blocks_push hd]
  exact (push_iff_verifyChain h b).1 ⟨d, hd⟩

theorem verify_ofGenesis {b : Block} {c : Chain} (h : ofGenesis b = .ok c) : c.verify = .ok () := by
  rw [verify, blocks_ofGenesis h]
  exact exists_ofGenesis.1 ⟨c, h⟩

theorem blocks_offer {c : Chain} (h : c.verify = .ok ()) (b : Block) :
    (verifyChain (c.blocks ++ [b]) = .ok () → (c.offer b).blocks = c.blocks ++ [b]) ∧
      (verifyChain (c.blocks ++ [b]) ≠ .ok () → c.offer b = c) := by
  have hpush := push_iff_verifyChain h b
  constructor
  · intro hv
    obtain ⟨d, hd⟩ := hpush.2 hv
    rw [offer, hd, blocks_push hd]
  · intro hv
    unfold offer
    split
    · rename_i d hd
      exact absurd (hpush.1 ⟨d, hd⟩) hv
    · rfl

theorem verify_offer {c : Chain} (h : c.verify = .ok ()) (b : Block) :
    (c.offer b).verify = .ok () := by
  unfold offer
  split
  · rename_i d hd
    exact verify_push h hd
  · exact h

theorem Reached.verified {c : Chain} (h : c.Reached) : c.verify = .ok () := by
  induction h with
  | first h => exact verify_ofGenesis h
  | offered _ b ih => exact verify_offer ih b

theorem blocks_pushAll {c d : Chain} {bs : List Block} (h : c.pushAll bs = .ok d) :
    d.blocks = c.blocks ++ bs := by
  induction bs generalizing c with
  | nil =>
    cases h
    exact (List.append_nil _).symm
  | cons b bs ih =>
    rw [pushAll] at h
    split at h
    · cases h
    · rename_i e he
      rw [ih h, blocks_push he, List.append_assoc]
      rfl

theorem pushAll_iff_verifyChain {c : Chain} (h : c.verify = .ok ()) (bs : List Block) :
    (∃ d, c.pushAll bs = .ok d) ↔ verifyChain (c.blocks ++ bs) = .ok () := by
  induction bs generalizing c with
  | nil =>
    rw [List.append_nil]
    exact iff_of_true ⟨c, rfl⟩ h
  | cons b bs ih =>
    have hpush := push_iff_verifyChain h b
    have happend : c.blocks ++ b :: bs = (c.blocks ++ [b]) ++ bs := List.append_cons ..
    rw [pushAll, happend]
    split
    · rename_i e he
      refine iff_of_false (by simp) fun hv => ?_
      have hprefix := verifyChain_append (by simp) hv
      obtain ⟨d, hd⟩ := hpush.2 hprefix
      rw [he] at hd
      cases hd
    · rename_i d hd
      rw [ih (verify_push h hd), blocks_push hd]

theorem grow_iff_verifyChain (first : Block) (bs : List Block) :
    (∃ c, grow first bs = .ok c) ↔ verifyChain (first :: bs) = .ok () := by
  unfold grow
  split
  · rename_i e he
    refine iff_of_false (by simp) fun hv => ?_
    have hfirst : verifyChain [first] = .ok () := verifyChain_append (List.cons_ne_nil _ _) hv
    obtain ⟨c, hc⟩ := exists_ofGenesis.2 hfirst
    rw [he] at hc
    cases hc
  · rename_i c hc
    rw [pushAll_iff_verifyChain (verify_ofGenesis hc), blocks_ofGenesis hc]
    rfl

theorem blocks_grow {first : Block} {bs : List Block} {c : Chain} (h : grow first bs = .ok c) :
    c.blocks = first :: bs := by
  unfold grow at h
  split at h
  · cases h
  · rename_i d hd
    rw [blocks_pushAll h, blocks_ofGenesis hd]
    rfl

theorem addUInt64_index_tail {c : Chain} (h : c.verify = .ok ()) (hsize : c.size < UInt64.size) :
    addUInt64 (ε := Error) c.tail.index 1 = .ok (UInt64.ofNat c.size) := by
  have hindex := index_tail h
  have hone : (1 : UInt64).toNat = 1 := rfl
  have hnext : c.tail.index + 1 = UInt64.ofNat c.size := by
    rw [← hindex, UInt64.ofNat_add, UInt64.ofNat_toNat]
    rfl
  rw [addUInt64, hone, hindex, if_pos hsize, hnext]

/-- A list is accepted block by block exactly when it is verified as a whole, and then it is the
chain. So a push to any chain that has come about succeeds exactly when the longer list is verified,
and changes nothing otherwise; the tail has the last position, and the next one is a 64-bit number
as long as the number of blocks is; what stands ahead in a verified chain is verified. -/
theorem growth_verified :
    (∀ first bs, ((∃ c, grow first bs = .ok c) ↔ verifyChain (first :: bs) = .ok ()) ∧
      ∀ c, grow first bs = .ok c → c.snapshot = ⟨first :: bs⟩) ∧
    (∀ c : Chain, c.Reached →
      (∀ b, ((∃ d, c.push b = .ok d) ↔ verifyChain (c.snapshot.blocks ++ [b]) = .ok ()) ∧
        (verifyChain (c.snapshot.blocks ++ [b]) = .ok () →
          (c.offer b).snapshot = ⟨c.snapshot.blocks ++ [b]⟩) ∧
        (verifyChain (c.snapshot.blocks ++ [b]) ≠ .ok () → c.offer b = c)) ∧
      c.tail.index.toNat + 1 = c.size ∧
      (c.size < UInt64.size →
        addUInt64 (ε := Error) c.tail.index 1 = .ok (UInt64.ofNat c.size))) ∧
    ∀ xs ys, xs ≠ [] → verifyChain (xs ++ ys) = .ok () → verifyChain xs = .ok () := by
  refine ⟨fun first bs => ⟨grow_iff_verifyChain first bs, fun c hc => ?_⟩, fun c hc => ?_,
    fun xs ys => verifyChain_append⟩
  · rw [snapshot, blocks_grow hc]
  · have hverified := hc.verified
    refine ⟨fun b => ⟨push_iff_verifyChain hverified b, fun hv => ?_,
      (blocks_offer hverified b).2⟩, index_tail hverified, addUInt64_index_tail hverified⟩
    rw [snapshot, (blocks_offer hverified b).1 hv]
    rfl

theorem growth_verified_leap :
    let first := leapGenesis.proved 7
    let vote := leapVote.proved 9
    ∃ c : Chain, ofGenesis first = .ok c ∧ (c.offer vote).Reached ∧
      (c.offer vote).snapshot = ⟨[first, vote]⟩ ∧ (c.offer vote).offer vote = c.offer vote ∧
      (c.offer vote).size < UInt64.size ∧
      addUInt64 (ε := Error) (c.offer vote).tail.index 1 = .ok 2 ∧
      [first] ≠ [] ∧ verifyChain ([first] ++ [vote]) = .ok () ∧ verifyChain [first] = .ok () := by
  intro first vote
  obtain ⟨-, hreached, hprefix⟩ := growth_verified
  have hfirst : ofGenesis first = .ok ⟨first, []⟩ :=
    ofGenesis_proved rfl rfl (Block.meetsDifficulty_zero rfl)
  have hpair : verifyChain ([first] ++ [vote]) = .ok () :=
    verifyChain_pair
      (Block.fault?_eq_none.2 ⟨rfl, rfl, leapGenesis.computeHash_proved 7,
        Block.meetsDifficulty_zero rfl⟩)
      (Block.fault?_eq_none.2 ⟨rfl, leapVote.prevHash_proved 9, leapVote.computeHash_proved 9,
        Block.meetsDifficulty_zero rfl⟩)
  have hone : (Chain.mk first []).Reached := .first hfirst
  have htwo := hone.offered vote
  have hgrown := ((hreached _ hone).1 vote).2.1 hpair
  have hblocks : ((Chain.mk first []).offer vote).snapshot.blocks = [first, vote] := by
    rw [hgrown]
    rfl
  have htwice : verifyChain ([first, vote] ++ [vote]) ≠ .ok () := by
    intro hv
    have hindex := (Block.fault?_eq_none.1 ((verifyChain_concat (by simp) vote).1 hv).2).1
    exact absurd hindex (by decide)
  have hagain := ((hreached _ htwo).1 vote).2.2 (by rw [hblocks]; exact htwice)
  have hsize : ((Chain.mk first []).offer vote).size = 2 := by
    rw [← length_blocks]
    exact congrArg List.length hblocks
  have hroom : ((Chain.mk first []).offer vote).size < UInt64.size := by
    rw [hsize]
    decide
  have hnext := (hreached _ htwo).2.2 hroom
  rw [hsize] at hnext
  exact ⟨_, hfirst, htwo, hgrown, hagain, hroom, hnext, by simp, hpair,
    hprefix [first] [vote] (by simp) hpair⟩

end Chain

end AuditedPetitions.Ledger
