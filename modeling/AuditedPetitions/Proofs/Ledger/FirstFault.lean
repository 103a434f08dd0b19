import AuditedPetitions.Proofs.Ledger.Growth
import AuditedPetitions.Proofs.Ledger.NonceSearch
import Mathlib

/-! Where a chain is at fault. A block in its place is asked four things: its index, its link to the
block before, its own hash and its work. A list is accepted when every block meets all of them; else
the walk names the first block that does not, and there the first condition it fails. A stretch that
was rewritten and stores another hash at its end is found out in the stretch or at the block behind
it, whatever was done to seal it again. -/

namespace AuditedPetitions.Ledger

/-- What is asked of a block in its place. -/
inductive Condition
  | index
  | link
  | hash
  | difficulty
  deriving DecidableEq, Repr

namespace Condition

/-- Place in the order in which a block is asked. -/
def rank : Condition → Nat
  | .index => 0
  | .link => 1
  | .hash => 2
  | .difficulty => 3

/-- A block at a position, behind a block with the given hash, meets a condition. -/
def Met (position : Nat) (prev : String) (b : Block) : Condition → Prop
  | .index => b.index.toNat = position
  | .link => b.prevHash = prev
  | .hash => b.hash = b.computeHash
  | .difficulty => List.replicate b.difficulty.toNat '0' <+: b.hash.toList

/-- Fault of a block that fails a condition. -/
def fault (b : Block) : Condition → IntegrityFault
  | .index => .outOfSequence b.index
  | .link => .unlinked
  | .hash => .hashMismatch
  | .difficulty => .difficultyMissed b.difficulty

/-- A block fails a condition, and meets each one ahead of it. -/
structure FirstFailed (position : Nat) (prev : String) (b : Block) (c : Condition) : Prop where
  failed : ¬ c.Met position prev b
  ahead : ∀ d : Condition, d.rank < c.rank → d.Met position prev b

theorem forall_iff {p : Condition → Prop} :
    (∀ c, p c) ↔ p .index ∧ p .link ∧ p .hash ∧ p .difficulty := by
  constructor
  · intro h
    exact ⟨h _, h _, h _, h _⟩
  · rintro ⟨hindex, hlink, hhash, hdifficulty⟩ c
    cases c <;> assumption

section OneBlock
variable {b : Block} {position : Nat} {prev : String}

theorem met_index : index.Met position prev b ↔ b.index.toNat = position := Iff.rfl

theorem met_link : link.Met position prev b ↔ b.prevHash = prev := Iff.rfl

theorem met_hash : hash.Met position prev b ↔ b.computeHash = b.hash := eq_comm

theorem met_difficulty : difficulty.Met position prev b ↔ b.meetsDifficulty = true :=
  meetsDifficulty_iff.symm

theorem exists_firstFailed (h : ∃ c : Condition, ¬ c.Met position prev b) :
    ∃ c : Condition, c.FirstFailed position prev b := by
  obtain ⟨c, hfailed, hleast⟩ := (measure rank).wf.has_min {c | ¬ c.Met position prev b} h
  exact ⟨c, hfailed, fun d hd => not_not.1 fun hd' => hleast d hd' hd⟩

theorem FirstFailed.fault?_eq {c : Condition} (h : c.FirstFailed position prev b) :
    b.fault? position prev = some (c.fault b) := by
  obtain ⟨hfailed, hahead⟩ := h
  unfold Block.fault?
  cases c with
  | index => rw [if_pos (mt met_index.2 hfailed), fault]
  | link =>
    have hindex := met_index.1 (hahead .index (by decide))
    rw [if_neg (not_not.2 hindex), if_pos (mt met_link.2 hfailed), fault]
  | hash =>
    have hindex := met_index.1 (hahead .index (by decide))
    have hlink := met_link.1 (hahead .link (by decide))
    rw [if_neg (not_not.2 hindex), if_neg (not_not.2 hlink),
      if_pos (mt met_hash.2 hfailed), fault]
  | difficulty =>
    have hindex := met_index.1 (hahead .index (by decide))
    have hlink := met_link.1 (hahead .link (by decide))
    have hhash := met_hash.1 (hahead .hash (by decide))
    rw [if_neg (not_not.2 hindex), if_neg (not_not.2 hlink), if_neg (not_not.2 hhash),
      if_pos (mt met_difficulty.2 hfailed), fault]

end OneBlock

end Condition

namespace Block
variable {b : Block} {position : Nat} {prev : String}

theorem fault?_eq_none_iff_met :
    b.fault? position prev = none ↔ ∀ c : Condition, c.Met position prev b := by
  rw [fault?_eq_none, Condition.forall_iff, Condition.met_index, Condition.met_link,
    Condition.met_hash, Condition.met_difficulty]

theorem fault?_eq_some {fault : IntegrityFault} :
    b.fault? position prev = some fault ↔
      ∃ c : Condition, c.FirstFailed position prev b ∧ fault = c.fault b := by
  constructor
  · intro h
    have hnone : ¬ ∀ c : Condition, c.Met position prev b := by
      rw [← fault?_eq_none_iff_met, h]
      simp
    obtain ⟨c, hc⟩ := Condition.exists_firstFailed (not_forall.1 hnone)
    exact ⟨c, hc, Option.some.inj (h.symm.trans hc.fault?_eq)⟩
  · rintro ⟨c, hc, rfl⟩
    exact hc.fault?_eq

theorem met_proved {t : Template} {nonce : UInt64} (h : t.Good nonce) (c : Condition) :
    c.Met t.index.toNat t.prevHash (t.proved nonce) := by
  cases c with
  | index => rfl
  | link => rfl
  | hash => exact (t.computeHash_proved nonce).symm
  | difficulty => exact Condition.met_difficulty.2 (Template.good_iff.1 h)

theorem fault?_proved {t : Template} {nonce : UInt64} (h : t.Good nonce) :
    (t.proved nonce).fault? t.index.toNat t.prevHash = none :=
  fault?_eq_none_iff_met.2 (met_proved h)

end Block

/-- Hash that a block stores at a position of a list. -/
def hashAt? (bs : List Block) (i : Nat) : Option String := bs[i]?.map Block.hash

/-- Hash that the block at a position links to: the one of the block before it, or the given one. -/
def linkAt (prev : String) (bs : List Block) : Nat → String
  | 0 => prev
  | i + 1 => (hashAt? bs i).getD ""

theorem linkAt_cons (prev : String) (b : Block) (bs : List Block) (i : Nat) :
    linkAt prev (b :: bs) (i + 1) = linkAt b.hash bs i := by
  cases i <;> rfl

theorem linkAt_congr {prev : String} {xs ys : List Block} {i : Nat}
    (h : ∀ k < i, xs[k]? = ys[k]?) : linkAt prev xs i = linkAt prev ys i := by
  cases i with
  | zero => rfl
  | succ i => rw [linkAt, linkAt, hashAt?, hashAt?, h i (Nat.lt_succ_self i)]

/-- The block at a position, if there is one, has no fault in its place. -/
def FaultlessAt (position : Nat) (prev : String) (bs : List Block) (i : Nat) : Prop :=
  ∀ b, bs[i]? = some b → b.fault? (position + i) (linkAt prev bs i) = none

/-- The block at a position has a fault, and no block ahead of it has one. -/
structure FirstFault (position : Nat) (prev : String) (bs : List Block) (i : Nat)
    (fault : IntegrityFault) : Prop where
  found : ∃ b, bs[i]? = some b ∧ b.fault? (position + i) (linkAt prev bs i) = some fault
  ahead : ∀ j < i, FaultlessAt position prev bs j

section Walk
variable {position : Nat} {prev : String} {b : Block} {bs : List Block} {i : Nat}
  {fault : IntegrityFault}

theorem faultlessAt_zero :
    FaultlessAt position prev (b :: bs) 0 ↔ b.fault? position prev = none := by
  simp [FaultlessAt, linkAt]

theorem faultlessAt_succ :
    FaultlessAt position prev (b :: bs) (i + 1) ↔ FaultlessAt (position + 1) b.hash bs i := by
  simp only [FaultlessAt, List.getElem?_cons_succ, linkAt_cons, Nat.add_right_comm position 1,
    Nat.add_assoc]

theorem firstFault_zero :
    FirstFault position prev (b :: bs) 0 fault ↔ b.fault? position prev = some fault := by
  constructor
  · rintro ⟨⟨c, hc, hfault⟩, -⟩
    cases hc
    exact hfault
  · intro hfault
    exact ⟨⟨b, rfl, hfault⟩, fun j hj => absurd hj (Nat.not_lt_zero j)⟩

theorem firstFault_succ :
    FirstFault position prev (b :: bs) (i + 1) fault ↔
      b.fault? position prev = none ∧ FirstFault (position + 1) b.hash bs i fault := by
  have hposition : position + (i + 1) = position + 1 + i := by omega
  constructor
  · rintro ⟨⟨c, hc, hfault⟩, hahead⟩
    refine ⟨faultlessAt_zero.1 (hahead 0 (Nat.succ_pos i)), ⟨c, hc, ?_⟩, fun j hj => ?_⟩
    · rw [← hposition, ← linkAt_cons prev, hfault]
    · exact faultlessAt_succ.1 (hahead (j + 1) (Nat.succ_lt_succ hj))
  · rintro ⟨hfirst, ⟨c, hc, hfault⟩, hahead⟩
    refine ⟨⟨c, hc, ?_⟩, fun j hj => ?_⟩
    · rw [hposition, linkAt_cons, hfault]
    · cases j with
      | zero => exact faultlessAt_zero.2 hfirst
      | succ j => exact faultlessAt_succ.2 (hahead j (Nat.lt_of_succ_lt_succ hj))

theorem verifyFrom_eq_ok :
    verifyFrom position prev bs = .ok () ↔ ∀ i, FaultlessAt position prev bs i := by
  induction bs generalizing position prev with
  | nil => simp [verifyFrom, FaultlessAt]
  | cons b bs ih =>
    rw [← Nat.and_forall_add_one, faultlessAt_zero]
    simp only [faultlessAt_succ, ← ih, verifyFrom]
    cases b.fault? position prev <;> simp

theorem verifyFrom_eq_error {e : Error} :
    verifyFrom position prev bs = .error e ↔
      ∃ i fault, FirstFault position prev bs i fault ∧ e = .integrity (position + i) fault := by
  induction bs generalizing position prev with
  | nil =>
    refine iff_of_false (by simp [verifyFrom]) ?_
    rintro ⟨i, fault, ⟨⟨b, hb, -⟩, -⟩, -⟩
    simp at hb
  | cons b bs ih =>
    have hposition (i : Nat) : position + 1 + i = position + (i + 1) := by omega
    rw [← Nat.or_exists_add_one]
    simp only [firstFault_zero, firstFault_succ, Nat.add_zero, verifyFrom]
    cases b.fault? position prev with
    | some fault => simp [eq_comm]
    | none => simp [ih, hposition]

end Walk

/-- The block at a position of a whole list, if there is one, meets all that is asked of it there. -/
def SoundAt (bs : List Block) (i : Nat) : Prop :=
  ∀ b, bs[i]? = some b → ∀ c : Condition, c.Met i (linkAt "" bs i) b

theorem soundAt_iff {bs : List Block} {i : Nat} : SoundAt bs i ↔ FaultlessAt 0 "" bs i := by
  simp only [SoundAt, FaultlessAt, Block.fault?_eq_none_iff_met, Nat.zero_add]

theorem firstFault_iff {bs : List Block} {i : Nat} {fault : IntegrityFault} :
    FirstFault 0 "" bs i fault ↔ IsLeast {k | ¬ SoundAt bs k} i ∧
      ∃ (b : Block) (c : Condition), bs[i]? = some b ∧ c.FirstFailed i (linkAt "" bs i) b ∧
        fault = c.fault b := by
  constructor
  · rintro ⟨⟨b, hb, hfault⟩, hahead⟩
    rw [Nat.zero_add] at hfault
    obtain ⟨c, hc, rfl⟩ := Block.fault?_eq_some.1 hfault
    refine ⟨⟨fun hsound => hc.failed (hsound b hb c), fun j hj => ?_⟩, b, c, hb, hc, rfl⟩
    exact not_lt.1 fun hlt => hj (soundAt_iff.2 (hahead j hlt))
  · rintro ⟨⟨-, hleast⟩, b, c, hb, hc, rfl⟩
    refine ⟨⟨b, hb, ?_⟩, fun j hj => ?_⟩
    · rw [Nat.zero_add, hc.fault?_eq]
    · exact soundAt_iff.1 (not_not.1 fun hj' => not_le.2 hj (hleast hj'))

theorem verifyChain_iff_soundAt {bs : List Block} :
    verifyChain bs = .ok () ↔ bs ≠ [] ∧ ∀ i, SoundAt bs i := by
  simp only [verifyChain_eq_ok, verifyFrom_eq_ok, soundAt_iff]

theorem verifyChain_eq_error {bs : List Block} {e : Error} :
    verifyChain bs = .error e ↔ bs = [] ∧ e = .integrity 0 .emptyChain ∨
      ∃ i fault, FirstFault 0 "" bs i fault ∧ e = .integrity i fault := by
  cases bs with
  | nil =>
    have hnone : ¬ ∃ i fault, FirstFault 0 "" [] i fault ∧ e = .integrity i fault := by
      rintro ⟨i, fault, ⟨⟨b, hb, -⟩, -⟩, -⟩
      simp at hb
    simp [verifyChain, hnone, eq_comm]
  | cons b bs =>
    simp only [verifyChain, verifyFrom_eq_error, Nat.zero_add, reduceCtorEq, false_and, false_or]

/-- A list is accepted exactly when it has a block and every block, in its place, has its position for
index, the hash of the block before for previous hash (none for the first one), the hash that its
fields determine, and the zeros that its difficulty asks for. Otherwise the error is that the list is
empty, or it names the least position that fails and the first condition that fails there. -/
theorem verifyChain_decides (bs : List Block) :
    (verifyChain bs = .ok () ↔ bs ≠ [] ∧ ∀ i, SoundAt bs i) ∧
    ∀ e, verifyChain bs = .error e ↔
      bs = [] ∧ e = .integrity 0 .emptyChain ∨
      ∃ (i : Nat) (b : Block) (c : Condition), IsLeast {k | ¬ SoundAt bs k} i ∧
        bs[i]? = some b ∧ c.FirstFailed i (linkAt "" bs i) b ∧ e = .integrity i (c.fault b) := by
  refine ⟨verifyChain_iff_soundAt, fun e => ?_⟩
  rw [verifyChain_eq_error]
  refine or_congr_right ⟨?_, ?_⟩
  · rintro ⟨i, fault, hfirst, he⟩
    obtain ⟨hleast, b, c, hb, hc, rfl⟩ := firstFault_iff.1 hfirst
    exact ⟨i, b, c, hleast, hb, hc, he⟩
  · rintro ⟨i, b, c, hleast, hb, hc, he⟩
    exact ⟨i, c.fault b, firstFault_iff.2 ⟨hleast, b, c, hb, hc, rfl⟩, he⟩

theorem verifyChain_decides_misplaced :
    let first := (Template.opening "a").proved 1
    let rival := (Template.opening "n").proved 1
    let bs := [first, { rival with index := 1 }, rival]
    IsLeast {k | ¬ SoundAt bs k} 1 ∧ verifyChain bs = .error (.integrity 1 .unlinked) := by
  intro first rival bs
  have hsound : SoundAt bs 0 := by
    rintro b hb c
    cases hb
    exact Block.met_proved Template.good_opening c
  have hlink : ¬ Condition.link.Met 1 (linkAt "" bs 1) { rival with index := 1 } := by
    show ¬ "" = first.hash
    rw [Template.hash_opening]
    decide
  have hleast : IsLeast {k | ¬ SoundAt bs k} 1 := by
    refine ⟨fun hsecond => hlink (hsecond _ rfl .link), fun i hi => Nat.one_le_iff_ne_zero.2 ?_⟩
    rintro rfl
    exact hi hsound
  have hahead : ∀ d : Condition, d.rank < Condition.link.rank →
      d.Met 1 (linkAt "" bs 1) { rival with index := 1 } := by
    rintro (_ | _ | _ | _) hd
    · rfl
    all_goals exact absurd hd (by decide)
  exact ⟨hleast, ((verifyChain_decides bs).2 _).2
    (.inr ⟨1, _, .link, hleast, rfl, ⟨hlink, hahead⟩, rfl⟩)⟩

theorem SoundAt.congr {xs ys : List Block} {i : Nat} (h : SoundAt xs i)
    (hsame : ∀ k ≤ i, ys[k]? = xs[k]?) : SoundAt ys i := by
  intro b hb c
  rw [hsame i le_rfl] at hb
  rw [linkAt_congr fun k hk => hsame k (Nat.le_of_lt hk)]
  exact h b hb c

theorem SoundAt.hashAt?_eq {xs ys : List Block} {j : Nat} {b : Block} (hx : SoundAt xs (j + 1))
    (hy : SoundAt ys (j + 1)) (hxb : xs[j + 1]? = some b) (hyb : ys[j + 1]? = some b) :
    hashAt? xs j = hashAt? ys j := by
  have hlink : linkAt "" xs (j + 1) = linkAt "" ys (j + 1) :=
    (hx b hxb .link).symm.trans (hy b hyb .link)
  have hxj : j < xs.length := Nat.lt_of_succ_lt (List.getElem?_eq_some_iff.1 hxb).1
  have hyj : j < ys.length := Nat.lt_of_succ_lt (List.getElem?_eq_some_iff.1 hyb).1
  simpa [linkAt, hashAt?, hxj, hyj] using hlink

/-- A list that leaves an accepted one at a position, stores another hash at a later one and goes on
behind that with the block of the accepted list is refused, at a position from the first of the two to
the block behind the second. -/
theorem verifyChain_forged {xs ys : List Block} {i j : Nat} (h : verifyChain xs = .ok ())
    (hj : j + 1 < xs.length) (hbefore : ∀ k < i, ys[k]? = xs[k]?)
    (hbehind : ys[j + 1]? = xs[j + 1]?) (hhash : hashAt? ys j ≠ hashAt? xs j) :
    ∃ k fault, verifyChain ys = .error (.integrity k fault) ∧ i ≤ k ∧ k ≤ j + 1 := by
  obtain ⟨-, hsound⟩ := verifyChain_iff_soundAt.1 h
  have hxb : xs[j + 1]? = some xs[j + 1] := List.getElem?_eq_getElem hj
  have hyb : ys[j + 1]? = some xs[j + 1] := hbehind.trans hxb
  -- the block behind the stretch still names the hash that the accepted list stores
  have hbroken : ¬ SoundAt ys (j + 1) := fun hy =>
    hhash (hy.hashAt?_eq (hsound (j + 1)) hyb hxb)
  cases hverify : verifyChain ys with
  | ok u => exact absurd ((verifyChain_iff_soundAt.1 hverify).2 (j + 1)) hbroken
  | error e =>
    rcases verifyChain_eq_error.1 hverify with ⟨rfl, -⟩ | ⟨k, fault, hfirst, rfl⟩
    · simp at hyb
    · obtain ⟨⟨hfailed, hleast⟩, -⟩ := firstFault_iff.1 hfirst
      refine ⟨k, fault, rfl, not_lt.1 fun hk => hfailed ?_, hleast hbroken⟩
      exact (hsound k).congr fun l hl => hbefore l (lt_of_le_of_lt hl hk)

theorem hash_rival : ((Template.opening "n").proved 1).hash =
    "024b11938997e9c1a4ab1cdc7c482333183858b8096880b051a22bfab8eb8580" := by
  decide +kernel

theorem verifyChain_forged_opening :
    let first := (Template.opening "a").proved 1
    let vote := (Template.mk 1 default leapVote.transaction first.hash 0).proved 0
    let rival := (Template.opening "n").proved 1
    verifyChain [first, vote] = .ok () ∧ verifyChain [rival] = .ok () ∧
      hashAt? [rival, vote] 0 ≠ hashAt? [first, vote] 0 ∧
      ∃ k fault, verifyChain [rival, vote] = .error (.integrity k fault) ∧ 0 ≤ k ∧ k ≤ 1 := by
  intro first vote rival
  have hgood : (Template.opening "n").Good 1 := by
    rw [Template.Good, Template.computeHash_withProof, hash_rival]
    decide
  have hvote : (Template.mk 1 default leapVote.transaction first.hash 0).Good 0 := List.nil_prefix
  have hverified : verifyChain [first, vote] = .ok () :=
    verifyChain_pair (Block.fault?_proved Template.good_opening) (Block.fault?_proved hvote)
  have hrival : verifyChain [rival] = .ok () := verifyChain_single (Block.fault?_proved hgood)
  have hhash : hashAt? [rival, vote] 0 ≠ hashAt? [first, vote] 0 := by
    show some rival.hash ≠ some first.hash
    rw [hash_rival, Template.hash_opening]
    decide
  have hbehind : [rival, vote][0 + 1]? = [first, vote][0 + 1]? := by
    rw [List.getElem?_cons_succ, List.getElem?_cons_succ]
  exact ⟨hverified, hrival, hhash, verifyChain_forged hverified (by simp) (by simp) hbehind hhash⟩

end AuditedPetitions.Ledger
