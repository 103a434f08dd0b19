import AuditedPetitions.Ledger.Chain
import Mathlib

/-! What a search comes to: a block with the fields of its template, whose stored hash is the
computed one and meets the difficulty. The walk over the nonces ends at the least good one, and
without a nonce only if none is good. -/

namespace AuditedPetitions.Ledger

section Walk
variable {good : UInt64 → Bool} {n m : UInt64}

/-- Good numbers from a number upward. -/
def goodFrom (good : UInt64 → Bool) (n : UInt64) : Set UInt64 := {k | n ≤ k ∧ good k = true}

theorem goodFrom_zero : goodFrom good 0 = {k | good k = true} := by
  ext k
  exact and_iff_right (UInt64.zero_le ..)

theorem toNat_last : (UInt64.ofNat (UInt64.size - 1)).toNat = UInt64.size - 1 := rfl

theorem goodFrom_last (hbad : ¬ good (UInt64.ofNat (UInt64.size - 1)) = true) :
    goodFrom good (UInt64.ofNat (UInt64.size - 1)) = ∅ := by
  refine Set.eq_empty_iff_forall_notMem.2 ?_
  rintro k ⟨hle, hgood⟩
  have hlt := k.toNat_lt_size
  rw [UInt64.le_iff_toNat_le, toNat_last] at hle
  have hk : k.toNat = (UInt64.ofNat (UInt64.size - 1)).toNat :=
    le_antisymm (Nat.le_sub_one_of_lt hlt) hle
  exact hbad (UInt64.toNat_inj.1 hk ▸ hgood)

theorem goodFrom_step (hbad : ¬ good n = true) (hlast : n ≠ UInt64.ofNat (UInt64.size - 1)) :
    goodFrom good n = goodFrom good (n + 1) := by
  have hmax : n.toNat ≠ UInt64.size - 1 := fun h => hlast (UInt64.toNat_inj.1 h)
  have hroom : n.toNat + 1 < UInt64.size := by
    have hlt := n.toNat_lt_size
    omega
  have hstep : (n + 1).toNat = n.toNat + 1 := by
    rw [UInt64.toNat_add, UInt64.toNat_one]
    exact Nat.mod_eq_of_lt hroom
  ext k
  simp only [goodFrom, Set.mem_ofPred_eq, UInt64.le_iff_toNat_le, hstep]
  constructor
  · rintro ⟨hle, hgood⟩
    have hne : n.toNat ≠ k.toNat := fun h => hbad (UInt64.toNat_inj.1 h ▸ hgood)
    exact ⟨by omega, hgood⟩
  · rintro ⟨hle, hgood⟩
    exact ⟨by omega, hgood⟩

theorem leastFrom_eq_some : leastFrom good n = some m ↔ IsLeast (goodFrom good n) m := by
  fun_induction leastFrom good n with
  | case1 n hgood =>
    constructor
    · rintro h
      cases h
      exact ⟨⟨UInt64.le_refl _, hgood⟩, fun k hk => hk.1⟩
    · rintro ⟨hm, hleast⟩
      exact congrArg some (UInt64.le_antisymm hm.1 (hleast ⟨UInt64.le_refl _, hgood⟩))
  | case2 hbad =>
    rw [goodFrom_last hbad]
    exact iff_of_false (by simp) fun hm => hm.1
  | case3 n hbad hlast ih => rw [ih, goodFrom_step hbad hlast]

theorem leastFrom_eq_none : leastFrom good n = none ↔ goodFrom good n = ∅ := by
  fun_induction leastFrom good n with
  | case1 n hgood =>
    refine iff_of_false (by simp) (Set.Nonempty.ne_empty ?_)
    exact ⟨n, UInt64.le_refl _, hgood⟩
  | case2 hbad => exact iff_of_true rfl (goodFrom_last hbad)
  | case3 n hbad hlast ih => rw [ih, goodFrom_step hbad hlast]

end Walk

theorem replicate_prefix_iff {n : Nat} {cs : List Char} :
    List.replicate n '0' <+: cs ↔ n ≤ (cs.takeWhile (· == '0')).length := by
  induction n generalizing cs with
  | zero => simp
  | succ n ih =>
    cases cs with
    | nil => simp [List.replicate_succ]
    | cons c cs =>
      rw [List.replicate_succ, List.cons_prefix_cons, ih]
      by_cases hc : c = '0'
      · simp [hc]
      · simp [hc, Ne.symm hc]

theorem meetsDifficulty_iff {hash : String} {difficulty : UInt32} :
    meetsDifficulty hash difficulty = true ↔
      List.replicate difficulty.toNat '0' <+: hash.toList := by
  rw [meetsDifficulty, decide_eq_true_eq, replicate_prefix_iff]
  rfl

namespace Block

theorem fault?_eq_none {b : Block} {position : Nat} {prev : String} :
    b.fault? position prev = none ↔ b.index.toNat = position ∧ b.prevHash = prev ∧
      b.computeHash = b.hash ∧ b.meetsDifficulty = true := by
  unfold fault?
  by_cases hindex : b.index.toNat = position
  · by_cases hprev : b.prevHash = prev
    · by_cases hhash : b.computeHash = b.hash
      · simp [hindex, hprev, hhash]
      · simp [hindex, hprev, hhash]
    · simp [hindex, hprev]
  · simp [hindex]

theorem meetsDifficulty_zero {b : Block} (h : b.difficulty = 0) : b.meetsDifficulty = true := by
  simp [meetsDifficulty, Ledger.meetsDifficulty, h]

end Block

theorem verifyChain_single {b : Block} (h : b.fault? 0 "" = none) : verifyChain [b] = .ok () := by
  simp only [verifyChain, verifyFrom, h]

namespace Template

/-- Block of a template with a nonce and the hash that belongs to it. -/
def proved (t : Template) (nonce : UInt64) : Block :=
  t.withProof nonce (digestFrom t.header nonce t.difficulty)

@[simp] theorem index_proved (t : Template) (nonce : UInt64) :
    (t.proved nonce).index = t.index := rfl

@[simp] theorem prevHash_proved (t : Template) (nonce : UInt64) :
    (t.proved nonce).prevHash = t.prevHash := rfl

@[simp] theorem transaction_proved (t : Template) (nonce : UInt64) :
    (t.proved nonce).transaction = t.transaction := rfl

theorem computeHash_proved (t : Template) (nonce : UInt64) :
    (t.proved nonce).computeHash = (t.proved nonce).hash :=
  (digestFrom_header t nonce).symm

theorem isSealed_proved (t : Template) (nonce : UInt64) :
    (t.proved nonce).isSealed = (t.proved nonce).meetsDifficulty := by
  simp [Block.isSealed, computeHash_proved]

theorem findSeal_eq_ok {t : Template} {s : Sealed} (h : t.findSeal = .ok s) :
    ∃ nonce, s.block = t.proved nonce ∧ s.block.isSealed = true := by
  simp only [findSeal] at h
  split at h
  · cases h
  split at h
  · cases h
  · rename_i nonce hnonce
    have hgood := (leastFrom_eq_some.1 hnonce).1.2
    cases h
    exact ⟨nonce, rfl, (isSealed_proved t nonce).trans hgood⟩

theorem findSeal_zero {t : Template} (h : t.difficulty = 0) : t.findSeal = .ok ⟨t.proved 0, 1⟩ := by
  have hgood (hash : String) : Ledger.meetsDifficulty hash t.difficulty = true := by
    simp [Ledger.meetsDifficulty, h]
  have hleast : leastFrom (fun nonce => Ledger.meetsDifficulty
      (digestFrom t.header nonce t.difficulty) t.difficulty) 0 = some 0 := by
    rw [leastFrom, if_pos (hgood _)]
  have hreach : ¬ 64 < t.difficulty := by
    rw [h]
    decide
  simp only [findSeal, if_neg hreach, hleast]
  rfl

end Template

theorem Chain.ofGenesis_proved {t : Template} {nonce : UInt64} (hindex : t.index = 0)
    (hprev : t.prevHash = "") (hmeets : (t.proved nonce).meetsDifficulty = true) :
    ofGenesis (t.proved nonce) = .ok ⟨t.proved nonce, []⟩ := by
  have hfault : (t.proved nonce).fault? 0 "" = none :=
    Block.fault?_eq_none.2 ⟨by simp [hindex], hprev, t.computeHash_proved nonce, hmeets⟩
  have hfirst : ¬ (¬ (t.proved nonce).isGenesis = true ∨ (t.proved nonce).prevHash ≠ "") := by
    simp [Block.isGenesis, hindex, hprev]
  simp only [ofGenesis, if_neg hfirst, verifyChain_single hfault]

end AuditedPetitions.Ledger
