import AuditedPetitions.Proofs.Ledger.Binding
import Mathlib

/-! The nonce that a search comes to. What the search takes for good is what a verifier recomputes: the
header that is hashed once leads to the digest of the whole text, and a difficulty that is refused
unsearched asks for more zeros than a digest has characters. -/

namespace AuditedPetitions.Ledger

namespace Template

/-- The hash that belongs to a template with a nonce begins with the zeros that are asked for. -/
def Good (t : Template) (nonce : UInt64) : Prop :=
  List.replicate t.difficulty.toNat '0' <+: (t.withProof nonce "").computeHash.toList

instance (t : Template) (nonce : UInt64) : Decidable (t.Good nonce) :=
  inferInstanceAs (Decidable (_ <+: _))

theorem computeHash_withProof (t : Template) (nonce : UInt64) (hash : String) :
    (t.withProof nonce hash).computeHash = (t.proved nonce).hash := t.computeHash_proved nonce

theorem good_iff {t : Template} {nonce : UInt64} :
    t.Good nonce ↔
      Ledger.meetsDifficulty (digestFrom t.header nonce t.difficulty) t.difficulty = true := by
  rw [meetsDifficulty_iff, digestFrom_header]
  rfl

theorem not_good {t : Template} (h : 64 < t.difficulty) (nonce : UInt64) : ¬ t.Good nonce := by
  intro hgood
  have hle := hgood.length_le
  rw [List.length_replicate, Block.length_computeHash] at hle
  have hlt : (64 : UInt32).toNat < t.difficulty.toNat := h
  exact absurd hle (Nat.not_le.2 hlt)

/-- Least good nonce, if there is one. -/
def nonce? (t : Template) : Option UInt64 := leastFrom (fun nonce => decide (t.Good nonce)) 0

theorem nonce?_eq_some {t : Template} {nonce : UInt64} :
    t.nonce? = some nonce ↔ IsLeast {n | t.Good n} nonce := by
  simp only [nonce?, leastFrom_eq_some, goodFrom_zero, decide_eq_true_eq]

theorem nonce?_eq_none {t : Template} : t.nonce? = none ↔ ∀ n, ¬ t.Good n := by
  simp only [nonce?, leastFrom_eq_none, goodFrom_zero, decide_eq_true_eq]
  exact Set.eq_empty_iff_forall_notMem

/-- A search goes on from the hashed header and leaves out what cannot be met; it comes to what
recomputing every hash would come to. -/
theorem findSeal_eq (t : Template) :
    t.findSeal = match t.nonce? with
      | none => .error (.sealing .nonceSpaceExhausted)
      | some nonce => .ok ⟨t.proved nonce, nonce.toNat + 1⟩ := by
  by_cases hreach : 64 < t.difficulty
  · have hnone : t.nonce? = none := nonce?_eq_none.2 (not_good hreach)
    simp only [findSeal, if_pos hreach, hnone]
  · have hgood : (fun nonce => decide (t.Good nonce)) = fun nonce =>
        Ledger.meetsDifficulty (digestFrom t.header nonce t.difficulty) t.difficulty := by
      funext nonce
      rw [Bool.eq_iff_iff, decide_eq_true_eq, good_iff]
    simp only [findSeal, if_neg hreach, nonce?, hgood]
    rfl

/-- What a search is to find: the block of its template with the least good nonce and the hash that
belongs to it, after one digest for every nonce up to that. -/
structure LeastSeal (t : Template) (s : Sealed) : Prop where
  least : IsLeast {n | t.Good n} s.block.nonce
  index : s.block.index = t.index
  timestamp : s.block.timestamp = t.timestamp
  transaction : s.block.transaction = t.transaction
  prevHash : s.block.prevHash = t.prevHash
  difficulty : s.block.difficulty = t.difficulty
  computeHash : s.block.computeHash = s.block.hash
  meetsDifficulty : s.block.meetsDifficulty = true
  attempts : s.attempts = s.block.nonce.toNat + 1

theorem leastSeal {t : Template} {nonce : UInt64} (h : IsLeast {n | t.Good n} nonce) :
    t.LeastSeal ⟨t.proved nonce, nonce.toNat + 1⟩ where
  least := h
  index := rfl
  timestamp := rfl
  transaction := rfl
  prevHash := rfl
  difficulty := rfl
  computeHash := t.computeHash_proved nonce
  meetsDifficulty := good_iff.1 h.1
  attempts := rfl

/-- A search finds the least good nonce, and refuses a template exactly when it has none, as with any
difficulty beyond the length of a digest. The number of digests is counted in a 64-bit number, so the
nonce is to have a next one. -/
theorem findSeal_exact (t : Template) :
    (∀ n, t.Good n → n.toNat < UInt64.size - 1 →
      ∃ s, t.findSeal = .ok s ∧ t.LeastSeal s ∧ s.attempts < UInt64.size) ∧
    (∀ e, t.findSeal = .error e ↔
      e = .sealing .nonceSpaceExhausted ∧ ∀ n, ¬ t.Good n) ∧
    (64 < t.difficulty → ∀ n, ¬ t.Good n) := by
  refine ⟨fun n hgood hn => ?_, fun e => ?_, not_good⟩
  · cases hsearch : t.nonce? with
    | none => exact absurd hgood (nonce?_eq_none.1 hsearch n)
    | some m =>
      have hleast := nonce?_eq_some.1 hsearch
      have hle : m.toNat ≤ n.toNat := hleast.2 hgood
      refine ⟨⟨t.proved m, m.toNat + 1⟩, ?_, leastSeal hleast, ?_⟩
      · rw [findSeal_eq, hsearch]
      · show m.toNat + 1 < UInt64.size
        omega
  · rw [findSeal_eq, ← nonce?_eq_none]
    cases t.nonce? with
    | none => simp [eq_comm]
    | some m => simp

/-- First template of a chain whose hash is to begin with a zero. -/
def opening (description : String) : Template := .genesis 1 description default default

theorem hash_opening : ((opening "a").proved 1).hash =
    "054feb6472421d7fb84c6f83b6c158536489bc51e06f40a087a57c073859b2d7" := by
  decide +kernel

theorem good_opening : (opening "a").Good 1 := by
  rw [Good, computeHash_withProof, hash_opening]
  decide

theorem findSeal_exact_opening :
    (opening "a").Good 1 ∧ (1 : UInt64).toNat < UInt64.size - 1 ∧
      (∃ s, (opening "a").findSeal = .ok s ∧ s.block.nonce = 1 ∧ s.attempts = 2) ∧
      (64 : UInt32) < 65 ∧
      { opening "a" with difficulty := 65 }.findSeal =
        .error (.sealing .nonceSpaceExhausted) := by
  have hroom : (1 : UInt64).toNat < UInt64.size - 1 := by decide
  obtain ⟨s, hs, hleast, -⟩ := (findSeal_exact (opening "a")).1 1 good_opening hroom
  have hfirst : ¬ (opening "a").Good 0 := by decide +kernel
  have hnonce : s.block.nonce = 1 := by
    have hle : s.block.nonce.toNat ≤ 1 := hleast.least.2 good_opening
    have hne : s.block.nonce.toNat ≠ (0 : UInt64).toNat := fun h =>
      hfirst (UInt64.toNat_inj.1 h ▸ hleast.least.1)
    exact UInt64.toNat_inj.1 (le_antisymm hle (Nat.one_le_iff_ne_zero.2 hne))
  have hattempts : s.attempts = 2 := by
    rw [hleast.attempts, hnonce]
    rfl
  obtain ⟨-, hrefused, hbeyond⟩ := findSeal_exact { opening "a" with difficulty := 65 }
  have hreach : (64 : UInt32) < 65 := by decide
  exact ⟨good_opening, hroom, ⟨s, hs, hnonce, hattempts⟩, hreach,
    (hrefused _).2 ⟨rfl, hbeyond hreach⟩⟩

end Template

end AuditedPetitions.Ledger
