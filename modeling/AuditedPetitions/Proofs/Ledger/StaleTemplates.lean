import AuditedPetitions.Proofs.Ledger.Growth
import AuditedPetitions.Proofs.Ledger.WriterSteps

/-! Templates that go stale. Writers take templates off a chain, seal them aside, and offer the blocks
in any order and among any others. A template names the position behind the tail that it was taken
on, and the tail moves on by one position with every block that is accepted and never otherwise. So a
sealed block is accepted as long as no other was, and of all that are sealed on one tail a single
one. -/

namespace AuditedPetitions.Ledger

namespace Chain

/-- Template of the next block, unless the tail has the last index. -/
def template (c : Chain) (transaction : Transaction) (timestamp : Instant) :
    Outcome Error Template := do
  let index ← addUInt64 c.tail.index 1
  return { c.nextTemplate transaction timestamp with index }

theorem template_of_size {c : Chain} (h : c.verify = .ok ()) (hsize : c.size < UInt64.size)
    (transaction : Transaction) (timestamp : Instant) :
    c.template transaction timestamp = .ok (c.nextTemplate transaction timestamp) := by
  have hone : (1 : UInt64).toNat = 1 := rfl
  have hroom : c.tail.index.toNat + (1 : UInt64).toNat < UInt64.size := by
    rw [hone, index_tail h]
    exact hsize
  rw [template, addUInt64, if_pos hroom]
  rfl

theorem template_eq_ok {c : Chain} {transaction : Transaction} {timestamp : Instant}
    {t : Template} (h : c.verify = .ok ()) (ht : c.template transaction timestamp = .ok t) :
    t = c.nextTemplate transaction timestamp ∧ c.size < UInt64.size := by
  obtain ⟨index, hindex, -⟩ := Outcome.bind_eq_ok.1 ht
  have hsize : c.size < UInt64.size := by
    rw [addUInt64] at hindex
    split at hindex
    · rename_i hroom
      have hone : (1 : UInt64).toNat = 1 := rfl
      rwa [hone, index_tail h] at hroom
    · cases hindex
  rw [template_of_size h hsize] at ht
  exact ⟨(Except.ok.inj ht).symm, hsize⟩

/-- What one of many writers does with the chain that they share. -/
inductive Move
  | take (transaction : Transaction) (timestamp : Instant)
  | offer (b : Block)

def Move.apply (c : Chain) : Move → Chain
  | .take .. => c
  | .offer b => c.offer b

/-- Chain on which moves have been made, up to a place in their order. -/
def ahead (c : Chain) (moves : List Move) (place : Nat) : Chain :=
  (moves.take place).foldl Move.apply c

/-- The move at a place takes a template. -/
def Takes (c : Chain) (moves : List Move) (place : Nat) (t : Template) : Prop :=
  ∃ transaction timestamp, moves[place]? = some (.take transaction timestamp) ∧
    (c.ahead moves place).template transaction timestamp = .ok t

/-- The move at a place offers a block that is accepted. -/
def Accepts (c : Chain) (moves : List Move) (place : Nat) : Prop :=
  ∃ b, moves[place]? = some (.offer b) ∧ ∃ d, (c.ahead moves place).push b = .ok d

/-- The move at a place offers the block that was sealed for a template taken at an earlier one. -/
structure Submits (c : Chain) (moves : List Move) (taken offered : Nat) (t : Template)
    (s : Sealed) : Prop where
  takes : c.Takes moves taken t
  found : t.findSeal = .ok s
  offers : moves[offered]? = some (.offer s.block)
  later : taken < offered

section places
variable {c : Chain} {moves : List Move} {i j k : Nat}

theorem ahead_succ {m : Move} (hm : moves[k]? = some m) :
    c.ahead moves (k + 1) = m.apply (c.ahead moves k) := by
  simp [ahead, List.take_add_one, hm]

theorem ahead_succ_of_accepts (h : c.Accepts moves k) :
    (c.ahead moves (k + 1)).size = (c.ahead moves k).size + 1 := by
  obtain ⟨b, hb, d, hd⟩ := h
  have hlength := congrArg List.length (blocks_push hd)
  rw [ahead_succ hb, Move.apply, offer, hd]
  simpa [length_blocks] using hlength

theorem ahead_succ_of_not_accepts (h : ¬ c.Accepts moves k) :
    c.ahead moves (k + 1) = c.ahead moves k := by
  cases hm : moves[k]? with
  | none => simp [ahead, List.take_add_one, hm]
  | some m =>
    rw [ahead_succ hm]
    cases m with
    | take transaction timestamp => rfl
    | offer b =>
      rw [Move.apply, offer]
      split
      · rename_i d hd
        exact absurd ⟨b, hm, d, hd⟩ h
      · rfl

theorem verify_ahead (h : c.verify = .ok ()) (k : Nat) : (c.ahead moves k).verify = .ok () := by
  induction k with
  | zero => exact h
  | succ k ih =>
    cases hm : moves[k]? with
    | none => simpa [ahead, List.take_add_one, hm] using ih
    | some m =>
      rw [ahead_succ hm]
      cases m with
      | take transaction timestamp => exact ih
      | offer b => exact verify_offer ih b

theorem size_ahead_mono (c : Chain) (moves : List Move) :
    Monotone fun k => (c.ahead moves k).size := by
  refine monotone_nat_of_le_succ fun k => ?_
  by_cases h : c.Accepts moves k
  · rw [ahead_succ_of_accepts h]
    exact Nat.le_succ _
  · rw [ahead_succ_of_not_accepts h]

theorem size_ahead_lt (h : c.Accepts moves k) (hik : i ≤ k) (hkj : k < j) :
    (c.ahead moves i).size < (c.ahead moves j).size := by
  have hbefore := size_ahead_mono c moves hik
  have hafter : (c.ahead moves (k + 1)).size ≤ (c.ahead moves j).size :=
    size_ahead_mono c moves hkj
  have hstep := ahead_succ_of_accepts h
  dsimp only at hbefore
  omega

theorem ahead_eq (hij : i ≤ j) (h : ∀ k, i ≤ k → k < j → ¬ c.Accepts moves k) :
    c.ahead moves j = c.ahead moves i := by
  induction j, hij using Nat.le_induction with
  | base => rfl
  | succ j hij ih =>
    rw [ahead_succ_of_not_accepts (h j hij (Nat.lt_succ_self j))]
    exact ih fun k hik hkj => h k hik (Nat.lt_succ_of_lt hkj)

end places

theorem push_of_other_index {c : Chain} {b : Block} (h : c.verify = .ok ())
    (hindex : b.index.toNat ≠ c.size) :
    c.push b = .error (.integrity b.index.toNat (.unexpectedIndex c.size)) := by
  have hfault : c.pushFault? b = some (.unexpectedIndex c.size) := by
    rw [pushFault?, index_tail h, if_pos hindex]
  rw [push, hfault]

namespace Submits

variable {c : Chain} {moves : List Move} {i j : Nat} {t : Template} {s : Sealed}

theorem toNat_index (h : c.Submits moves i j t s) (hc : c.verify = .ok ()) :
    s.block.index.toNat = (c.ahead moves i).size := by
  have hverify : (c.ahead moves i).verify = .ok () := verify_ahead hc i
  obtain ⟨transaction, timestamp, -, htake⟩ := h.takes
  obtain ⟨rfl, hsize⟩ := template_eq_ok hverify htake
  obtain ⟨nonce, hblock, -⟩ := Template.findSeal_eq_ok h.found
  have hroom : (c.ahead moves i).tail.index.toNat + 1 < UInt64.size := by
    rwa [index_tail hverify]
  rw [hblock, Template.index_proved, toNat_index_next transaction timestamp hroom,
    index_tail hverify]

theorem exists_push (h : c.Submits moves i j t s) (hc : c.verify = .ok ()) :
    ∃ d, (c.ahead moves i).push s.block = .ok d := by
  have hverify : (c.ahead moves i).verify = .ok () := verify_ahead hc i
  obtain ⟨transaction, timestamp, -, htake⟩ := h.takes
  obtain ⟨rfl, hsize⟩ := template_eq_ok hverify htake
  obtain ⟨nonce, hblock, hsealed⟩ := Template.findSeal_eq_ok h.found
  have hroom : (c.ahead moves i).tail.index.toNat + 1 < UInt64.size := by
    rwa [index_tail hverify]
  rw [hblock] at hsealed ⊢
  exact ⟨_, push_proved hroom hsealed⟩

theorem not_accepts_taken (h : c.Submits moves i j t s) : ¬ c.Accepts moves i := by
  rintro ⟨b, hb, -⟩
  obtain ⟨transaction, timestamp, htake, -⟩ := h.takes
  rw [htake] at hb
  cases hb

theorem accepts_iff_push (h : c.Submits moves i j t s) :
    c.Accepts moves j ↔ ∃ d, (c.ahead moves j).push s.block = .ok d := by
  constructor
  · rintro ⟨b, hb, hpush⟩
    rw [h.offers] at hb
    cases hb
    exact hpush
  · exact fun hpush => ⟨s.block, h.offers, hpush⟩

theorem size_of_accepts (h : c.Submits moves i j t s) (hc : c.verify = .ok ())
    (hj : c.Accepts moves j) : (c.ahead moves j).size = (c.ahead moves i).size := by
  obtain ⟨d, hd⟩ := h.accepts_iff_push.1 hj
  by_contra hne
  have hindex : s.block.index.toNat ≠ (c.ahead moves j).size := by
    rw [h.toNat_index hc]
    exact Ne.symm hne
  rw [push_of_other_index (verify_ahead hc j) hindex] at hd
  cases hd

theorem push_of_overtaken (h : c.Submits moves i j t s) (hc : c.verify = .ok ()) {k : Nat}
    (hik : i < k) (hkj : k < j) (hk : c.Accepts moves k) :
    (c.ahead moves j).push s.block =
      .error (.integrity s.block.index.toNat (.unexpectedIndex (c.ahead moves j).size)) := by
  have hlt := size_ahead_lt hk hik.le hkj
  refine push_of_other_index (verify_ahead hc j) ?_
  rw [h.toNat_index hc]
  exact hlt.ne

theorem accepts_iff (h : c.Submits moves i j t s) (hc : c.verify = .ok ()) :
    c.Accepts moves j ↔ ∀ k, i < k → k < j → ¬ c.Accepts moves k := by
  rw [h.accepts_iff_push]
  constructor
  · rintro ⟨d, hd⟩ k hik hkj hk
    rw [h.push_of_overtaken hc hik hkj hk] at hd
    cases hd
  · intro hnone
    have hsame : c.ahead moves j = c.ahead moves i := by
      refine ahead_eq h.later.le fun k hik hkj => ?_
      rcases hik.eq_or_lt with rfl | hlt
      · exact h.not_accepts_taken
      · exact hnone k hlt hkj
    rw [hsame]
    exact h.exists_push hc

end Submits

/-- Whatever many writers do with a chain, in any order, a block that was sealed for a template of it
is accepted exactly when no block was since the template was taken, and refused for its index
otherwise. So at most one offer of a block sealed on one tail is ever accepted. Templates can be taken
as long as the number of blocks is a 64-bit number. -/
theorem templates_go_stale {c : Chain} (h : c.Reached) (moves : List Move) :
    (∀ k transaction timestamp, (c.ahead moves k).size < UInt64.size →
      (c.ahead moves k).template transaction timestamp =
        .ok ((c.ahead moves k).nextTemplate transaction timestamp)) ∧
    (∀ i j t s, c.Submits moves i j t s →
      (c.Accepts moves j ↔ ∀ k, i < k → k < j → ¬ c.Accepts moves k) ∧
      (¬ c.Accepts moves j → (c.ahead moves j).push s.block =
        .error (.integrity s.block.index.toNat (.unexpectedIndex (c.ahead moves j).size)))) ∧
    ∀ tail, {j | c.Accepts moves j ∧
      ∃ i t s, c.Submits moves i j t s ∧ (c.ahead moves i).tail = tail}.Subsingleton := by
  have hc := h.verified
  refine ⟨fun k transaction timestamp hsize =>
    template_of_size (verify_ahead hc k) hsize transaction timestamp, fun i j t s hs => ?_, ?_⟩
  · refine ⟨hs.accepts_iff hc, fun hrefused => ?_⟩
    rw [hs.accepts_iff hc] at hrefused
    push Not at hrefused
    obtain ⟨k, hik, hkj, hk⟩ := hrefused
    exact hs.push_of_overtaken hc hik hkj hk
  · rintro tail j ⟨hj, i, t, s, hs, htail⟩ j' ⟨hj', i', t', s', hs', htail'⟩
    have hfirst := hs.size_of_accepts hc hj
    have hsecond := hs'.size_of_accepts hc hj'
    have htaken : (c.ahead moves i).size = (c.ahead moves i').size := by
      rw [← index_tail (verify_ahead hc i), ← index_tail (verify_ahead hc i'), htail, htail']
    -- both find the same size, and the earlier one has the chain grow
    rcases lt_trichotomy j j' with hlt | heq | hlt
    · have hgrown := size_ahead_lt hj le_rfl hlt
      omega
    · exact heq
    · have hgrown := size_ahead_lt hj' le_rfl hlt
      omega

theorem templates_go_stale_rivals :
    let first := leapGenesis.proved 7
    let mine := nextTemplate ⟨first, []⟩ ⟨.voteCast, .null, default, "mine"⟩ default
    let yours := nextTemplate ⟨first, []⟩ ⟨.voteCast, .null, default, "yours"⟩ default
    let moves : List Move := [.take mine.transaction default, .take yours.transaction default,
      .offer (mine.proved 0), .offer (yours.proved 0)]
    ∃ c : Chain, ofGenesis first = .ok c ∧ c.Reached ∧
      c.Submits moves 0 2 mine ⟨mine.proved 0, 1⟩ ∧ c.Submits moves 1 3 yours ⟨yours.proved 0, 1⟩ ∧
      c.Accepts moves 2 ∧ ¬ c.Accepts moves 3 ∧
      (c.ahead moves 3).push (yours.proved 0) = .error (.integrity 1 (.unexpectedIndex 2)) := by
  intro first mine yours moves
  have hfirst : ofGenesis first = .ok ⟨first, []⟩ :=
    ofGenesis_proved rfl rfl (Block.meetsDifficulty_zero rfl)
  have hreached : (Chain.mk first []).Reached := .first hfirst
  obtain ⟨htaken, hstale, hone⟩ := templates_go_stale hreached moves
  have hsize : (Chain.mk first []).size < UInt64.size := by decide
  have hmine : (Chain.mk first []).Submits moves 0 2 mine ⟨mine.proved 0, 1⟩ :=
    { takes := ⟨_, _, rfl, htaken 0 _ _ hsize⟩
      found := Template.findSeal_zero rfl
      offers := rfl
      later := by decide }
  have hyours : (Chain.mk first []).Submits moves 1 3 yours ⟨yours.proved 0, 1⟩ :=
    { takes := ⟨_, _, rfl, htaken 1 _ _ hsize⟩
      found := Template.findSeal_zero rfl
      offers := rfl
      later := by decide }
  have haccepted : (Chain.mk first []).Accepts moves 2 := by
    refine ((hstale 0 2 _ _ hmine).1).2 fun k hk hlt => ?_
    obtain rfl : k = 1 := by omega
    rintro ⟨b, hb, -⟩
    cases hb
  have hrefused : ¬ (Chain.mk first []).Accepts moves 3 := by
    intro htwice
    have hsame := hone first ⟨haccepted, 0, _, _, hmine, rfl⟩ ⟨htwice, 1, _, _, hyours, rfl⟩
    exact absurd hsame (by decide)
  have herror := (hstale 1 3 _ _ hyours).2 hrefused
  have hgrown := ahead_succ_of_accepts haccepted
  rw [hgrown] at herror
  exact ⟨_, hfirst, hreached, hmine, hyours, haccepted, hrefused, herror⟩

end Chain

end AuditedPetitions.Ledger
