import AuditedPetitions.Proofs.Ledger.LiveChain
import AuditedPetitions.Proofs.Ledger.NonceSearch
import Mathlib

/-! Counters beside a chain. A search computes one digest for every nonce up to the one that it
finds, and the writer counts a block where it pushes it and nowhere else, so whatever else becomes of
the messages, the counters can be recomputed from the chain. -/

namespace AuditedPetitions.Ledger

/-- Digests that it took to find the nonces of blocks, each searched from zero upward. -/
def digests (bs : List Block) : Nat := (bs.map fun b => b.nonce.toNat + 1).sum

theorem digests_concat (bs : List Block) (b : Block) :
    digests (bs ++ [b]) = digests bs + (b.nonce.toNat + 1) := by
  simp [digests]

namespace Metrics

/-- The counters are what blocks come to, in 64 bits. -/
structure Counts (m : Metrics) (bs : List Block) : Prop where
  blocks : m.blocks = UInt64.ofNat bs.length
  attempts : m.attempts = UInt64.ofNat (digests bs)
  searches : m.searches = UInt64.ofNat bs.length

theorem counts_zero : zero.Counts [] := ⟨rfl, rfl, rfl⟩

theorem Counts.recordSealed {m : Metrics} {bs : List Block} (h : m.Counts bs) {s : Sealed}
    (hattempts : s.attempts = s.block.nonce.toNat + 1) (micros : Nat) :
    (m.recordSealed (UInt64.ofNat s.attempts) micros).Counts (bs ++ [s.block]) where
  blocks := by
    rw [List.length_append, List.length_singleton, UInt64.ofNat_add, ← h.blocks]
    rfl
  attempts := by
    rw [digests_concat, UInt64.ofNat_add, ← h.attempts, ← hattempts]
    rfl
  searches := by
    rw [List.length_append, List.length_singleton, UInt64.ofNat_add, ← h.searches]
    rfl

/-- Value that is exposed under a name without labels. -/
def exposed? (m : Metrics) (name : String) : Option UInt64 :=
  ((m.families.flatMap Family.samples).find? fun s => s.name = name ∧ s.labels = []).map
    Sample.value

theorem exposed?_blocks (m : Metrics) : m.exposed? "ledger_blocks_total" = some m.blocks := rfl

theorem exposed?_attempts (m : Metrics) :
    m.exposed? "ledger_seal_attempts_total" = some m.attempts := rfl

theorem exposed?_searches (m : Metrics) :
    m.exposed? "ledger_seal_duration_seconds_count" = some m.searches := by
  let named (s : Sample) : Bool := s.name = "ledger_seal_duration_seconds_count" ∧ s.labels = []
  let bucket (b : (Nat × String) × UInt64) : Sample :=
    ⟨"ledger_seal_duration_seconds" ++ "_bucket", [("le", b.1.2)], b.2⟩
  have hsamples : m.families.flatMap Family.samples =
      [⟨"ledger_blocks_total", [], m.blocks⟩, ⟨"ledger_seal_attempts_total", [], m.attempts⟩] ++
        ((durationBounds.zip m.buckets).map bucket ++
          [⟨"ledger_seal_duration_seconds" ++ "_bucket", [("le", "+Inf")], m.searches⟩,
            ⟨"ledger_seal_duration_seconds" ++ "_count", [], m.searches⟩]) := by
    simp [families, bucket]
  -- A bucket has a label, so none of them is the sample that is looked for.
  have hbuckets : ((durationBounds.zip m.buckets).map bucket).find? named = none := by
    refine List.find?_eq_none.2 fun s hs => ?_
    obtain ⟨b, -, rfl⟩ := List.mem_map.1 hs
    simp [named, bucket]
  have hfind : (m.families.flatMap Family.samples).find? named =
      some ⟨"ledger_seal_duration_seconds" ++ "_count", [], m.searches⟩ := by
    rw [hsamples, List.find?_append, List.find?_append, hbuckets]
    rfl
  exact congrArg (Option.map Sample.value) hfind

end Metrics

theorem Template.attempts_findSeal {t : Template} {s : Sealed} (h : t.findSeal = .ok s) :
    s.attempts = s.block.nonce.toNat + 1 := by
  rw [findSeal_eq] at h
  split at h
  · cases h
  · cases h
    rfl

namespace Writer

theorem found_step {w : Writer} {a : Action} {k : Nat} {result : Sealed} {micros : Nat}
    (h : (w.step a).work = .found k result micros) :
    w.work = .found k result micros ∨ ∃ template, Template.findSeal template = .ok result := by
  cases a with
  | submit t | shutdown =>
    simp only [step] at h
    split at h <;> exact .inl h
  | forget j => exact .inl h
  | receive now =>
    simp only [step, receive] at h
    split at h
    · cases h
    · rw [(dropAll_frame _ _).2.1, work_answer] at h
      exact .inl h
    · exact .inl h
  | search aborted micros =>
    simp only [step, search] at h
    split at h
    · rename_i j template hwork
      split at h
      · rename_i found hfound
        cases h
        split at hfound
        · cases hfound
        · exact .inr ⟨template, hfound⟩
      · rw [work_answer] at h
        cases h
    · exact .inl h
  | push =>
    simp only [step, push] at h
    split at h
    · split at h <;>
      · rw [work_answer] at h
        cases h
    · exact .inl h

/-- The counters are those of the chain, and the block that waits to be pushed knows its digests. -/
structure Counted (w : Writer) : Prop where
  counts : w.metrics.Counts w.chain.blocks
  found : ∀ k result micros, w.work = .found k result micros →
    result.attempts = result.block.nonce.toNat + 1

theorem Counted.step {w : Writer} (h : w.Counted) (a : Action) : (w.step a).Counted where
  counts := by
    rcases w.pushed_step a with ⟨hchain, hmetrics⟩ | ⟨k, result, micros, -, hwork, hpush, hmetrics⟩
    · rw [hchain, hmetrics]
      exact h.counts
    · rw [Chain.blocks_push hpush, hmetrics]
      exact h.counts.recordSealed (h.found k result micros hwork) micros
  found := by
    intro k result micros hwork
    rcases found_step hwork with hold | ⟨template, hfound⟩
    · exact h.found k result micros hold
    · exact template.attempts_findSeal hfound

theorem Counted.run {w : Writer} (h : w.Counted) (actions : List Action) :
    (w.run actions).Counted := by
  induction actions generalizing w with
  | nil => exact h
  | cons a actions ih => exact ih (h.step a)

theorem counted_start {config : Config} {now eventTime : Instant} {micros : Nat} {w₀ : Writer}
    (h : start config now eventTime micros = .ok w₀) : w₀.Counted := by
  rw [start, Outcome.bind_eq_ok] at h
  obtain ⟨-, -, h⟩ := h
  simp only [Outcome.bind_eq_ok] at h
  obtain ⟨first, hfirst, chain, hchain, h⟩ := h
  have hattempts := Template.attempts_findSeal (mapError_eq_ok.1 hfirst)
  have hblocks : chain.blocks = [first.block] := Chain.blocks_ofGenesis (mapError_eq_ok.1 hchain)
  split at h
  · cases h
  · cases h
    constructor
    · rw [hblocks]
      exact Metrics.counts_zero.recordSealed hattempts micros
    · intro k result micros hwork
      cases hwork

/-- What the exposed counters tell of the chain. -/
structure Mirrored (w : Writer) : Prop where
  blocks : w.metrics.exposed? "ledger_blocks_total" = some (UInt64.ofNat w.chain.size)
  attempts : w.metrics.exposed? "ledger_seal_attempts_total" =
    some (UInt64.ofNat (digests w.chain.blocks))
  searches : w.metrics.exposed? "ledger_seal_duration_seconds_count" =
    some (UInt64.ofNat w.chain.size)
  /-- A chain has no more blocks than there are indices. -/
  bounded : w.chain.size ≤ UInt64.size
  /-- So its size is told exactly until the last index is taken; memory ends before that. -/
  exact : w.chain.size ≠ UInt64.size → (UInt64.ofNat w.chain.size).toNat = w.chain.size

/-- The writer pushes a block and counts it before it looks at the next message, so the counters are
those of the chain at every moment between two messages, whatever the messages were and whether
their appends came to blocks or not. -/
theorem run_mirrored {config : Config} {now eventTime : Instant} {micros : Nat} {w₀ : Writer}
    (h : start config now eventTime micros = .ok w₀) (actions : List Action) :
    Mirrored (w₀.run actions) := by
  obtain ⟨hblocks, hattempts, hsearches⟩ := ((counted_start h).run actions).counts
  obtain ⟨hl, -⟩ := exists_orderly h actions
  have hlength : (w₀.run actions).chain.blocks.length = (w₀.run actions).chain.size := rfl
  have hbounded : (w₀.run actions).chain.size ≤ UInt64.size := by
    rw [Chain.size, ← hl.tail_index]
    exact (w₀.run actions).chain.tail.index.toNat_lt_size
  rw [hlength] at hblocks hsearches
  exact {
    blocks := by rw [Metrics.exposed?_blocks, hblocks]
    attempts := by rw [Metrics.exposed?_attempts, hattempts]
    searches := by rw [Metrics.exposed?_searches, hsearches]
    bounded := hbounded
    exact := fun hne => UInt64.toNat_ofNat_of_lt' (lt_of_le_of_ne hbounded hne) }

theorem chain_shutdownRace (first : Block) (hindex : first.index = 0)
    (hzero : first.difficulty = 0) (event : Transaction) :
    let w₀ : Writer := ⟨⟨first, []⟩, Metrics.zero.recordSealed 1 0, [], 16, .idle, true, 0, [], []⟩
    ∃ template : Template, (w₀.run (shutdownRace event)).chain = ⟨first, [template.proved 0]⟩ := by
  intro w₀
  have hrace : shutdownRace event = (shutdownRace event).take 7 ++
      ([.receive default, .search false 0, .push] ++ [.receive default]) := rfl
  let waiting := w₀.run ((shutdownRace event).take 7)
  have hmailbox : waiting.mailbox = .append 1 event :: [.shutdown 2, .append 3 event] := rfl
  have hkept : 1 ∉ waiting.forgotten := by
    change 1 ∉ [0]
    decide
  have hroom : waiting.chain.tail.index.toNat + 1 < UInt64.size := by
    change first.index.toNat + 1 < UInt64.size
    rw [hindex]
    decide
  have hseal := run_seal rfl rfl hmailbox hkept hzero hroom default 0
  rw [hrace, run_append, run_append, hseal]
  exact ⟨_, rfl⟩

theorem run_mirrored_shutdownRace :
    ∃ w₀, start ⟨0, 16, "Genesis block"⟩ default default 0 = .ok w₀ ∧
      let w := w₀.run (shutdownRace ⟨.voteCast, .null, default, "vote"⟩)
      Mirrored w ∧ w.metrics.exposed? "ledger_blocks_total" = some 2 ∧
        w.metrics.exposed? "ledger_seal_attempts_total" = some 2 ∧
        w.metrics.exposed? "ledger_seal_duration_seconds_count" = some 2 := by
  have hstart := start_zero "Genesis block" default default 0 (by decide : (16 : UInt64) ≠ 0)
    (by decide)
  have hmirrored := run_mirrored hstart (shutdownRace ⟨.voteCast, .null, default, "vote"⟩)
  obtain ⟨template, hchain⟩ := chain_shutdownRace
    ((Template.genesis 0 "Genesis block" default default).proved 0) rfl rfl
    ⟨.voteCast, .null, default, "vote"⟩
  refine ⟨_, hstart, hmirrored, ?_, ?_, ?_⟩
  · rw [hmirrored.blocks]
    exact congrArg (fun c : Chain => some (UInt64.ofNat c.size)) hchain
  · rw [hmirrored.attempts]
    exact congrArg (fun c : Chain => some (UInt64.ofNat (digests c.blocks))) hchain
  · rw [hmirrored.searches]
    exact congrArg (fun c : Chain => some (UInt64.ofNat c.size)) hchain

end Writer

end AuditedPetitions.Ledger
