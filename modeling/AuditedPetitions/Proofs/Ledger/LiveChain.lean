import AuditedPetitions.Proofs.Ledger.Growth
import AuditedPetitions.Proofs.Ledger.Replies

/-! A ledger at work. Between the moment at which the writer takes a template off the tail and the
moment at which it pushes the block, nothing else touches the chain, so a template never is stale: at
every moment the chain is verified, its blocks carry the configured difficulty, what was seen of it
earlier stands at its front, and no append ends with an integrity error. -/

namespace AuditedPetitions.Ledger

theorem verifyFrom_meets {position : Nat} {prev : String} {bs : List Block}
    (h : verifyFrom position prev bs = .ok ()) : ∀ b ∈ bs, b.meetsDifficulty = true := by
  induction bs generalizing position prev with
  | nil => simp
  | cons b bs ih =>
    rw [verifyFrom] at h
    cases hfault : b.fault? position prev with
    | some fault => simp [hfault] at h
    | none =>
      rw [hfault] at h
      exact List.forall_mem_cons.2 ⟨(Block.fault?_eq_none.1 hfault).2.2.2, ih h⟩

theorem leadingZeros_of_verifyChain {bs : List Block} (h : verifyChain bs = .ok ()) :
    ∀ b ∈ bs, b.difficulty.toNat ≤ leadingZeros b.hash := by
  intro b hb
  have hmeets := verifyFrom_meets (verifyFrom_of_verifyChain h) b hb
  simpa [Block.meetsDifficulty, Ledger.meetsDifficulty] using hmeets

/-- Errors that an append may end with. -/
def Error.isExpected : Error → Bool
  | .sealing _ | .concurrency _ => true
  | _ => false

namespace Writer

theorem chain_step (w : Writer) (a : Action) :
    (w.step a).chain = w.chain ∨ ∃ k result micros, a = .push ∧
      w.work = .found k result micros ∧ w.chain.push result.block = .ok (w.step a).chain := by
  rcases w.pushed_step a with ⟨hchain, -⟩ | ⟨k, result, micros, ha, hwork, hpush, -⟩
  · exact .inl hchain
  · exact .inr ⟨k, result, micros, ha, hwork, hpush⟩

theorem blocks_step (w : Writer) (a : Action) : w.chain.blocks <+: (w.step a).chain.blocks := by
  rcases w.chain_step a with hsame | ⟨k, result, micros, -, -, hpush⟩
  · rw [hsame]
  · rw [Chain.blocks_push hpush]
    exact List.prefix_append _ _

theorem blocks_run (w : Writer) (actions : List Action) :
    w.chain.blocks <+: (w.run actions).chain.blocks := by
  induction actions generalizing w with
  | nil => exact List.prefix_rfl
  | cons a actions ih => exact (w.blocks_step a).trans (ih (w.step a))

theorem verify_step {w : Writer} (h : w.chain.verify = .ok ()) (a : Action) :
    (w.step a).chain.verify = .ok () := by
  rcases w.chain_step a with hsame | ⟨k, result, micros, -, -, hpush⟩
  · rw [hsame, h]
  · exact Chain.verify_push h hpush

theorem verify_run {w : Writer} (h : w.chain.verify = .ok ()) (actions : List Action) :
    (w.run actions).chain.verify = .ok () := by
  induction actions generalizing w with
  | nil => exact h
  | cons a actions ih => exact ih (verify_step h a)

theorem mem_answer {w : Writer} {j k : Nat} {r s : Reply} (h : (k, r) ∈ (w.answer j s).replies) :
    (k, r) ∈ w.replies ∨ (k, r) = (j, s) := by
  unfold answer at h
  split at h
  · exact .inl h
  · exact (List.mem_cons.1 h).symm

theorem mem_dropAll {rs : List Request} {w : Writer} {k : Nat} {r : Reply}
    (h : (k, r) ∈ (dropAll rs w).replies) :
    (k, r) ∈ w.replies ∨ r = .failed (.concurrency .droppedReply) := by
  induction rs generalizing w with
  | nil => exact .inl h
  | cons request rs ih =>
    rcases ih h with hrest | hdrop
    · exact (mem_answer hrest).imp_right fun heq => congrArg Prod.snd heq
    · exact .inr hdrop

theorem searched_error {template : Template} {aborted : Bool} {e : Error}
    (h : searched template aborted = .error e) : e.isExpected = true := by
  have hseal : ∃ fault, e = .sealing fault := by
    unfold searched Template.findSeal at h
    split at h
    · exact ⟨_, (Except.error.inj h).symm⟩
    · dsimp only at h
      split at h
      · exact ⟨_, (Except.error.inj h).symm⟩
      · split at h
        · exact ⟨_, (Except.error.inj h).symm⟩
        · cases h
  obtain ⟨fault, rfl⟩ := hseal
  rfl

theorem failed_step {w : Writer} {a : Action} {k : Nat} {e : Error}
    (h : (k, .failed e) ∈ (w.step a).replies) :
    (k, .failed e) ∈ w.replies ∨ e.isExpected = true ∨
      ∃ result micros, w.work = .found k result micros ∧ w.chain.push result.block = .error e := by
  cases a with
  | submit t | shutdown =>
    simp only [step] at h
    split at h <;> exact .inl h
  | forget j => exact .inl (List.mem_filter.1 h).1
  | receive now =>
    simp only [step, receive] at h
    split at h
    · exact .inl h
    · rcases mem_dropAll h with hrest | hdrop
      · rcases mem_answer hrest with hold | hstop
        · exact .inl hold
        · cases congrArg Prod.snd hstop
      · rw [Reply.failed.inj hdrop]
        exact .inr (.inl rfl)
    · exact .inl h
  | search aborted micros =>
    simp only [step, search] at h
    split at h
    · rename_i j template hwork
      split at h
      · exact .inl h
      · rename_i fault hfault
        rcases mem_answer h with hold | hnew
        · exact .inl hold
        · rw [Reply.failed.inj (congrArg Prod.snd hnew)]
          exact .inr (.inl (searched_error hfault))
    · exact .inl h
  | push =>
    simp only [step, push] at h
    split at h
    · rename_i j result micros hwork
      split at h
      · rcases mem_answer h with hold | hnew
        · exact .inl hold
        · cases congrArg Prod.snd hnew
      · rename_i fault hfault
        rcases mem_answer h with hold | hnew
        · exact .inl hold
        · obtain ⟨rfl, hfailed⟩ := Prod.ext_iff.1 hnew
          obtain rfl := Reply.failed.inj hfailed
          exact .inr (.inr ⟨result, micros, hwork, hfault⟩)
    · exact .inl h

theorem Linked.accepts {genesis : Block} {c : Chain} {k : Nat} {result : Sealed} {micros : Nat}
    {done : List Processed} (h : Linked genesis c (.found k result micros) done)
    (hroom : c.size < UInt64.size) : ∃ d, c.push result.block = .ok d := by
  obtain ⟨t, now, nonce, hblock, hsealed⟩ := h.found k result micros rfl
  have hindex : c.tail.index.toNat + 1 < UInt64.size := by rwa [h.tail_index]
  rw [hblock] at hsealed ⊢
  exact ⟨_, Chain.push_proved hindex hsealed⟩

section Started

variable {config : Config} {now eventTime : Instant} {micros : Nat} {w₀ : Writer}

theorem started (h : start config now eventTime micros = .ok w₀) :
    config.difficulty ≤ maxDifficulty ∧ w₀.chain.difficulty = config.difficulty ∧
      w₀.chain.verify = .ok () ∧ w₀.chain.later = [] ∧ w₀.replies = [] := by
  obtain ⟨first, metrics, hw, -, hdifficulty⟩ := start_eq_ok h
  rw [start, Outcome.bind_eq_ok] at h
  obtain ⟨_, hvalid, h⟩ := h
  simp only [Outcome.bind_eq_ok] at h
  obtain ⟨result, -, chain, hchain, h⟩ := h
  have hverify := Chain.verify_ofGenesis (mapError_eq_ok.1 hchain)
  have hsame : w₀.chain = chain := by
    split at h
    · cases h
    · rw [← Except.ok.inj h]
  refine ⟨?_, by rw [hw]; exact hdifficulty, by rw [hsame, hverify], by rw [hw], by rw [hw]⟩
  have hconfig := mapError_eq_ok.1 hvalid
  unfold Config.validate at hconfig
  split at hconfig
  · cases hconfig
  · rename_i hle
    exact UInt32.not_lt.1 hle

theorem difficulty_run (h : start config now eventTime micros = .ok w₀) (actions : List Action) :
    ∀ b ∈ (w₀.run actions).chain.blocks, b.difficulty = config.difficulty := by
  obtain ⟨-, hfirst, -, hlater, -⟩ := started h
  induction actions using List.reverseRecOn with
  | nil =>
    intro b hb
    have hb : b = w₀.chain.genesis := by simpa [run, Chain.blocks, hlater] using hb
    rw [hb, ← hfirst]
    rfl
  | append_singleton actions a ih =>
    obtain ⟨hl, -⟩ := exists_orderly h actions
    have hgenesis : (w₀.run actions).chain.difficulty = config.difficulty := by
      rw [← hfirst, Chain.difficulty, hl.genesis_eq, Chain.difficulty]
    rw [run_append]
    rcases (w₀.run actions).chain_step a with hsame | ⟨k, result, micros, -, hwork, hpush⟩
    · intro b hb
      exact ih b (hsame ▸ hb)
    · intro b hb
      change b ∈ ((w₀.run actions).step a).chain.blocks at hb
      rw [Chain.blocks_push hpush, List.mem_append, List.mem_singleton] at hb
      rcases hb with hb | rfl
      · exact ih b hb
      · obtain ⟨t, now, nonce, hblock, -⟩ := hl.found k result micros hwork
        rw [hblock, ← hgenesis]
        rfl

theorem failed_run (h : start config now eventTime micros = .ok w₀) {actions : List Action}
    (hroom : (w₀.run actions).chain.size < UInt64.size) {k : Nat} {e : Error}
    (hfailed : (k, .failed e) ∈ (w₀.run actions).replies) : e.isExpected = true := by
  induction actions using List.reverseRecOn with
  | nil =>
    have hnone : w₀.replies = [] := (started h).2.2.2.2
    simp [run, hnone] at hfailed
  | append_singleton actions a ih =>
    rw [run_append] at hroom hfailed
    have hshorter : (w₀.run actions).chain.size < UInt64.size :=
      Nat.lt_of_le_of_lt ((w₀.run actions).blocks_step a).length_le hroom
    rcases failed_step hfailed with hold | hexpected | ⟨result, micros, hwork, hpush⟩
    · exact ih hshorter hold
    · exact hexpected
    · obtain ⟨hl, -⟩ := exists_orderly h actions
      rw [hwork] at hl
      obtain ⟨d, hd⟩ := hl.accepts hshorter
      rw [hpush] at hd
      cases hd

end Started

/-- What holds of a ledger at every moment of a run. -/
structure Healthy (config : Config) (w₀ : Writer) (actions : List Action) : Prop where
  verified : (w₀.run actions).chain.verify = .ok ()
  nonempty : (w₀.run actions).chain.snapshot.blocks ≠ []
  permitted : config.difficulty ≤ maxDifficulty
  /-- Every block carries the configured difficulty, and its hash has as many leading zeros. -/
  proved : ∀ b ∈ (w₀.run actions).chain.snapshot.blocks, b.difficulty = config.difficulty ∧
    config.difficulty.toNat ≤ leadingZeros b.hash
  /-- A snapshot that was taken earlier is a prefix of one that is taken now. -/
  grows : ∀ earlier, earlier <+: actions →
    (w₀.run earlier).chain.snapshot.blocks <+: (w₀.run actions).chain.snapshot.blocks
  /-- A template under search is on the present tail. -/
  fresh : ∀ k template, (w₀.run actions).work = .searching k template →
    ∃ transaction now, template = (w₀.run actions).chain.nextTemplate transaction now
  /-- No push fails, as long as there are indices for the blocks; memory ends before they do. -/
  pushes : (w₀.run actions).chain.size < UInt64.size → ∀ k result micros,
    (w₀.run actions).work = .found k result micros →
    ∃ d, (w₀.run actions).chain.push result.block = .ok d
  /-- So an append ends with a block or with the error of its search or of a writer that is gone. -/
  failed : (w₀.run actions).chain.size < UInt64.size → ∀ k e,
    (w₀.run actions).reply? k = some (.failed e) →
    (∃ fault, e = .sealing fault) ∨ ∃ fault, e = .concurrency fault
  /-- A message that finds no place ends with an error of that kind, too. -/
  refused : ∀ t e, (w₀.run actions).submit t = .error e → e = .concurrency .stopped

theorem run_healthy {config : Config} {now eventTime : Instant} {micros : Nat} {w₀ : Writer}
    (h : start config now eventTime micros = .ok w₀) (actions : List Action) :
    Healthy config w₀ actions := by
  obtain ⟨hpermitted, -, hverified, -, -⟩ := started h
  obtain ⟨hl, -⟩ := exists_orderly h actions
  have hverify := verify_run hverified actions
  exact {
    verified := hverify
    nonempty := Chain.blocks_ne_nil _
    permitted := hpermitted
    proved := by
      intro b hb
      have hdifficulty := difficulty_run h actions b hb
      refine ⟨hdifficulty, ?_⟩
      rw [← hdifficulty]
      exact leadingZeros_of_verifyChain hverify b hb
    grows := by
      rintro earlier ⟨later, rfl⟩
      rw [run_append]
      exact blocks_run _ later
    fresh := hl.searching
    pushes := by
      intro hroom k result micros hwork
      rw [hwork] at hl
      exact hl.accepts hroom
    failed := by
      intro hroom k e hreply
      have hexpected := failed_run h hroom (mem_replies hreply)
      cases e with
      | sealing fault => exact .inl ⟨fault, rfl⟩
      | concurrency fault => exact .inr ⟨fault, rfl⟩
      | integrity index fault | config fault => cases hexpected
      | undecodable | unreadableFile => cases hexpected
    refused := by
      intro t e hrefused
      unfold submit at hrefused
      split at hrefused
      · cases hrefused
      · exact (Except.error.inj hrefused).symm }

theorem run_healthy_shutdownRace :
    ∃ w₀, start ⟨0, 16, "Genesis block"⟩ default default 0 = .ok w₀ ∧
      Healthy ⟨0, 16, "Genesis block"⟩ w₀ (shutdownRace ⟨.voteCast, .null, default, "vote"⟩) := by
  obtain ⟨w₀, h⟩ := exists_start_zero "Genesis block" default default 0
    (by decide : (16 : UInt64) ≠ 0) (by decide)
  exact ⟨w₀, h, run_healthy h _⟩

end Writer

end AuditedPetitions.Ledger
