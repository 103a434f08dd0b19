import AuditedPetitions.Ledger.Writer
import AuditedPetitions.Proofs.Ledger.Sealing
import Mathlib

/-! What the steps of a writer read and change. A block that was sealed on the tail goes behind it as
long as there is a next index. The replies that are left are the answers that were given, less those
that somebody forgot, so that forgetting one ticket is felt nowhere else. -/

namespace AuditedPetitions.Ledger

namespace Chain

theorem tail_concat (genesis : Block) (later : List Block) (b : Block) :
    (Chain.mk genesis (later ++ [b])).tail = b := by
  simp [tail, List.getLastD_eq_getLast?]

theorem toNat_index_next {c : Chain} (t : Transaction) (now : Instant)
    (h : c.tail.index.toNat + 1 < UInt64.size) :
    (c.nextTemplate t now).index.toNat = c.tail.index.toNat + 1 := by
  have hmod : (c.tail.index.toNat + 1) % UInt64.size = c.tail.index.toNat + 1 := Nat.mod_eq_of_lt h
  simpa [nextTemplate, UInt64.toNat_add] using hmod

theorem push_proved {c : Chain} {t : Transaction} {now : Instant} {nonce : UInt64}
    (hroom : c.tail.index.toNat + 1 < UInt64.size)
    (hsealed : ((c.nextTemplate t now).proved nonce).isSealed = true) :
    c.push ((c.nextTemplate t now).proved nonce) =
      .ok ⟨c.genesis, c.later ++ [(c.nextTemplate t now).proved nonce]⟩ := by
  have hindex := toNat_index_next t now hroom
  have hfault : c.pushFault? ((c.nextTemplate t now).proved nonce) = none := by
    have hprev : (c.nextTemplate t now).prevHash = c.tail.hash := rfl
    simp [pushFault?, hindex, hprev, hsealed]
  rw [push, hfault]

theorem push_full {c : Chain} {b : Block} (h : c.tail.index.toNat + 1 = UInt64.size) :
    ∃ e, c.push b = .error e := by
  have hlt := b.index.toNat_lt_size
  have hindex : b.index.toNat ≠ c.tail.index.toNat + 1 := by omega
  have hfault : c.pushFault? b = some (.unexpectedIndex (c.tail.index.toNat + 1)) := by
    simp [pushFault?, hindex]
  exact ⟨_, by rw [push, hfault]⟩

end Chain

namespace Writer

@[simp] theorem nextTicket_answer (w : Writer) (k : Nat) (r : Reply) :
    (w.answer k r).nextTicket = w.nextTicket := by
  unfold answer
  split <;> rfl

@[simp] theorem forgotten_answer (w : Writer) (k : Nat) (r : Reply) :
    (w.answer k r).forgotten = w.forgotten := by
  unfold answer
  split <;> rfl

/-- The replies that are left are the answers that nobody forgot. -/
def Left (w : Writer) (answers : List (Nat × Reply)) : Prop :=
  w.replies = answers.filter (·.1 ∉ w.forgotten)

theorem Left.answer {w : Writer} {answers : List (Nat × Reply)} (h : w.Left answers) (k : Nat)
    (r : Reply) : (w.answer k r).Left ((k, r) :: answers) := by
  rw [Left] at h
  by_cases hk : k ∈ w.forgotten
  · simp [Left, Writer.answer, hk, h]
  · simp [Left, Writer.answer, hk, h]

theorem Left.forget {w : Writer} {answers : List (Nat × Reply)} (h : w.Left answers) (k : Nat) :
    (w.step (.forget k)).Left answers := by
  rw [Left] at h
  simp only [Left, step, h, List.filter_filter]
  congr 1
  funext answer
  simp [not_or]

/-- Answers to requests that are dropped, the latest first. -/
def drops (rs : List Request) : List (Nat × Reply) :=
  (rs.map fun r => (r.ticket, .failed (.concurrency .droppedReply))).reverse

theorem Left.dropAll {w : Writer} {answers : List (Nat × Reply)} (h : w.Left answers)
    (rs : List Request) : (dropAll rs w).Left (drops rs ++ answers) := by
  induction rs generalizing w answers with
  | nil => simpa [Writer.dropAll, drops] using h
  | cons r rs ih =>
    have hrest := ih (h.answer r.ticket (.failed (.concurrency .droppedReply)))
    simpa [Writer.dropAll, drops] using hrest

theorem dropAll_frame (rs : List Request) (w : Writer) :
    (dropAll rs w).chain = w.chain ∧ (dropAll rs w).work = w.work ∧
      (dropAll rs w).running = w.running ∧ (dropAll rs w).nextTicket = w.nextTicket := by
  induction rs generalizing w with
  | nil => exact ⟨rfl, rfl, rfl, rfl⟩
  | cons r rs ih => simpa [dropAll] using ih (w.answer r.ticket _)

theorem metrics_dropAll (rs : List Request) (w : Writer) :
    (dropAll rs w).metrics = w.metrics := by
  induction rs generalizing w with
  | nil => rfl
  | cons r rs ih => rw [dropAll, ih, metrics_answer]

/-- Only a push changes the chain and the counters, by the block that was found and the digests that
it took. -/
theorem pushed_step (w : Writer) (a : Action) :
    (w.step a).chain = w.chain ∧ (w.step a).metrics = w.metrics ∨
      ∃ k result micros, a = .push ∧ w.work = .found k result micros ∧
        w.chain.push result.block = .ok (w.step a).chain ∧
        (w.step a).metrics = w.metrics.recordSealed (UInt64.ofNat result.attempts) micros := by
  cases a with
  | submit t | shutdown =>
    simp only [step]
    split <;> exact .inl ⟨rfl, rfl⟩
  | forget k => exact .inl ⟨rfl, rfl⟩
  | receive now =>
    simp only [step, receive]
    split
    · exact .inl ⟨rfl, rfl⟩
    · exact .inl ⟨by rw [(dropAll_frame _ _).1, chain_answer],
        by rw [metrics_dropAll, metrics_answer]⟩
    · exact .inl ⟨rfl, rfl⟩
  | search aborted micros =>
    simp only [step, search]
    split
    · split <;> exact .inl (by simp)
    · exact .inl ⟨rfl, rfl⟩
  | push =>
    simp only [step, push]
    split
    · rename_i k result micros hwork
      split
      · rename_i d hd
        refine .inr ⟨k, result, micros, trivial, hwork, ?_, metrics_answer _ _ _⟩
        rw [chain_answer, hd]
      · exact .inl ⟨chain_answer _ _ _, metrics_answer _ _ _⟩
    · exact .inl ⟨rfl, rfl⟩

theorem reply?_iff {w : Writer} {answers : List (Nat × Reply)} (h : w.Left answers)
    (hnodup : (answers.map Prod.fst).Nodup) (k : Nat) (r : Reply) :
    w.reply? k = some r ↔ k ∉ w.forgotten ∧ (k, r) ∈ answers := by
  have hmem : (k, r) ∈ w.replies ↔ k ∉ w.forgotten ∧ (k, r) ∈ answers := by
    rw [h, List.mem_filter]
    simp [and_comm]
  have hunique : (w.replies.map Prod.fst).Nodup := by
    rw [h]
    exact hnodup.sublist (List.filter_sublist.map _)
  rw [← hmem, reply?]
  constructor
  · intro hfind
    obtain ⟨entry, hentry, hr⟩ := Option.map_eq_some_iff.1 hfind
    have hkey : entry.1 = k := by simpa using List.find?_some hentry
    rw [← hkey, ← hr]
    exact List.mem_of_find?_eq_some hentry
  · intro hin
    generalize w.replies = replies at hin hunique
    induction replies with
    | nil => cases hin
    | cons entry rest ih =>
      rw [List.map_cons, List.nodup_cons] at hunique
      rcases List.mem_cons.1 hin with rfl | hrest
      · simp
      · have hne : entry.1 ≠ k := by
          intro he
          exact hunique.1 (List.mem_map.2 ⟨(k, r), hrest, he.symm⟩)
        simpa [List.find?_cons, hne] using ih hrest hunique.2

/-- Two writers that differ at most in what is left under one ticket. -/
structure Alike (k : Nat) (w v : Writer) : Prop where
  chain : w.chain = v.chain
  metrics : w.metrics = v.metrics
  mailbox : w.mailbox = v.mailbox
  capacity : w.capacity = v.capacity
  work : w.work = v.work
  running : w.running = v.running
  nextTicket : w.nextTicket = v.nextTicket
  forgotten : ∀ j, j ≠ k → (j ∈ w.forgotten ↔ j ∈ v.forgotten)
  replies : w.replies.filter (·.1 ≠ k) = v.replies.filter (·.1 ≠ k)

namespace Alike

variable {k : Nat} {w v : Writer}

theorem forget_self (w : Writer) (k : Nat) : Alike k (w.step (.forget k)) w where
  chain := rfl
  metrics := rfl
  mailbox := rfl
  capacity := rfl
  work := rfl
  running := rfl
  nextTicket := rfl
  forgotten j hj := by simp [Writer.step, hj]
  replies := by simp [Writer.step, List.filter_filter]

@[simp] theorem capacity_answer (w : Writer) (j : Nat) (r : Reply) :
    (w.answer j r).capacity = w.capacity := by
  unfold answer
  split <;> rfl

theorem answer (h : Alike k w v) (j : Nat) (r : Reply) : Alike k (w.answer j r) (v.answer j r) where
  chain := by simp [h.chain]
  metrics := by simp [h.metrics]
  mailbox := by simp [h.mailbox]
  capacity := by simp [h.capacity]
  work := by simp [h.work]
  running := by simp [h.running]
  nextTicket := by simp [h.nextTicket]
  forgotten := by simpa using h.forgotten
  replies := by
    have hrest := h.replies
    by_cases hj : j = k
    · have hdrop (u : Writer) : (u.answer j r).replies.filter (·.1 ≠ k) =
          u.replies.filter (·.1 ≠ k) := by
        unfold Writer.answer
        split
        · rfl
        · simp [hj]
      rw [hdrop, hdrop, hrest]
    · have hmem := h.forgotten j hj
      by_cases hw : j ∈ w.forgotten
      · simpa [Writer.answer, hw, hmem.1 hw] using hrest
      · have hv : j ∉ v.forgotten := fun hv => hw (hmem.2 hv)
        simpa [Writer.answer, hw, hv, hj] using hrest

theorem dropAll (h : Alike k w v) (rs : List Request) :
    Alike k (Writer.dropAll rs w) (Writer.dropAll rs v) := by
  induction rs generalizing w v with
  | nil => exact h
  | cons r rs ih => exact ih (h.answer _ _)

theorem post (h : Alike k w v) (request : Nat → Request) :
    Alike k (w.post request) (v.post request) :=
  { h with
    mailbox := by simp [Writer.post, h.mailbox, h.nextTicket]
    nextTicket := by simp [Writer.post, h.nextTicket] }

theorem step (h : Alike k w v) (a : Action) : Alike k (w.step a) (v.step a) := by
  cases a with
  | submit t =>
    simp only [Writer.step, h.running]
    split
    · exact h.post _
    · exact h
  | shutdown =>
    simp only [Writer.step, h.running]
    split
    · exact h.post _
    · exact h
  | forget j =>
    refine { h with forgotten := ?_, replies := ?_ }
    · intro i hi
      simp only [Writer.step, List.mem_cons, h.forgotten i hi]
    · have hrest := congrArg (List.filter (·.1 ≠ j)) h.replies
      simpa only [Writer.step, List.filter_filter, Bool.and_comm] using hrest
  | receive now =>
    simp only [Writer.step, Writer.receive, h.running, h.work, h.mailbox, h.chain]
    split
    · exact ⟨rfl, h.metrics, rfl, h.capacity, rfl, rfl, h.nextTicket, h.forgotten, h.replies⟩
    · refine Alike.dropAll (Alike.answer ?_ _ _) _
      exact ⟨rfl, h.metrics, rfl, h.capacity, rfl, rfl, h.nextTicket, h.forgotten, h.replies⟩
    · exact h
  | search aborted micros =>
    simp only [Writer.step, Writer.search, h.work]
    split
    · split
      · exact ⟨h.chain, h.metrics, h.mailbox, h.capacity, rfl, h.running, h.nextTicket, h.forgotten,
          h.replies⟩
      · refine Alike.answer ?_ _ _
        exact ⟨h.chain, h.metrics, h.mailbox, h.capacity, rfl, h.running, h.nextTicket, h.forgotten,
          h.replies⟩
    · exact h
  | push =>
    simp only [Writer.step, Writer.push, h.work, h.chain, h.metrics]
    split
    · split
      · refine Alike.answer ?_ _ _
        exact ⟨rfl, rfl, h.mailbox, h.capacity, rfl, h.running, h.nextTicket, h.forgotten, h.replies⟩
      · refine Alike.answer ?_ _ _
        exact ⟨rfl, rfl, h.mailbox, h.capacity, rfl, h.running, h.nextTicket, h.forgotten, h.replies⟩
    · exact h

theorem run (h : Alike k w v) (actions : List Action) : Alike k (w.run actions) (v.run actions) := by
  induction actions generalizing w v with
  | nil => exact h
  | cons a actions ih => exact ih (h.step a)

theorem reply? (h : Alike k w v) {j : Nat} (hj : j ≠ k) : w.reply? j = v.reply? j := by
  have hfind (u : Writer) :
      u.reply? j = ((u.replies.filter (·.1 ≠ k)).find? (·.1 == j)).map Prod.snd := by
    rw [Writer.reply?, List.find?_filter]
    congr 2
    funext entry
    by_cases he : entry.1 = j
    · simp [he, hj]
    · simp [he]
  rw [hfind w, hfind v, h.replies]

end Alike

end Writer

end AuditedPetitions.Ledger
