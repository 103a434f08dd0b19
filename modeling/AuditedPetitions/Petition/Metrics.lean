import AuditedPetitions.Exposition
import AuditedPetitions.Petition.Error

/-! What the service counts: votes by outcome, and committed writes by the side effect that failed.
A counter holds one count for each label that has been counted. -/

namespace AuditedPetitions

/-- Counts by label; a label that is missing has been counted never. -/
abbrev Counter (κ : Type) := List (κ × Nat)

namespace Counter

variable {κ : Type} [DecidableEq κ]

def count (c : Counter κ) (k : κ) : Nat := ((c.find? (·.1 = k)).map Prod.snd).getD 0

def bump (k : κ) : Counter κ → Counter κ
  | [] => [(k, 1)]
  | (l, n) :: c => if l = k then (l, n + 1) :: c else (l, n) :: bump k c

def total (c : Counter κ) : Nat := c.foldr (fun e n => e.2 + n) 0

theorem count_bump_self (c : Counter κ) (k : κ) : (bump k c).count k = c.count k + 1 := by
  induction c with
  | nil => simp [bump, count]
  | cons e c ih =>
    obtain ⟨l, n⟩ := e
    by_cases h : l = k
    · simp [bump, count, h]
    · simpa [bump, count, h] using ih

theorem count_bump_of_ne (c : Counter κ) {k l : κ} (h : l ≠ k) :
    (bump k c).count l = c.count l := by
  induction c with
  | nil => simp [bump, count, h.symm]
  | cons e c ih =>
    obtain ⟨m, n⟩ := e
    by_cases hm : m = k
    · subst hm
      simp [bump, count, h.symm]
    · by_cases hl : m = l
      · simp [bump, count, hl, hl ▸ hm]
      · simpa [bump, count, hm, hl] using ih

theorem total_bump (c : Counter κ) (k : κ) : (bump k c).total = c.total + 1 := by
  induction c with
  | nil => rfl
  | cons e c ih =>
    obtain ⟨l, n⟩ := e
    by_cases h : l = k
    · simp only [bump, h, if_true, total, List.foldr_cons]
      omega
    · simp only [total] at ih
      simp only [bump, h, if_false, total, List.foldr_cons, ih]
      omega

/-- One sample for each label, sorted by its text. -/
def samples (name label : String) (text : κ → String) (c : Counter κ) : List Sample :=
  let rows := (c.map fun e => (text e.1, e.2)).mergeSort fun a b => a.1 ≤ b.1
  rows.map fun r => ⟨name, [(label, r.1)], .ofNat r.2⟩

end Counter

inductive VoteOutcome
  | accepted
  | alreadyVoted
  | votingClosed
  | goalReached
  | notFound
  | invalid
  | storeFailure
  deriving DecidableEq, Repr

def VoteOutcome.label : VoteOutcome → String
  | .accepted => "accepted"
  | .alreadyVoted => "already_voted"
  | .votingClosed => "voting_closed"
  | .goalReached => "goal_reached"
  | .notFound => "not_found"
  | .invalid => "invalid"
  | .storeFailure => "store_failure"

/-- Outcome of a refused vote. -/
def PetitionError.outcome : PetitionError → VoteOutcome
  | .alreadyVoted => .alreadyVoted
  | .votingClosed => .votingClosed
  | .goalReached => .goalReached
  | .notFound => .notFound
  | .invalidVoteType _ | .validation _ => .invalid
  | .store _ => .storeFailure

structure ServiceMetrics where
  votes : Counter VoteOutcome
  degraded : Counter String
  deriving DecidableEq

namespace ServiceMetrics

def zero : ServiceMetrics := ⟨[], []⟩

def recordVote (m : ServiceMetrics) (o : VoteOutcome) : ServiceMetrics :=
  { m with votes := Counter.bump o m.votes }

def recordDegraded (m : ServiceMetrics) (effect : String) : ServiceMetrics :=
  { m with degraded := Counter.bump effect m.degraded }

def families (m : ServiceMetrics) : List Family :=
  let degraded := "petition_degraded_writes_total"
  let votes := "petition_votes_total"
  [⟨degraded, "Committed writes whose side effects failed", "counter",
      m.degraded.samples degraded "effect" id⟩,
    ⟨votes, "Vote attempts by outcome", "counter",
      m.votes.samples votes "outcome" VoteOutcome.label⟩]

end ServiceMetrics

end AuditedPetitions
