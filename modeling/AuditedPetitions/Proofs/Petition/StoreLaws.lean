import AuditedPetitions.Petition.Service
import Mathlib

/-! What the operations of the store do, in closed form. On a store whose tallies stay within the
goals no addition leaves its range, so a vote is refused or written, and every other operation is
refused or changes one petition. -/

namespace AuditedPetitions

namespace Petition

/-- No tally is negative, and together they do not exceed the goal. -/
structure WithinGoal (p : Petition) : Prop where
  favor_nonneg : 0 ≤ p.votesInFavor.toInt
  against_nonneg : 0 ≤ p.votesAgainst.toInt
  sum_le : p.votesInFavor.toInt + p.votesAgainst.toInt ≤ p.goal.toInt

/-- Both tallies together. -/
def tallies (p : Petition) : Int := p.votesInFavor.toInt + p.votesAgainst.toInt

/-- Same petition with one more vote, whatever its goal. -/
def withVote (p : Petition) (type : VoteType) (now : Instant) : Petition :=
  match type with
  | .favor => { p with votesInFavor := .ofInt (p.votesInFavor.toInt + 1), updatedAt := now }
  | .against => { p with votesAgainst := .ofInt (p.votesAgainst.toInt + 1), updatedAt := now }

@[simp] theorem withVote_id (p : Petition) (type : VoteType) (now : Instant) :
    (p.withVote type now).id = p.id := by cases type <;> rfl

@[simp] theorem withVote_goal (p : Petition) (type : VoteType) (now : Instant) :
    (p.withVote type now).goal = p.goal := by cases type <;> rfl

@[simp] theorem delete_id (p : Petition) (now : Instant) : (p.delete now).id = p.id := rfl

@[simp] theorem delete_tally (p : Petition) (now : Instant) (type : VoteType) :
    (p.delete now).tally type = p.tally type := by cases type <;> rfl

theorem totalVotes_eq {ε : Type} {p : Petition} (h : p.WithinGoal) :
    p.totalVotes (ε := ε) = .ok (.ofInt p.tallies) := by
  have hf := h.favor_nonneg
  have ha := h.against_nonneg
  have hs := h.sum_le
  have hg := p.goal.toInt_lt
  exact addInt64_eq_ok (by omega) (by omega)

theorem toInt_ofInt_tallies {p : Petition} (h : p.WithinGoal) :
    (Int64.ofInt p.tallies).toInt = p.tallies := by
  have hf := h.favor_nonneg
  have ha := h.against_nonneg
  have hs := h.sum_le
  have hg := p.goal.toInt_lt
  refine Int64.toInt_ofInt_of_le ?_ ?_ <;> simp only [tallies] <;> omega

theorem goalReached_eq {ε : Type} {p : Petition} (h : p.WithinGoal) :
    p.goalReached (ε := ε) = .ok (decide (p.goal.toInt ≤ p.tallies)) := by
  rw [goalReached, totalVotes_eq h]
  simp [bind, Except.bind, pure, Except.pure, Int64.le_iff_toInt_le, toInt_ofInt_tallies h]

theorem addVote_eq {p : Petition} (h : p.WithinGoal) (type : VoteType) (now : Instant) :
    p.addVote type now =
      if p.goal.toInt ≤ p.tallies then refuse .goalReached else .ok (p.withVote type now) := by
  have hf := h.favor_nonneg
  have ha := h.against_nonneg
  have hg := p.goal.toInt_lt
  have one : (1 : Int64).toInt = 1 := by decide
  unfold addVote
  simp only [goalReached_eq h, bind, Except.bind, decide_eq_true_eq]
  split
  · rfl
  · rename_i open_
    simp only [tallies, Int.not_le] at open_
    cases type
    · dsimp only
      rw [addInt64_eq_ok (by omega) (by omega), one]
      rfl
    · dsimp only
      rw [addInt64_eq_ok (by omega) (by omega), one]
      rfl

theorem tally_withVote {p : Petition} (h : p.WithinGoal) (free : p.tallies < p.goal.toInt)
    (type other : VoteType) (now : Instant) :
    ((p.withVote type now).tally other).toInt =
      (p.tally other).toInt + if other = type then 1 else 0 := by
  have hf := h.favor_nonneg
  have ha := h.against_nonneg
  have hg := p.goal.toInt_lt
  simp only [tallies] at free
  have favor : (Int64.ofInt (p.votesInFavor.toInt + 1)).toInt = p.votesInFavor.toInt + 1 :=
    Int64.toInt_ofInt_of_le (by omega) (by omega)
  have against : (Int64.ofInt (p.votesAgainst.toInt + 1)).toInt = p.votesAgainst.toInt + 1 :=
    Int64.toInt_ofInt_of_le (by omega) (by omega)
  cases type <;> cases other <;> simp only [withVote, tally, favor, against] <;> simp

theorem admit_eq {p : Petition} (h : p.WithinGoal) (text : String) (now : Instant) :
    p.admit text now =
      match VoteType.ofText text with
      | .error e => refuse e
      | .ok type =>
        if p.isClosedAt now then refuse .votingClosed
        else if p.goal.toInt ≤ p.tallies then refuse .goalReached
        else .ok type := by
  unfold Petition.admit
  cases VoteType.ofText text with
  | error e => rfl
  | ok type =>
    simp only [goalReached_eq h, bind, Except.bind, decide_eq_true_eq]
    rfl

theorem admit_refused {p : Petition} (h : p.WithinGoal) {text : String} {now : Instant}
    {f : Failure PetitionError} (hf : p.admit text now = .error f) : ∃ e, f = .refused e := by
  rw [admit_eq h] at hf
  split at hf
  · cases hf
    exact ⟨_, rfl⟩
  · split at hf
    · cases hf
      exact ⟨_, rfl⟩
    · split at hf
      · cases hf
        exact ⟨_, rfl⟩
      · cases hf

theorem WithinGoal.withVote {p : Petition} (h : p.WithinGoal) (free : p.tallies < p.goal.toInt)
    (type : VoteType) (now : Instant) : (p.withVote type now).WithinGoal := by
  have hf := h.favor_nonneg
  have ha := h.against_nonneg
  have favor := tally_withVote h free type .favor now
  have against := tally_withVote h free type .against now
  simp only [tally] at favor against
  simp only [tallies] at free
  constructor
  · rw [favor]
    split <;> omega
  · rw [against]
    split <;> omega
  · rw [favor, against, withVote_goal]
    cases type <;> simp <;> omega

theorem WithinGoal.delete {p : Petition} (h : p.WithinGoal) (now : Instant) :
    (p.delete now).WithinGoal := ⟨h.favor_nonneg, h.against_nonneg, h.sum_le⟩

end Petition

theorem PetitionTable.live_eq_ok {t : PetitionTable} {id : Uuid} {p : Petition} :
    t.live id = .ok p ↔ t.get? id = some p ∧ p.isDeleted = false := by
  unfold live
  cases h : t.get? id with
  | none => simp [refuse]
  | some q =>
    by_cases hd : q.isDeleted
    · simp only [Option.filter_some, hd, Bool.not_true, Bool.false_eq_true, if_false, refuse,
        reduceCtorEq, Option.some.injEq, false_iff, not_and]
      rintro rfl
      simp [hd]
    · simp only [Option.filter_some, hd, Bool.not_false, if_true, Except.ok.injEq,
        Option.some.injEq]
      constructor
      · rintro rfl
        exact ⟨rfl, by simpa using hd⟩
      · exact fun h => h.1

theorem PetitionTable.live_eq_error {t : PetitionTable} {id : Uuid} {f : Failure StoreError}
    (h : t.live id = .error f) : f = .refused .notFound := by
  unfold live at h
  split at h
  · cases h
  · cases h
    rfl

namespace Store

/-- Every petition of the store is within its goal. -/
def WithinGoals (s : Store) : Prop := ∀ p ∈ s.petitions.rows, p.WithinGoal

theorem WithinGoals.live {s : Store} (h : s.WithinGoals) {id : Uuid} {p : Petition}
    (hp : s.petitions.live id = .ok p) : p.WithinGoal :=
  h p (Table.mem_of_get? (PetitionTable.live_eq_ok.1 hp).1)

theorem checkAvailable_eq_ok {s : Store} {u : Unit} :
    s.checkAvailable = .ok u ↔ s.available = true := by
  unfold checkAvailable
  split <;> simp_all [refuse]

theorem checkAvailable_refused {s : Store} {f : Failure StoreError}
    (h : s.checkAvailable = .error f) : ∃ e, f = .refused e := by
  unfold checkAvailable at h
  split at h
  · cases h
  · cases h
    exact ⟨_, rfl⟩

theorem live_refused {t : PetitionTable} {id : Uuid} {f : Failure StoreError}
    (h : t.live id = .error f) : ∃ e, f = .refused e := ⟨_, PetitionTable.live_eq_error h⟩

theorem create_refused {s : Store} {p : Petition} {f : Failure StoreError}
    (h : s.create p = .error f) : ∃ e, f = .refused e := by
  rcases Outcome.bind_eq_error.1 h with h | ⟨_, -, h⟩
  · exact checkAvailable_refused h
  · cases h

theorem hasVoted_refused {s : Store} {voter petition : Uuid} {f : Failure StoreError}
    (h : s.hasVoted voter petition = .error f) : ∃ e, f = .refused e := by
  rcases Outcome.bind_eq_error.1 h with h | ⟨_, -, h⟩
  · exact checkAvailable_refused h
  · cases h

theorem getById_refused {s : Store} {id : Uuid} {f : Failure StoreError}
    (h : s.getById id = .error f) : ∃ e, f = .refused e := by
  rcases Outcome.bind_eq_error.1 h with h | ⟨_, -, h⟩
  · exact checkAvailable_refused h
  · exact live_refused h

theorem list_refused {s : Store} {limit : Option Int64} {offset : Int64} {f : Failure StoreError}
    (h : s.list limit offset = .error f) : ∃ e, f = .refused e := by
  rcases Outcome.bind_eq_error.1 h with h | ⟨_, -, h⟩
  · exact checkAvailable_refused h
  · cases h

theorem delete_refused {s : Store} {id : Uuid} {now : Instant} {f : Failure StoreError}
    (h : s.delete id now = .error f) : ∃ e, f = .refused e := by
  rcases Outcome.bind_eq_error.1 h with h | ⟨_, -, h⟩
  · exact checkAvailable_refused h
  · rcases Outcome.bind_eq_error.1 h with h | ⟨_, -, h⟩
    · exact live_refused h
    · cases h

theorem getById_eq_ok {s : Store} {id : Uuid} {p : Petition} :
    s.getById id = .ok p ↔ s.available = true ∧ s.petitions.live id = .ok p := by
  simp only [getById, Outcome.bind_eq_ok, checkAvailable_eq_ok]
  exact ⟨fun ⟨_, h⟩ => h, fun h => ⟨(), h⟩⟩

theorem create_eq_ok {s s' : Store} {p : Petition} :
    s.create p = .ok s' ↔ s.available = true ∧ s' = s.seed p := by
  simp only [create, Outcome.bind_eq_ok, checkAvailable_eq_ok, pure, Except.pure, Except.ok.injEq]
  exact ⟨fun ⟨_, ha, hs⟩ => ⟨ha, hs.symm⟩, fun ⟨ha, hs⟩ => ⟨(), ha, hs.symm⟩⟩

theorem delete_eq_ok {s s' : Store} {id : Uuid} {now : Instant} :
    s.delete id now = .ok s' ↔
      s.available = true ∧ ∃ p, s.petitions.live id = .ok p ∧ s' = s.seed (p.delete now) := by
  simp only [delete, Outcome.bind_eq_ok, checkAvailable_eq_ok, pure, Except.pure, Except.ok.injEq]
  exact ⟨fun ⟨_, ha, p, hp, hs⟩ => ⟨ha, p, hp, hs.symm⟩,
    fun ⟨ha, p, hp, hs⟩ => ⟨(), ha, p, hp, hs.symm⟩⟩

/-- Store after a vote on a petition that takes it. -/
def withVote (s : Store) (v : Vote) (p : Petition) (now : Instant) : Store :=
  { s with petitions := s.petitions.put (p.withVote v.voteType now), votes := s.votes.put v }

/-- The staged increment of a vote ends as a direct one, because nothing else was staged. -/
theorem vote_eq {s : Store} (h : s.WithinGoals) (v : Vote) (now : Instant) :
    s.vote v now = do
      s.checkAvailable
      if s.votes.contains v.voterAndPetition then refuse .duplicateVote
      else do
        let p ← s.petitions.live v.petitionId
        if p.goal.toInt ≤ p.tallies then refuse .goalReached else return s.withVote v p now := by
  have staged : (Table.empty : PetitionTable).get? v.petitionId = none := rfl
  unfold vote voteWith
  refine bind_congr fun _ => ?_
  by_cases hv : s.votes.contains v.voterAndPetition = true
  · rw [if_pos hv, if_pos hv]
  · rw [if_neg hv, if_neg hv]
    cases hp : s.petitions.live v.petitionId with
    | error f =>
      have := PetitionTable.live_eq_error hp
      subst this
      split <;> simp [Staging.increment, Staging.petition, staged, hp, bind, Except.bind, refuse]
    | ok p =>
      have found : s.petitions.contains v.petitionId = true := by
        rw [Table.contains, (PetitionTable.live_eq_ok.1 hp).1]
        rfl
      rw [if_pos found]
      simp only [Staging.increment, Staging.petition, staged, hp, bind, Except.bind,
        Petition.addVote_eq (h.live hp)]
      by_cases full : p.goal.toInt ≤ p.tallies
      · rw [if_pos full, if_pos full]
        rfl
      · rw [if_neg full, if_neg full]
        rfl

theorem vote_eq_ok {s s' : Store} (h : s.WithinGoals) {v : Vote} {now : Instant} :
    s.vote v now = .ok s' ↔
      s.available = true ∧ s.votes.get? v.voterAndPetition = none ∧
        ∃ p, s.petitions.live v.petitionId = .ok p ∧ p.tallies < p.goal.toInt ∧
          s' = s.withVote v p now := by
  rw [vote_eq h]
  simp only [Outcome.bind_eq_ok, checkAvailable_eq_ok, Table.contains, Option.isSome_iff_ne_none]
  by_cases hv : s.votes.get? v.voterAndPetition = none
  · simp only [hv, ne_eq, not_true, if_false, Outcome.bind_eq_ok, true_and]
    constructor
    · rintro ⟨_, ha, p, hp, hs⟩
      split at hs
      · cases hs
      · rename_i free
        cases hs
        exact ⟨ha, p, hp, Int.not_le.1 free, rfl⟩
    · rintro ⟨ha, p, hp, free, rfl⟩
      exact ⟨(), ha, p, hp, if_neg (Int.not_le.2 free)⟩
  · simp [hv, refuse]

theorem vote_refused {s : Store} (h : s.WithinGoals) {v : Vote} {now : Instant}
    {f : Failure StoreError} (hf : s.vote v now = .error f) : ∃ e, f = .refused e := by
  rw [vote_eq h] at hf
  rcases Outcome.bind_eq_error.1 hf with hf | ⟨_, -, hf⟩
  · exact checkAvailable_refused hf
  · split at hf
    · cases hf
      exact ⟨_, rfl⟩
    · rcases Outcome.bind_eq_error.1 hf with hf | ⟨p, -, hf⟩
      · exact live_refused hf
      · split at hf
        · cases hf
          exact ⟨_, rfl⟩
        · cases hf

end Store

namespace Query

variable {q : Query} {s : Store}

theorem answer_eq_ok {reply : Reply} :
    q.answer s = .ok reply ↔
      match q with
      | .petition id => ∃ p, s.getById id = .ok p ∧ reply = .petition p
      | .listing limit offset => ∃ ps, s.list limit offset = .ok ps ∧ reply = .listing ps := by
  cases q with
  | petition id =>
    simp only [answer]
    cases s.getById id <;> simp [Except.map, eq_comm]
  | listing limit offset =>
    simp only [answer]
    cases s.list limit offset <;> simp [Except.map, eq_comm]

theorem answer_refused {f : Failure StoreError} (h : q.answer s = .error f) :
    ∃ e, f = .refused e := by
  cases q with
  | petition id =>
    simp only [answer] at h
    cases hs : s.getById id with
    | error g =>
      simp only [hs, Except.map, Except.error.injEq] at h
      exact h ▸ Store.getById_refused hs
    | ok p => simp [hs, Except.map] at h
  | listing limit offset =>
    simp only [answer] at h
    cases hs : s.list limit offset with
    | error g =>
      simp only [hs, Except.map, Except.error.injEq] at h
      exact h ▸ Store.list_refused hs
    | ok ps => simp [hs, Except.map] at h

end Query

end AuditedPetitions
