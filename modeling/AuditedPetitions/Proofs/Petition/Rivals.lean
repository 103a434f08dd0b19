import AuditedPetitions.Proofs.Petition.Isolation

/-! Calls of one voter for one petition. All of them look for an earlier vote and read the petition
before one of them writes, so what they saw may be out of date: the write decides. Once it has been
made, what every other call comes to is settled by where it stood, and no step changes that. A call
that stood between its two reads finds no vote with the first and sees the other's vote with the
second; if that vote was the last one the petition had room for, the call is told so, and not that
its voter has voted. -/

namespace AuditedPetitions

/-- The goal is not reached, and neither the total nor the next vote of a type leaves its range. -/
structure Petition.Votable (p : Petition) : Prop where
  free : p.tallies < p.goal.toInt
  total_ge : -9223372036854775808 ≤ p.tallies
  favor_lt : p.votesInFavor.toInt + 1 < 9223372036854775808
  against_lt : p.votesAgainst.toInt + 1 < 9223372036854775808

namespace Petition

/-- Room for one vote. -/
def IsNearGoal (p : Petition) : Prop := p.goal.toInt = p.tallies + 1

instance (p : Petition) : Decidable p.IsNearGoal := inferInstanceAs (Decidable (_ = _))

theorem WithinGoal.votable {p : Petition} (h : p.WithinGoal) (free : p.tallies < p.goal.toInt) :
    p.Votable := by
  have hf := h.favor_nonneg
  have ha := h.against_nonneg
  have hg := p.goal.toInt_lt
  have hs := free
  simp only [tallies] at hs
  exact ⟨free, by simp only [tallies]; omega, by omega, by omega⟩

theorem goalReached_of_range {ε : Type} {p : Petition} (lower : -9223372036854775808 ≤ p.tallies)
    (upper : p.tallies < 9223372036854775808) :
    p.goalReached (ε := ε) = .ok (decide (p.goal.toInt ≤ p.tallies)) := by
  have htotal : p.totalVotes (ε := ε) = .ok (.ofInt p.tallies) := addInt64_eq_ok lower upper
  have hsum : (Int64.ofInt p.tallies).toInt = p.tallies := Int64.toInt_ofInt_of_le lower upper
  rw [goalReached, htotal]
  simp [bind, Except.bind, pure, Except.pure, Int64.le_iff_toInt_le, hsum]

namespace Votable

variable {p : Petition}

theorem goalReached_eq {ε : Type} (h : p.Votable) : p.goalReached (ε := ε) = .ok false := by
  have hfree := h.free
  have hg := p.goal.toInt_lt
  rw [goalReached_of_range h.total_ge (by omega)]
  simp [hfree]

theorem addVote_eq (h : p.Votable) (type : VoteType) (now : Instant) :
    p.addVote type now = .ok (p.withVote type now) := by
  have one : (1 : Int64).toInt = 1 := by decide
  have hf := p.votesInFavor.le_toInt
  have ha := p.votesAgainst.le_toInt
  have hfavor := h.favor_lt
  have hagainst := h.against_lt
  simp only [addVote, h.goalReached_eq, bind, Except.bind, Bool.false_eq_true, if_false]
  cases type with
  | favor =>
    dsimp only
    rw [addInt64_eq_ok (by omega) (by omega), one]
    rfl
  | against =>
    dsimp only
    rw [addInt64_eq_ok (by omega) (by omega), one]
    rfl

theorem tallies_withVote (h : p.Votable) (type : VoteType) (now : Instant) :
    (p.withVote type now).tallies = p.tallies + 1 := by
  have hf := p.votesInFavor.le_toInt
  have ha := p.votesAgainst.le_toInt
  have favor : (Int64.ofInt (p.votesInFavor.toInt + 1)).toInt = p.votesInFavor.toInt + 1 :=
    Int64.toInt_ofInt_of_le (by omega) h.favor_lt
  have against : (Int64.ofInt (p.votesAgainst.toInt + 1)).toInt = p.votesAgainst.toInt + 1 :=
    Int64.toInt_ofInt_of_le (by omega) h.against_lt
  cases type with
  | favor =>
    simp only [tallies, withVote, favor]
    omega
  | against =>
    simp only [tallies, withVote, against]
    omega

theorem goalReached_withVote {ε : Type} (h : p.Votable) (type : VoteType) (now : Instant) :
    (p.withVote type now).goalReached (ε := ε) = .ok (decide p.IsNearGoal) := by
  have hfree := h.free
  have htotal := h.total_ge
  have hg := p.goal.toInt_lt
  have hnext := h.tallies_withVote type now
  rw [goalReached_of_range (by omega) (by omega), withVote_goal, hnext]
  have hiff : p.goal.toInt ≤ p.tallies + 1 ↔ p.IsNearGoal :=
    ⟨fun hle => Int.le_antisymm hle hfree, Int.le_of_eq⟩
  simp only [hiff]

end Votable

theorem admit_of_open {p : Petition} {text : String} {type : VoteType} {now : Instant}
    {reached : Bool} (htype : VoteType.ofText text = .ok type) (hopen : p.isClosedAt now = false)
    (hgoal : p.goalReached (ε := PetitionError) = .ok reached) :
    p.admit text now = if reached then refuse .goalReached else .ok type := by
  unfold Petition.admit
  simp only [htype, hopen, hgoal, bind, Except.bind, Bool.false_eq_true, if_false]
  rfl

end Petition

namespace Store

/-- A store with a petition, and without the voter's vote on it. -/
structure Unvoted (s : Store) (voter : Uuid) (p : Petition) : Prop where
  available : s.available = true
  live : s.petitions.live p.id = .ok p
  unvoted : s.votes.get? (voter, p.id) = none

/-- A store with the voter's vote on a petition that was as given before. -/
structure Voted (s : Store) (voter : Uuid) (p : Petition) : Prop where
  available : s.available = true
  live : ∃ type now, s.petitions.live p.id = .ok (p.withVote type now)
  voted : s.votes.contains (voter, p.id) = true

theorem Unvoted.vote_eq {s : Store} {voter : Uuid} {p : Petition} (h : s.Unvoted voter p)
    (hp : p.Votable) {v : Vote} (hv : v.voterAndPetition = (voter, p.id)) (now : Instant) :
    s.vote v now = .ok (s.withVote v p now) := by
  obtain ⟨hvoter, hpetition⟩ := Prod.ext_iff.1 hv
  have hpetition : v.petitionId = p.id := hpetition
  have hlive := h.live
  have found : s.petitions.contains p.id = true := by
    rw [Table.contains, (PetitionTable.live_eq_ok.1 hlive).1]
    rfl
  have staged : (Table.empty : PetitionTable).get? p.id = none := rfl
  have absent : s.votes.contains (voter, p.id) = false := by rw [Table.contains, h.unvoted]; rfl
  have present : s.checkAvailable = .ok () := checkAvailable_eq_ok.2 h.available
  simp only [vote, voteWith, present, hv, absent, hpetition, found,
    Staging.increment, Staging.petition, staged, hlive, hp.addVote_eq, bind, Except.bind,
    Bool.false_eq_true, if_true, if_false]
  rfl

theorem Unvoted.voted {s : Store} {voter : Uuid} {p : Petition} (h : s.Unvoted voter p)
    {v : Vote} (hv : v.voterAndPetition = (voter, p.id)) (now : Instant) :
    (s.withVote v p now).Voted voter p where
  available := h.available
  live := by
    obtain ⟨-, hkept⟩ := PetitionTable.live_eq_ok.1 h.live
    refine ⟨v.voteType, now, PetitionTable.live_eq_ok.2 ⟨?_, ?_⟩⟩
    · rw [withVote, Table.get?_put, if_pos (p.withVote_id _ _)]
    · cases v.voteType <;> exact hkept
  voted := by rw [withVote, Table.contains, Table.get?_put, if_pos hv]; rfl

theorem Voted.vote_eq {s : Store} {voter : Uuid} {p : Petition} (h : s.Voted voter p) {v : Vote}
    (hv : v.voterAndPetition = (voter, p.id)) (now : Instant) :
    s.vote v now = refuse .duplicateVote := by
  have present : s.checkAvailable = .ok () := checkAvailable_eq_ok.2 h.available
  simp only [vote, voteWith, present, hv, h.voted, bind, Except.bind, if_true]

end Store

/-- A call of the voter for a valid vote on the petition. -/
def Demand.IsRival (voter : Uuid) (p : Petition) (d : Demand) : Prop :=
  ∃ b type, d = .vote b ∧ b.voter = voter ∧ b.petition = p.id ∧ VoteType.ofText b.type = .ok type

namespace Call

/-- What a call comes to from where it stands, once another call has written its voter's vote. -/
def fate (p : Petition) : Call → Option Answer
  | .preflight _ | .commit .. => some (refuse .alreadyVoted)
  | .examine _ => some (refuse (if p.IsNearGoal then .goalReached else .alreadyVoted))
  | call => call.outcome?

theorem fate_standing (p : Petition) (call : Call) : call.standing.fate p = call.fate p := by
  cases call <;> rfl

theorem asks_of_standing {call : Call} (h : call.standing.asks = true) : call.asks = true := by
  cases call <;> exact h

theorem fate_of_outcome? {p : Petition} {call : Call} {a : Answer} (h : call.outcome? = some a) :
    call.fate p = some a := by
  cases call with
  | preflight b => cases h
  | examine b => cases h
  | commit b type => cases h
  | _ => exact h

/-- Error of a call that stood at a place, if anywhere, when another call wrote its voter's vote. -/
def loss (p : Petition) : Option Call → PetitionError
  | some (.examine _) => if p.IsNearGoal then .goalReached else .alreadyVoted
  | _ => .alreadyVoted

theorem loss_cases (p : Petition) (place : Option Call) :
    loss p place = .alreadyVoted ∨ p.IsNearGoal ∧ loss p place = .goalReached := by
  unfold loss
  split
  · split
    · rename_i hnear
      exact .inr ⟨hnear, rfl⟩
    · exact .inl rfl
  · exact .inl rfl

theorem fate_eq_loss {p : Petition} {call : Call} (h : call.asks = true) {d : Demand} {voter : Uuid}
    (hd : d.IsRival voter p) (hfollows : call.Follows d) :
    call.fate p = some (refuse (loss p (some call))) := by
  obtain ⟨b, type, rfl, -⟩ := hd
  cases call with
  | create request id => cases hfollows
  | delete id => cases hfollows
  | preflight b' => rfl
  | examine b' => rfl
  | commit b' type' => rfl
  | _ => cases h

variable {s : Store} {voter : Uuid} {p : Petition} {d : Demand} {call : Call} {now : Instant}

theorem decide_unvoted (h : s.Unvoted voter p) (hp : p.Votable) (hd : d.IsRival voter p)
    (hfollows : call.Follows d) (hasks : call.asks = true) (hopen : p.isClosedAt now = false) :
    ((call.decide s now none).1 = s ∧ (call.decide s now none).2.asks = true) ∨
      ∃ v, v.voterAndPetition = (voter, p.id) ∧
        call.decide s now none = (s.withVote v p now, .done (.ok (.vote v))) := by
  obtain ⟨b, type, rfl, hvoter, hpetition, htype⟩ := hd
  have present : s.checkAvailable = .ok () := Store.checkAvailable_eq_ok.2 h.available
  cases call with
  | create request id => cases hfollows
  | delete id => cases hfollows
  | preflight b' =>
    obtain rfl : b = b' := Demand.vote.inj hfollows
    have hnew : s.hasVoted b.voter b.petition = .ok false := by
      simp only [Store.hasVoted, present, bind, Except.bind, Table.contains, hvoter, hpetition,
        h.unvoted]
      rfl
    have hstep : (Call.preflight b).decide s now none = (s, .examine b) := by
      simp only [decide, Option.elim_none, hnew]
    rw [hstep]
    exact .inl ⟨rfl, rfl⟩
  | examine b' =>
    obtain rfl : b = b' := Demand.vote.inj hfollows
    have hread : s.getById b.petition = .ok p := by
      rw [hpetition]
      exact Store.getById_eq_ok.2 ⟨h.available, h.live⟩
    have hadmit := Petition.admit_of_open htype hopen hp.goalReached_eq
    have hstep : (Call.examine b).decide s now none = (s, .commit b type) := by
      simp only [decide, Option.elim_none, hread, hadmit, Bool.false_eq_true, if_false]
    rw [hstep]
    exact .inl ⟨rfl, rfl⟩
  | commit b' type' =>
    obtain rfl : b = b' := Demand.vote.inj hfollows.1
    have hkey : (⟨b.id, b.voter, b.petition, type', now⟩ : Vote).voterAndPetition = (voter, p.id) :=
      Prod.ext hvoter hpetition
    refine .inr ⟨_, hkey, ?_⟩
    simp only [decide, Option.elim_none, h.vote_eq hp hkey]
  | _ => cases hasks

theorem decide_voted (h : s.Voted voter p) (hp : p.Votable) (hd : d.IsRival voter p)
    (hfollows : call.Follows d) (hasks : call.asks = true) (hopen : p.isClosedAt now = false) :
    (call.decide s now none).1 = s ∧ (call.decide s now none).2.fate p = call.fate p := by
  obtain ⟨b, type, rfl, hvoter, hpetition, htype⟩ := hd
  have present : s.checkAvailable = .ok () := Store.checkAvailable_eq_ok.2 h.available
  cases call with
  | create request id => cases hfollows
  | delete id => cases hfollows
  | preflight b' =>
    obtain rfl : b = b' := Demand.vote.inj hfollows
    have hold : s.hasVoted b.voter b.petition = .ok true := by
      simp only [Store.hasVoted, present, bind, Except.bind, hvoter, hpetition, h.voted]
      rfl
    have hstep : (Call.preflight b).decide s now none = (s, .done (refuse .alreadyVoted)) := by
      simp only [decide, Option.elim_none, hold]
    rw [hstep]
    exact ⟨rfl, rfl⟩
  | examine b' =>
    obtain rfl : b = b' := Demand.vote.inj hfollows
    obtain ⟨cast, moment, hlive⟩ := h.live
    have hread : s.getById b.petition = .ok (p.withVote cast moment) := by
      rw [hpetition]
      exact Store.getById_eq_ok.2 ⟨h.available, hlive⟩
    have hclosed : (p.withVote cast moment).isClosedAt now = false := by cases cast <;> exact hopen
    have hadmit := Petition.admit_of_open htype hclosed (hp.goalReached_withVote cast moment)
    simp only [decide, Option.elim_none, hread, hadmit]
    by_cases hnear : p.IsNearGoal
    · simp [hnear, refuse, fate, outcome?]
    · simp [hnear, fate]
  | commit b' type' =>
    obtain rfl : b = b' := Demand.vote.inj hfollows.1
    have hkey : (⟨b.id, b.voter, b.petition, type', now⟩ : Vote).voterAndPetition = (voter, p.id) :=
      Prod.ext hvoter hpetition
    simp only [decide, Option.elim_none, h.vote_eq hkey]
    exact ⟨rfl, rfl⟩
  | _ => cases hasks

/-- Steps that a vote takes at most until it has come to something. -/
def distance : Call → Nat
  | .preflight _ => 3
  | .examine _ => 2
  | .commit .. => 1
  | _ => 0

theorem asks_or_outcome (hd : d.IsRival voter p) (hfollows : call.Follows d) :
    (call.asks = true ∧ call.outcome? = none ∧ 0 < call.distance) ∨
      (call.asks = false ∧ call.outcome?.isSome = true) := by
  obtain ⟨b, type, rfl, -⟩ := hd
  cases call with
  | create request id => cases hfollows
  | delete id => cases hfollows
  | preflight b' => exact .inl ⟨rfl, rfl, Nat.zero_lt_succ 2⟩
  | examine b' => exact .inl ⟨rfl, rfl, Nat.zero_lt_succ 1⟩
  | commit b' type' => exact .inl ⟨rfl, rfl, Nat.one_pos⟩
  | settle effects reply => exact .inr ⟨rfl, rfl⟩
  | look q key => cases hfollows
  | load q key => cases hfollows
  | fill q key reply => cases hfollows
  | done answer => exact .inr ⟨rfl, rfl⟩

end Call

namespace Service

theorem fate_step {s : Service} {voter : Uuid} {p : Petition} (h : s.store.Voted voter p)
    (hp : p.Votable) {d : Demand} (hd : d.IsRival voter p) {call : Call}
    (hfollows : call.Follows d) {c : Conditions} (hstore : c.store = none)
    (hopen : p.isClosedAt c.now = false) :
    (s.step c call).1.store = s.store ∧ (s.step c call).2.fate p = call.fate p := by
  cases hasks : call.asks with
  | true =>
    obtain ⟨hsame, hplace⟩ := Prod.ext_iff.1 ((s.moves_step c call).decides hasks)
    rw [hstore] at hsame hplace
    obtain ⟨hkept, hfate⟩ := Call.decide_voted h hp hd hfollows hasks hopen
    refine ⟨hsame.trans hkept, ?_⟩
    rw [← hfate, ← hplace]
    exact (Call.fate_standing p _).symm
  | false =>
    obtain ⟨hsame, hplace⟩ := (s.moves_step c call).standing hfollows hasks
    have hwrite : d.isWrite = true := by
      obtain ⟨b, -, rfl, -⟩ := hd
      rfl
    refine ⟨hsame, ?_⟩
    rw [← Call.fate_standing, hplace hwrite, Call.fate_standing]

theorem Moves.distance {s s' : Service} {c : Conditions} {call next : Call}
    (h : s.Moves c call s' next) : next.distance ≤ call.distance - 1 := by
  cases h with
  | passed h => cases h <;> exact Nat.le_refl _
  | fetched h => cases h <;> exact Nat.zero_le _
  | _ => exact Nat.zero_le _

end Service

theorem Demand.distance_start_le (d : Demand) (s : Service) (now : Instant) :
    (d.start s now).distance ≤ 3 := by
  cases d with
  | create request id =>
    simp only [start, Service.startCreate]
    split <;> exact Nat.zero_le 3
  | vote b =>
    simp only [start, Service.startVote]
    split
    · exact Nat.le_refl 3
    · exact Nat.le_succ 2
  | delete id => exact Nat.zero_le 3
  | get id => exact Nat.zero_le 3
  | list limit offset =>
    simp only [start, Service.startList]
    split
    · exact Nat.zero_le 3
    · split <;> exact Nat.zero_le 3

namespace Traffic

/-- What happens while the voter's calls run and nothing else does: the store is at hand, the
deadline is ahead, and what earlier calls have left goes on in the background. -/
def Event.IsRival (voter : Uuid) (p : Petition) : Event → Prop
  | .arrive d _ => d.IsRival voter p
  | .advance _ c => c.store = none ∧ p.isClosedAt c.now = false
  | .switchStore available => available = true
  | .work .. | .ledger _ => True

/-- What a client's call has come to. -/
def outcome? (n : Nat) (t : Traffic) : Option Answer := t.clients[n]?.bind (·.call.outcome?)

/-- What a client's call comes to, once another call has written its voter's vote. -/
def fate (p : Petition) (n : Nat) (t : Traffic) : Option Answer :=
  t.clients[n]?.elim (some (refuse .alreadyVoted)) (·.call.fate p)

theorem fate_of_outcome? {p : Petition} {n : Nat} {t : Traffic} {a : Answer}
    (h : t.outcome? n = some a) : t.fate p n = some a := by
  obtain ⟨client, hclient, ha⟩ := Option.bind_eq_some_iff.1 h
  rw [fate, hclient]
  exact Call.fate_of_outcome? ha

/-- The voter's calls, and no others, of a service that looks for earlier votes first. -/
structure Rivals (voter : Uuid) (p : Petition) (t : Traffic) : Prop where
  preflight : t.service.settings.preflight = true
  demands : ∀ client ∈ t.clients, client.demand.IsRival voter p
  follows : t.Follows

/-- No call has written the voter's vote. -/
structure Undecided (voter : Uuid) (p : Petition) (t : Traffic) : Prop
    extends t.Rivals voter p where
  store : t.service.store.Unvoted voter p
  asking : ∀ client ∈ t.clients, client.call.asks = true

/-- One has, and what each comes to is known. -/
structure Decided (voter : Uuid) (p : Petition) (fates : Nat → Option Answer) (t : Traffic) : Prop
    extends t.Rivals voter p where
  store : t.service.store.Voted voter p
  fate_eq : ∀ n, t.fate p n = fates n

variable {voter : Uuid} {p : Petition} {t : Traffic} {e : Event}

theorem Rivals.step (h : t.Rivals voter p) (he : e.IsRival voter p) :
    (t.step e).Rivals voter p where
  preflight := by rw [settings_step, h.preflight]
  demands := by
    intro client hclient
    have hdemand := List.mem_map_of_mem (f := Client.demand) hclient
    have hsplit : (t.step e).clients.map Client.demand =
        t.clients.map Client.demand ++ [e].filterMap Event.demand? := demands_run t [e]
    rw [hsplit, List.mem_append] at hdemand
    rcases hdemand with hold | hnew
    · obtain ⟨old, hold, hsame⟩ := List.mem_map.1 hold
      exact hsame ▸ h.demands old hold
    · cases e <;> simp [Event.demand?] at hnew
      exact hnew ▸ he
  follows := h.follows.step e

theorem fate_advance {n : Nat} {client : Client} (hn : t.clients[n]? = some client)
    (c : Conditions) (m : Nat) : (t.advance n c).fate p m =
      if m = n then (t.service.step c client.call).2.fate p else t.fate p m := by
  have hlt := (List.getElem?_eq_some_iff.1 hn).1
  rw [advance_of_found hn]
  by_cases hm : m = n
  · subst hm
    simp [fate, List.getElem?_set_self hlt]
  · simp [fate, hm, List.getElem?_set_ne (Ne.symm hm)]

theorem fate_arrive (h : t.Rivals voter p) {d : Demand} (hd : d.IsRival voter p) (now : Instant)
    (m : Nat) : (t.step (.arrive d now)).fate p m = t.fate p m := by
  obtain ⟨b, type, rfl, -⟩ := hd
  have hstart : Demand.start t.service now (.vote b) = .preflight b := by
    rw [Demand.start, Service.startVote, if_pos h.preflight]
  simp only [fate, step, hstart, List.getElem?_append]
  split
  · rfl
  · rename_i hm
    rw [List.getElem?_eq_none (Nat.le_of_not_lt hm)]
    cases m - t.clients.length <;> rfl

theorem Decided.fate_step {fates : Nat → Option Answer} (h : t.Decided voter p fates)
    (hp : p.Votable) {n : Nat} {client : Client} (hn : t.clients[n]? = some client) {c : Conditions}
    (he : (Event.advance n c).IsRival voter p) :
    (t.service.step c client.call).1.store = t.service.store ∧
      (t.service.step c client.call).2.fate p = t.fate p n := by
  have hclient := List.mem_of_getElem? hn
  have hfate : t.fate p n = client.call.fate p := by rw [fate, hn, Option.elim_some]
  rw [hfate]
  exact Service.fate_step h.store hp (h.demands client hclient) (h.follows client hclient) he.1 he.2

theorem Decided.step {fates : Nat → Option Answer} (h : t.Decided voter p fates) (hp : p.Votable)
    (he : e.IsRival voter p) : (t.step e).Decided voter p fates := by
  have hrivals := h.toRivals.step he
  cases e with
  | arrive d now =>
    refine { toRivals := hrivals, store := h.store, fate_eq := fun m => ?_ }
    rw [fate_arrive h.toRivals he now m, h.fate_eq]
  | advance n c =>
    cases hn : t.clients[n]? with
    | none =>
      have hsame : t.step (.advance n c) = t := by simp [Traffic.step, advance, hn]
      rw [hsame]
      exact h
    | some client =>
      obtain ⟨hstore, hfate⟩ := h.fate_step hp hn he
      refine { toRivals := hrivals, store := ?_, fate_eq := fun m => ?_ }
      · rw [Traffic.step, advance_of_found hn, hstore]
        exact h.store
      · rw [Traffic.step, fate_advance hn, hfate, ← h.fate_eq]
        split
        · rename_i hm
          rw [hm]
        · rfl
  | switchStore available =>
    obtain rfl : available = true := he
    have hstore := h.store
    refine { toRivals := hrivals, store := ?_, fate_eq := h.fate_eq }
    exact ⟨rfl, hstore.live, hstore.voted⟩
  | work n c =>
    refine { toRivals := hrivals, store := ?_, fate_eq := h.fate_eq }
    simp only [Traffic.step, store_work]
    exact h.store
  | ledger action => exact { toRivals := hrivals, store := h.store, fate_eq := h.fate_eq }

theorem Undecided.advance (h : t.Undecided voter p) (hp : p.Votable) {n : Nat} {client : Client}
    (hn : t.clients[n]? = some client) {c : Conditions}
    (he : (Event.advance n c).IsRival voter p) :
    (t.step (.advance n c)).Undecided voter p ∨ ∃ v, v.voterAndPetition = (voter, p.id) ∧
      (t.step (.advance n c)).Decided voter p
        fun m => if m = n then some (.ok (.vote v)) else t.fate p m := by
  have hrivals := h.toRivals.step he
  have hclient := List.mem_of_getElem? hn
  have hasks := h.asking client hclient
  obtain ⟨hstore, hplace⟩ := Prod.ext_iff.1 ((t.service.moves_step c client.call).decides hasks)
  rw [he.1] at hstore hplace
  simp only at hstore hplace
  rcases Call.decide_unvoted h.store hp (h.demands client hclient) (h.follows client hclient)
    hasks he.2 with ⟨hkept, hon⟩ | ⟨v, hkey, hcommit⟩
  · rw [hkept] at hstore
    rw [← hplace] at hon
    refine .inl { toRivals := hrivals, store := ?_, asking := ?_ }
    · simp only [Traffic.step, advance_of_found hn, hstore]
      exact h.store
    · intro other hother
      rw [Traffic.step, advance_of_found hn] at hother
      rcases List.mem_or_eq_of_mem_set hother with hold | rfl
      · exact h.asking other hold
      · exact Call.asks_of_standing hon
  · rw [hcommit] at hstore hplace
    refine .inr ⟨v, hkey, { toRivals := hrivals, store := ?_, fate_eq := ?_ }⟩
    · simp only [Traffic.step, advance_of_found hn, hstore]
      exact h.store.voted hkey c.now
    · intro m
      have hfate : (t.service.step c client.call).2.fate p = some (.ok (.vote v)) := by
        rw [← Call.fate_standing, hplace]
        rfl
      rw [Traffic.step, fate_advance hn, hfate]

/-- Before the vote is written an event changes nothing of note, or it is the one that writes it. -/
theorem Undecided.step (h : t.Undecided voter p) (hp : p.Votable) (he : e.IsRival voter p) :
    (t.step e).Undecided voter p ∨ ∃ n c v, e = .advance n c ∧
      v.voterAndPetition = (voter, p.id) ∧
      (t.step e).Decided voter p fun m => if m = n then some (.ok (.vote v)) else t.fate p m := by
  have hrivals := h.toRivals.step he
  cases e with
  | arrive d now =>
    refine .inl { toRivals := hrivals, store := h.store, asking := ?_ }
    intro client hclient
    rcases List.mem_append.1 hclient with hold | hnew
    · exact h.asking client hold
    · obtain ⟨b, type, rfl, -⟩ := he
      rw [List.mem_singleton.1 hnew]
      simp [Demand.start, Service.startVote, h.preflight, Call.asks]
  | advance n c =>
    cases hn : t.clients[n]? with
    | none =>
      have hsame : t.step (.advance n c) = t := by simp [Traffic.step, Traffic.advance, hn]
      rw [hsame]
      exact .inl h
    | some client =>
      rcases h.advance hp hn he with hstill | ⟨v, hkey, hdecided⟩
      · exact .inl hstill
      · exact .inr ⟨n, c, v, rfl, hkey, hdecided⟩
  | switchStore available =>
    obtain rfl : available = true := he
    have hstore := h.store
    refine .inl { toRivals := hrivals, store := ?_, asking := h.asking }
    exact ⟨rfl, hstore.live, hstore.unvoted⟩
  | work n c =>
    refine .inl { toRivals := hrivals, store := ?_, asking := h.asking }
    simp only [Traffic.step, store_work]
    exact h.store
  | ledger action => exact .inl { toRivals := hrivals, store := h.store, asking := h.asking }

theorem Undecided.outcome?_eq (h : t.Undecided voter p) (n : Nat) : t.outcome? n = none := by
  refine Option.bind_eq_none_iff.2 fun client hn => ?_
  have hclient := List.mem_of_getElem? hn
  rcases Call.asks_or_outcome (h.demands client hclient) (h.follows client hclient) with hask | hover
  · exact hask.2.1
  · exact absurd ((h.asking client hclient).symm.trans hover.1) (by decide)

theorem Undecided.fate_eq (h : t.Undecided voter p) (n : Nat) :
    t.fate p n = some (refuse (Call.loss p (t.clients[n]?.map Client.call))) := by
  cases hn : t.clients[n]? with
  | none => simp [fate, hn, Call.loss]
  | some client =>
    have hclient := List.mem_of_getElem? hn
    simp only [fate, hn, Option.elim_some, Option.map_some]
    exact Call.fate_eq_loss (h.asking client hclient) (h.demands client hclient)
      (h.follows client hclient)

theorem decided_run (h : t.Undecided voter p) (hp : p.Votable) {events : List Event}
    (he : ∀ e ∈ events, e.IsRival voter p) :
    (t.run events).Undecided voter p ∨ ∃ before n c after v,
      events = before ++ .advance n c :: after ∧ (t.run before).Undecided voter p ∧
        v.voterAndPetition = (voter, p.id) ∧ (t.run events).Decided voter p fun m =>
          if m = n then some (.ok (.vote v)) else (t.run before).fate p m := by
  induction events using List.reverseRecOn with
  | nil => exact .inl h
  | append_singleton events e ih =>
    have hlast := he e (List.mem_append_right _ (List.mem_singleton.2 rfl))
    rw [run_concat]
    rcases ih fun x hx => he x (List.mem_append_left _ hx) with
      hopen | ⟨before, n, c, after, v, rfl, hbefore, hkey, hdecided⟩
    · rcases hopen.step hp hlast with hstill | ⟨n, c, v, rfl, hkey, hdecided⟩
      · exact .inl hstill
      · exact .inr ⟨events, n, c, [], v, rfl, hopen, hkey, hdecided⟩
    · exact .inr ⟨before, n, c, after ++ [e], v, by simp, hbefore, hkey, hdecided.step hp hlast⟩

/-- Steps until a client's vote has come to something; three, if it has not arrived. -/
def distance (n : Nat) (t : Traffic) : Nat := (t.clients[n]?.map (·.call.distance)).getD 3

theorem distance_step (n : Nat) (t : Traffic) (e : Event) :
    distance n (t.step e) ≤ distance n t - (stride? n t e).toList.length := by
  cases e with
  | arrive d now =>
    have hstart := d.distance_start_le t.service now
    simp only [stride?, Option.toList_none, List.length_nil, Nat.sub_zero, distance, Traffic.step,
      List.getElem?_append]
    split
    · exact Nat.le_refl _
    · rename_i hn
      rw [List.getElem?_eq_none (Nat.le_of_not_lt hn)]
      cases n - t.clients.length with
      | zero => exact hstart
      | succ k => exact Nat.le_refl 3
  | advance m c =>
    cases hm : t.clients[m]? with
    | none =>
      have hnone : stride? n t (.advance m c) = none := by
        simp only [stride?]
        split
        · rename_i hmn
          rw [← hmn, hm, Option.bind_none]
        · rfl
      simp [Traffic.step, advance, hm, hnone]
    | some client =>
      have hlt := (List.getElem?_eq_some_iff.1 hm).1
      rw [Traffic.step, advance_of_found hm]
      by_cases hmn : m = n
      · subst hmn
        have hstep := (t.service.moves_step c client.call).distance
        simp only [distance, List.getElem?_set_self hlt, Option.map_some, Option.getD_some, hm]
        refine hstep.trans (Nat.sub_le_sub_left ?_ _)
        cases stride? m t (.advance m c) <;> simp
      · simp [stride?, hmn, distance, List.getElem?_set_ne hmn]
  | switchStore available => exact Nat.le_refl _
  | work m c => exact Nat.le_refl _
  | ledger action => exact Nat.le_refl _

theorem distance_run (n : Nat) (t : Traffic) (events : List Event) :
    distance n (t.run events) ≤ distance n t - strides n t events := by
  induction events using List.reverseRecOn with
  | nil => exact Nat.le_refl _
  | append_singleton events e ih =>
    have hstep := distance_step n (t.run events) e
    simp only [strides, observed_concat, List.length_append] at ih ⊢
    rw [run_concat]
    omega

theorem Rivals.outcome_of_distance (h : t.Rivals voter p) {n : Nat} (hn : distance n t = 0) :
    (t.outcome? n).isSome = true := by
  cases hfound : t.clients[n]? with
  | none => simp [distance, hfound] at hn
  | some client =>
    have hclient := List.mem_of_getElem? hfound
    have hzero : client.call.distance = 0 := by simpa [distance, hfound] using hn
    rcases Call.asks_or_outcome (h.demands client hclient) (h.follows client hclient) with
      hask | hover
    · exact absurd hzero (Nat.ne_of_gt hask.2.2)
    · simpa [outcome?, hfound] using hover.2

theorem outcome?_of_fate {n : Nat} {r : Reply} (h : t.fate p n = some (.ok r)) :
    t.outcome? n = some (.ok r) := by
  cases hn : t.clients[n]? with
  | none => simp [fate, hn, refuse] at h
  | some client =>
    simp only [fate, hn, Option.elim_some] at h
    simp only [outcome?, hn, Option.bind_some]
    cases hcall : client.call with
    | preflight b => simp [hcall, Call.fate, refuse] at h
    | examine b => simp [hcall, Call.fate, refuse] at h
    | commit b type => simp [hcall, Call.fate, refuse] at h
    | _ =>
      rw [hcall] at h
      exact h

/-- A call writes the voter's vote when a beginning of the run is over. Where every other call stood
then tells with which error it ends. -/
structure WonBy (voter : Uuid) (p : Petition) (t₀ : Traffic) (events before : List Event) (n : Nat)
    (v : Vote) : Prop where
  written : ∃ c after, events = before ++ .advance n c :: after
  open_before : ∀ m, (t₀.run before).outcome? m = none
  key : v.voterAndPetition = (voter, p.id)
  accepted : (t₀.run events).outcome? n = some (.ok (.vote v))
  refused : ∀ m a, m ≠ n → (t₀.run events).outcome? m = some a →
    a = refuse (Call.loss p ((t₀.run before).clients[m]?.map Client.call))

/-- How the calls of one voter for one petition end. -/
structure Contest (voter : Uuid) (p : Petition) (t₀ : Traffic) (events : List Event) : Prop where
  /-- A call has come to something with its third step, -/
  quick : ∀ n, 3 ≤ strides n t₀ events → ((t₀.run events).outcome? n).isSome = true
  /-- and has ended with its ninth, if it does not wait for the ledger. -/
  bounded : ∀ n, strides n t₀ events ≤ 9
  /-- No call has come to anything, or one has won. -/
  decided : (∀ n, (t₀.run events).outcome? n = none) ∨ ∃ before n v, WonBy voter p t₀ events before n v
  /-- So of the calls that were made exactly one is accepted. The others are told that their voter
  has voted; only if there was room for one vote they may be told of the goal instead. -/
  one : (t₀.run events).clients ≠ [] →
    (∀ client ∈ (t₀.run events).clients, client.call.isDone = true) →
    ∃ n v, (t₀.run events).outcome? n = some (.ok (.vote v)) ∧
      ∀ m < (t₀.run events).clients.length, m ≠ n →
        (t₀.run events).outcome? m = some (refuse .alreadyVoted) ∨
          p.IsNearGoal ∧ (t₀.run events).outcome? m = some (refuse .goalReached)

theorem outcome?_of_isDone {n : Nat} (hn : n < t.clients.length)
    (hdone : ∀ client ∈ t.clients, client.call.isDone = true) : ∃ a, t.outcome? n = some a := by
  obtain ⟨a, ha⟩ := Call.isDone_iff.1 (hdone t.clients[n] (List.getElem_mem hn))
  exact ⟨a, by rw [outcome?, List.getElem?_eq_getElem hn, Option.bind_some, ha]; rfl⟩

theorem wonBy_run (h : t.Undecided voter p) (hp : p.Votable) {events : List Event}
    (he : ∀ e ∈ events, e.IsRival voter p) : (∀ n, (t.run events).outcome? n = none) ∨
      ∃ before n v, WonBy voter p t events before n v := by
  rcases decided_run h hp he with hopen | ⟨before, n, c, after, v, hsplit, hbefore, hkey, hover⟩
  · exact .inl hopen.outcome?_eq
  · refine .inr ⟨before, n, v, ⟨c, after, hsplit⟩, hbefore.outcome?_eq, hkey, ?_, ?_⟩
    · exact outcome?_of_fate ((hover.fate_eq n).trans (if_pos rfl))
    · intro m a hm ha
      have hfate := (fate_of_outcome? ha).symm.trans (hover.fate_eq m)
      rw [if_neg hm, hbefore.fate_eq] at hfate
      exact Option.some.inj hfate

theorem WonBy.others {events before : List Event} {n : Nat} {v : Vote}
    (h : WonBy voter p t events before n v) {m : Nat} (hm : m < (t.run events).clients.length)
    (hdone : ∀ client ∈ (t.run events).clients, client.call.isDone = true) (hmn : m ≠ n) :
    (t.run events).outcome? m = some (refuse .alreadyVoted) ∨
      p.IsNearGoal ∧ (t.run events).outcome? m = some (refuse .goalReached) := by
  obtain ⟨a, ha⟩ := outcome?_of_isDone hm hdone
  have hrefused := h.refused m a hmn ha
  rw [hrefused] at ha
  rcases Call.loss_cases p ((t.run before).clients[m]?.map Client.call) with
    hvoted | ⟨hnear, hgoal⟩
  · rw [hvoted] at ha
    exact .inl ha
  · rw [hgoal] at ha
    exact .inr ⟨hnear, ha⟩

/-- Exactly one of the calls that a voter makes for a petition is accepted, in whatever order they
take their steps. -/
theorem one_vote {s : Service} (hpreflight : s.settings.preflight = true)
    (hstore : s.store.Unvoted voter p) (hp : p.Votable) {events : List Event}
    (he : ∀ e ∈ events, e.IsRival voter p) : Contest voter p ⟨s, []⟩ events := by
  have h₀ : Undecided voter p ⟨s, []⟩ := {
    preflight := hpreflight
    demands := by simp
    follows := by simp [Follows]
    store := hstore
    asking := by simp }
  have hdecided := wonBy_run h₀ hp he
  refine ⟨?_, ?_, hdecided, ?_⟩
  · intro n hn
    have hdistance := distance_run n ⟨s, []⟩ events
    have hthree : distance n ⟨s, []⟩ = 3 := rfl
    have hzero : distance n (Traffic.run ⟨s, []⟩ events) = 0 := by omega
    rcases decided_run h₀ hp he with hopen | ⟨_, _, _, _, _, -, -, -, hover⟩
    · exact hopen.outcome_of_distance hzero
    · exact hover.outcome_of_distance hzero
  · intro n
    have hstrides := strides_run n ⟨s, []⟩ events
    have hnine : remaining n ⟨s, []⟩ = 9 := rfl
    omega
  · intro hsome hdone
    rcases hdecided with hnone | ⟨before, n, v, hwon⟩
    · obtain ⟨a, ha⟩ := outcome?_of_isDone (List.length_pos_iff.2 hsome) hdone
      rw [hnone] at ha
      cases ha
    · exact ⟨n, v, hwon.accepted, fun m hm hmn => hwon.others hm hdone hmn⟩

/-- A petition with room for one vote. -/
def lastPlace : Petition :=
  let tomorrow := ((Date.of? 1970 1 2).bind (Instant.of? · 0 0 0 0)).getD default
  ⟨.ofNat 1, .ofNat 9, "Bike lanes", "Protected lanes downtown", 1, 0, 0, tomorrow, none, default,
    default⟩

/-- The second call of a voter looks for an earlier vote; then the first looks, reads and writes, and
only now the second reads the petition. Both go on to their ends. -/
def overtaken : List Event :=
  let calm : Conditions := ⟨default, 0, 0, none, none, none, none⟩
  let ballot (n : Nat) : Ballot := ⟨.ofNat 2, .ofNat 1, "favor", .ofNat n⟩
  .arrive (.vote (ballot 11)) default :: .arrive (.vote (ballot 12)) default :: .advance 1 calm ::
    List.replicate 7 (.advance 0 calm) ++ [.advance 1 calm]

theorem one_vote_overtaken :
    let s := { Service.start .standard .standard .closed with store := Store.empty.seed lastPlace }
    let t := Traffic.run ⟨s, []⟩ overtaken
    s.settings.preflight = true ∧ s.store.Unvoted (.ofNat 2) lastPlace ∧ lastPlace.Votable ∧
      (∀ e ∈ overtaken, e.IsRival (.ofNat 2) lastPlace) ∧
      Contest (.ofNat 2) lastPlace ⟨s, []⟩ overtaken ∧
      (t.clients.map fun client => client.call matches .done (.ok (.vote _))) = [true, false] ∧
      (t.clients.map fun client => client.call matches .done (.error (.refused .goalReached))) =
        [false, true] := by
  intro s t
  have hstore : s.store.Unvoted (.ofNat 2) lastPlace := ⟨rfl, rfl, rfl⟩
  have hp : lastPlace.Votable :=
    Petition.WithinGoal.votable ⟨by decide, by decide, by decide⟩ (by decide)
  have he : ∀ e ∈ overtaken, e.IsRival (.ofNat 2) lastPlace := by
    have hcalm (n : Nat) : Event.IsRival (.ofNat 2) lastPlace
        (.advance n ⟨default, 0, 0, none, none, none, none⟩) := ⟨rfl, by decide⟩
    have hvote (n : Nat) : Event.IsRival (.ofNat 2) lastPlace
        (.arrive (.vote ⟨.ofNat 2, .ofNat 1, "favor", .ofNat n⟩) default) :=
      ⟨_, .favor, rfl, rfl, rfl, rfl⟩
    simp only [overtaken, List.replicate, List.cons_append, List.nil_append, List.forall_mem_cons]
    exact ⟨hvote 11, hvote 12, hcalm 1, hcalm 0, hcalm 0, hcalm 0, hcalm 0, hcalm 0, hcalm 0, hcalm 0,
      hcalm 1, by simp⟩
  exact ⟨rfl, hstore, hp, he, one_vote rfl hstore hp he, by decide +kernel, by decide +kernel⟩

end Traffic

end AuditedPetitions
