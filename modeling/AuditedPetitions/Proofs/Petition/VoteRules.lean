import AuditedPetitions.Proofs.Petition.Regular
import AuditedPetitions.Proofs.Petition.Rivals

/-! The rules of a vote. A vote is refused for the first objection that the rows of the store, the
text and the clock raise; if there is none, one row is added and one tally grows. This is what every
run comes to in which nothing else is asked of the store while the vote is under way: the call looks
for an earlier vote, reads the petition and commits, and the commit repeats no check that could fail
by then. -/

namespace AuditedPetitions

/-- What can be said against a vote. -/
inductive Objection
  | alreadyVoted
  | notFound
  | invalidVoteType
  | votingClosed
  | goalReached
  deriving DecidableEq

namespace Objection

/-- Objections in the order in which they are raised. -/
def all : List Objection := [alreadyVoted, notFound, invalidVoteType, votingClosed, goalReached]

/-- Whether the rows of the store, the ballot and the clock raise an objection. -/
def applies (s : Store) (b : Ballot) (now : Instant) : Objection → Bool
  | alreadyVoted => s.votes.rows.any fun v => v.voterId = b.voter && v.petitionId = b.petition
  | notFound => !s.petitions.rows.any fun p => p.id = b.petition && p.deletedAt.isNone
  | invalidVoteType => b.type ≠ "favor" && b.type ≠ "against"
  | votingClosed => s.petitions.rows.any fun p => p.id = b.petition && p.votingDeadline < now
  | goalReached => s.petitions.rows.any fun p =>
    p.id = b.petition && p.goal.toInt ≤ p.votesInFavor.toInt + p.votesAgainst.toInt

def error (b : Ballot) : Objection → PetitionError
  | alreadyVoted => .alreadyVoted
  | notFound => .notFound
  | invalidVoteType => .invalidVoteType b.type
  | votingClosed => .votingClosed
  | goalReached => .goalReached

/-- First objection that applies. -/
def first? (s : Store) (b : Ballot) (now : Instant) : Option Objection :=
  all.find? (applies s b now)

variable {s : Store} {b : Ballot} {now : Instant} {p : Petition}

theorem applies_alreadyVoted :
    alreadyVoted.applies s b now = s.votes.contains (b.voter, b.petition) := by
  have hany := s.votes.any_key (b.voter, b.petition) fun _ => true
  simp only [Bool.and_true, Vote.voterAndPetition, Prod.mk.injEq, Bool.decide_and] at hany
  rw [applies, hany, Table.contains]
  cases s.votes.get? (b.voter, b.petition) <;> rfl

theorem applies_notFound :
    notFound.applies s b now = !(s.petitions.get? b.petition).any fun p => p.deletedAt.isNone := by
  rw [applies, s.petitions.any_key b.petition]

theorem applies_votingClosed :
    votingClosed.applies s b now = (s.petitions.get? b.petition).any (·.isClosedAt now) := by
  rw [applies, s.petitions.any_key b.petition]
  rfl

theorem applies_goalReached :
    goalReached.applies s b now =
      (s.petitions.get? b.petition).any fun p => p.goal.toInt ≤ p.tallies := by
  rw [applies, s.petitions.any_key b.petition]
  rfl

theorem applies_invalidVoteType :
    invalidVoteType.applies s b now = (VoteType.ofName? b.type).isNone := by
  rw [applies, VoteType.ofName?]
  by_cases hfavor : b.type = "favor"
  · simp [hfavor]
  · by_cases hagainst : b.type = "against"
    · simp [hagainst]
    · simp [hfavor, hagainst]

theorem first?_of_voted (h : s.votes.contains (b.voter, b.petition) = true) :
    first? s b now = some alreadyVoted := by
  rw [first?, all, List.find?_cons, applies_alreadyVoted, h]

theorem first?_of_unvoted (h : s.votes.contains (b.voter, b.petition) = false) :
    first? s b now =
      match s.petitions.live b.petition with
      | .error _ => some notFound
      | .ok p =>
        if VoteType.ofName? b.type = none then some invalidVoteType
        else if p.isClosedAt now then some votingClosed
        else if p.goal.toInt ≤ p.tallies then some goalReached
        else none := by
  simp only [first?, all, List.find?_cons, applies_alreadyVoted, h, applies_notFound,
    applies_invalidVoteType, applies_votingClosed, applies_goalReached, List.find?_nil]
  cases hp : s.petitions.live b.petition with
  | error f =>
    have hgone : ((s.petitions.get? b.petition).any fun p => p.deletedAt.isNone) = false := by
      cases hget : s.petitions.get? b.petition with
      | none => rfl
      | some p =>
        rw [Option.any_some]
        cases hdeleted : p.deletedAt with
        | some t => rfl
        | none =>
          have hlive : s.petitions.live b.petition = .ok p :=
            PetitionTable.live_eq_ok.2 ⟨hget, by rw [Petition.isDeleted, hdeleted]; rfl⟩
          rw [hp] at hlive
          cases hlive
    simp only [hgone, Bool.not_false]
  | ok p =>
    obtain ⟨hget, hdeleted⟩ := PetitionTable.live_eq_ok.1 hp
    have hhere : p.deletedAt.isNone = true := by
      rw [Petition.isDeleted] at hdeleted
      simpa using hdeleted
    simp only [hget, Option.any_some, hhere, Bool.not_true]
    cases VoteType.ofName? b.type with
    | none => rfl
    | some type =>
      cases hclosed : p.isClosedAt now with
      | true => rfl
      | false =>
        by_cases hgoal : p.goal.toInt ≤ p.tallies <;> simp [hgoal]

end Objection

/-- What a vote without objections leaves: a row for it, and a petition with one vote more. -/
structure Store.Casts (s s' : Store) (b : Ballot) (moment : Instant) (v : Vote) (p p' : Petition) :
    Prop where
  vote : v.id = b.id ∧ v.voterId = b.voter ∧ v.petitionId = b.petition ∧
    v.voteType.name = b.type ∧ v.createdAt = moment
  votes : s'.votes.rows = s.votes.rows ++ [v]
  petition : p ∈ s.petitions.rows ∧ p.id = b.petition
  petitions : s'.petitions.rows = s.petitions.rows.map fun q => if q.id = b.petition then p' else q
  counted : (p'.tally v.voteType).toInt = (p.tally v.voteType).toInt + 1
  uncounted : ∀ type, type ≠ v.voteType → p'.tally type = p.tally type
  unchanged : p' = { p with
    votesInFavor := p'.votesInFavor, votesAgainst := p'.votesAgainst, updatedAt := moment }
  available : s'.available = s.available

theorem VoteType.name_of_ofText {text : String} {type : VoteType} (h : ofText text = .ok type) :
    type.name = text := by
  unfold ofText ofName? at h
  split at h
  · rename_i htype
    cases h
    split at htype
    · rename_i hfavor
      cases htype
      exact hfavor.symm
    · split at htype
      · rename_i hagainst
        cases htype
        exact hagainst.symm
      · cases htype
  · cases h

theorem Store.casts_withVote {s : Store} (h : s.WithinGoals) {b : Ballot} {type : VoteType}
    {moment : Instant} {p : Petition} (htype : VoteType.ofText b.type = .ok type)
    (unvoted : s.votes.get? (b.voter, b.petition) = none)
    (live : s.petitions.live b.petition = .ok p) (free : p.tallies < p.goal.toInt) :
    s.Casts (s.withVote ⟨b.id, b.voter, b.petition, type, moment⟩ p moment) b moment
      ⟨b.id, b.voter, b.petition, type, moment⟩ p (p.withVote type moment) := by
  have hget := (PetitionTable.live_eq_ok.1 live).1
  have hid := Table.key_of_get? hget
  have htally (other : VoteType) := Petition.tally_withVote (h.live live) free type other moment
  constructor
  case vote => exact ⟨rfl, rfl, rfl, VoteType.name_of_ofText htype, rfl⟩
  case votes => exact Table.rows_put_of_new unvoted
  case petition => exact ⟨Table.mem_of_get? hget, hid⟩
  case petitions =>
    have hkey : s.petitions.get? (p.withVote type moment).id = some p := by
      rw [Petition.withVote_id, hid, hget]
    have hrows := Table.rows_put_of_old hkey
    rwa [Petition.withVote_id, hid] at hrows
  case counted => rw [htally, if_pos rfl]
  case uncounted =>
    intro other hother
    rw [← Int64.toInt_inj, htally, if_neg hother, Int.add_zero]
  case unchanged => cases type <;> rfl
  case available => rfl

/-- How a vote is answered and what it leaves in the store, when it is looked at at one time and
committed at another. -/
inductive Ballot.Settles (b : Ballot) (s : Store) (now moment : Instant) : Answer → Store → Prop
  | refused {o : Objection} (first : Objection.first? s b now = some o) :
    Settles b s now moment (refuse (o.error b)) s
  | written {s' : Store} {v : Vote} {p p' : Petition} (free : Objection.first? s b now = none)
    (casts : s.Casts s' b moment v p p') : Settles b s now moment (.ok (.vote v)) s'

theorem Ballot.Settles.of_objection {b : Ballot} {s s' : Store} {now moment : Instant}
    {answer : Answer} {o : Objection} (h : b.Settles s now moment answer s')
    (hfirst : Objection.first? s b now = some o) : answer = refuse (o.error b) ∧ s' = s := by
  cases h with
  | refused first =>
    obtain rfl := Option.some_inj.1 (first.symm.trans hfirst)
    exact ⟨rfl, rfl⟩
  | written free casts => exact absurd (free.symm.trans hfirst) nofun

theorem Ballot.Settles.of_free {b : Ballot} {s s' : Store} {now moment : Instant}
    {answer : Answer} (h : b.Settles s now moment answer s')
    (hfree : Objection.first? s b now = none) :
    ∃ v p p', answer = .ok (.vote v) ∧ s.Casts s' b moment v p p' := by
  cases h with
  | refused first => exact absurd (hfree.symm.trans first) nofun
  | written free casts => exact ⟨_, _, _, rfl, casts⟩

/-- Where a vote stands in the bare machine after steps at some times. A vote that is barred has not
been looked at; one that is being written has raised no objection. -/
inductive Progress (s : Store) (b : Ballot) : List Instant → Store → Call → Prop
  | checking : Progress s b [] s (.preflight b)
  | barred {x : Instant} {zs : List Instant}
      (voted : s.votes.contains (b.voter, b.petition) = true) :
      Progress s b (x :: zs) s (.done (refuse .alreadyVoted))
  | reading {x : Instant} (unvoted : s.votes.contains (b.voter, b.petition) = false) :
      Progress s b [x] s (.examine b)
  | refused {x y : Instant} {zs : List Instant} {o : Objection}
      (first : Objection.first? s b y = some o) :
      Progress s b (x :: y :: zs) s (.done (refuse (o.error b)))
  | writing {x y : Instant} {type : VoteType} (free : Objection.first? s b y = none)
      (text : VoteType.ofText b.type = .ok type) : Progress s b [x, y] s (.commit b type)
  | accepted {x y z : Instant} {zs : List Instant} {s' : Store} {v : Vote} {p p' : Petition}
      (free : Objection.first? s b y = none) (casts : s.Casts s' b z v p p') :
      Progress s b (x :: y :: z :: zs) s' (.done (.ok (.vote v)))

theorem Objection.of_first?_eq_none {s : Store} {b : Ballot} {now : Instant}
    (h : first? s b now = none) :
    s.votes.get? (b.voter, b.petition) = none ∧
      ∃ p, s.petitions.live b.petition = .ok p ∧ p.tallies < p.goal.toInt := by
  cases hvoted : s.votes.contains (b.voter, b.petition) with
  | true =>
    rw [first?_of_voted hvoted] at h
    cases h
  | false =>
    rw [first?_of_unvoted hvoted] at h
    refine ⟨?_, ?_⟩
    · rw [Table.contains] at hvoted
      exact Option.isSome_eq_false_iff.1 hvoted |> Option.isNone_iff_eq_none.1
    · cases hp : s.petitions.live b.petition with
      | error f =>
        rw [hp] at h
        cases h
      | ok p =>
        refine ⟨p, rfl, ?_⟩
        rw [hp] at h
        by_contra hfull
        simp only [not_lt.1 hfull, if_true] at h
        split at h
        · cases h
        · split at h <;> cases h

namespace Progress

variable {s s' : Store} {b : Ballot} {times : List Instant} {call : Call}

theorem of_preflight (available : s.available = true) (now : Instant) :
    Progress s b [now] ((Call.preflight b).decide s now none).1
      ((Call.preflight b).decide s now none).2 := by
  have present : s.checkAvailable = .ok () := Store.checkAvailable_eq_ok.2 available
  have hvoted : s.hasVoted b.voter b.petition = .ok (s.votes.contains (b.voter, b.petition)) := by
    rw [Store.hasVoted, present]
    rfl
  simp only [Call.decide, Option.elim_none, hvoted]
  cases h : s.votes.contains (b.voter, b.petition) with
  | true => exact .barred h
  | false => exact .reading h

theorem of_examine (h : s.WithinGoals) (available : s.available = true)
    (unvoted : s.votes.contains (b.voter, b.petition) = false) (x now : Instant) :
    Progress s b [x, now] ((Call.examine b).decide s now none).1
      ((Call.examine b).decide s now none).2 := by
  have present : s.checkAvailable = .ok () := Store.checkAvailable_eq_ok.2 available
  have hread : s.getById b.petition = s.petitions.live b.petition := by
    rw [Store.getById, present]
    rfl
  have hfirst : Objection.first? s b now = _ := Objection.first?_of_unvoted unvoted
  simp only [Call.decide, Option.elim_none, hread]
  cases hp : s.petitions.live b.petition with
  | error f =>
    rw [hp] at hfirst
    rw [PetitionTable.live_eq_error hp]
    exact .refused hfirst
  | ok p =>
    rw [hp] at hfirst
    simp only [Petition.admit_eq (h.live hp)]
    cases hname : VoteType.ofName? b.type with
    | none =>
      have htext : VoteType.ofText b.type = .error (.invalidVoteType b.type) := by
        rw [VoteType.ofText, hname]
      simp only [hname, if_true] at hfirst
      simp only [htext]
      exact .refused hfirst
    | some type =>
      have htext : VoteType.ofText b.type = .ok type := by rw [VoteType.ofText, hname]
      simp only [hname, reduceCtorEq, if_false] at hfirst
      simp only [htext]
      by_cases hclosed : p.isClosedAt now = true
      · simp only [hclosed, if_true] at hfirst ⊢
        exact .refused hfirst
      · by_cases hfull : p.goal.toInt ≤ p.tallies
        · simp only [hclosed, hfull, Bool.false_eq_true, if_true, if_false] at hfirst ⊢
          exact .refused hfirst
        · simp only [hclosed, hfull, Bool.false_eq_true, if_false] at hfirst ⊢
          exact .writing hfirst htext

theorem decide_commit (h : s.WithinGoals) (available : s.available = true) {y : Instant}
    {type : VoteType} (free : Objection.first? s b y = none)
    (text : VoteType.ofText b.type = .ok type) (now : Instant) :
    ∃ s' v p p', (Call.commit b type).decide s now none = (s', .done (.ok (.vote v))) ∧
      s.Casts s' b now v p p' := by
  obtain ⟨unvoted, p, live, room⟩ := Objection.of_first?_eq_none free
  have hwrite : s.vote ⟨b.id, b.voter, b.petition, type, now⟩ now =
      .ok (s.withVote ⟨b.id, b.voter, b.petition, type, now⟩ p now) :=
    (Store.vote_eq_ok h).2 ⟨available, unvoted, p, live, room, rfl⟩
  refine ⟨_, _, _, _, ?_, Store.casts_withVote h text unvoted live room⟩
  simp only [Call.decide, Option.elim_none, hwrite]

theorem decide (hp : Progress s b times s' call) (h : s.WithinGoals)
    (available : s.available = true) (now : Instant) :
    Progress s b (times ++ [now]) (call.decide s' now none).1 (call.decide s' now none).2 := by
  cases hp with
  | checking => exact of_preflight available now
  | barred voted => exact .barred voted
  | reading unvoted => exact of_examine h available unvoted _ now
  | refused first => exact .refused first
  | writing free text =>
    obtain ⟨s', v, p, p', hdecide, casts⟩ := decide_commit h available free text now
    rw [hdecide]
    exact .accepted free casts
  | accepted free casts => exact .accepted free casts

theorem settles (hp : Progress s b times s' call) {answer : Answer}
    (h : call.outcome? = some answer) :
    b.Settles s (times.getD 1 default) (times.getD 2 default) answer s' := by
  cases hp with
  | checking => cases h
  | reading unvoted => cases h
  | writing free text => cases h
  | barred voted =>
    cases h
    exact .refused (Objection.first?_of_voted voted)
  | refused first =>
    cases h
    exact .refused first
  | accepted free casts =>
    cases h
    exact .written free casts

theorem pending (hp : Progress s b times s' call) (h : call.outcome? = none) :
    s' = s ∧ times.length < 3 := by
  cases hp with
  | checking => exact ⟨rfl, Nat.zero_lt_succ 2⟩
  | reading unvoted => exact ⟨rfl, Nat.lt_of_sub_eq_succ rfl⟩
  | writing free text => exact ⟨rfl, Nat.lt_succ_self 2⟩
  | barred voted => cases h
  | refused first => cases h
  | accepted free casts => cases h

end Progress

theorem Service.decide_standing (s : Service) {c : Conditions} (hstore : c.store = none)
    {d : Demand} {call : Call} (hfollows : call.Follows d) (hwrite : d.isWrite = true) :
    ((s.step c call).1.store, (s.step c call).2.standing) =
      call.standing.decide s.store c.now none := by
  cases hasks : call.asks with
  | true => rw [(s.moves_step c call).decides hasks, hstore, Call.standing_of_asks hasks]
  | false =>
    obtain ⟨hsame, hplace⟩ := (s.moves_step c call).standing hfollows hasks
    rw [hsame, hplace hwrite]
    cases call with
    | settle effects reply => rfl
    | done answer => rfl
    | look q key => exact absurd (hfollows.symm.trans hwrite) Bool.false_ne_true
    | load q key => exact absurd (hfollows.symm.trans hwrite) Bool.false_ne_true
    | fill q key reply => exact absurd (hfollows.symm.trans hwrite) Bool.false_ne_true
    | _ => cases hasks

namespace Traffic

/-- Nothing but the call of one client is asked of the store, which does not fail. -/
def Event.IsLone (n : Nat) : Event → Prop
  | .advance m c => m = n ∧ c.store = none
  | .work .. | .ledger _ => True
  | .arrive .. | .switchStore _ => False

def Event.clock? : Event → Option Instant
  | .advance _ c => some c.now
  | .arrive .. | .switchStore _ | .work .. | .ledger _ => none

/-- Times at which the steps of a run are taken. -/
def clocks (events : List Event) : List Instant := events.filterMap Event.clock?

theorem clocks_concat (events : List Event) (e : Event) :
    clocks (events ++ [e]) = clocks events ++ e.clock?.toList := by
  cases he : e.clock? <;> simp [clocks, List.filterMap_append, he]

/-- A step of a client whose call does not wait. -/
def pace? (n : Nat) (t : Traffic) : Event → Option Unit
  | .advance m _ =>
    if m = n then
      t.clients[n]?.bind fun client => if client.call.waits t.service then none else some ()
    else none
  | .arrive .. | .switchStore _ | .work .. | .ledger _ => none

/-- Number of steps of a client, without those that wait for a reply of the ledger. -/
def paces (n : Nat) (t : Traffic) (events : List Event) : Nat :=
  (observed (pace? n) t events).length

/-- A vote is under way, and its steps have been taken at some times. -/
structure Underway (s : Store) (b : Ballot) (n : Nat) (times : List Instant) (call : Call)
    (t : Traffic) : Prop where
  follows : t.Follows
  client : t.clients[n]? = some ⟨.vote b, call⟩
  progress : Progress s b times t.service.store call.standing

variable {s : Store} {b : Ballot} {n : Nat} {times : List Instant} {call : Call} {t : Traffic}

theorem Underway.advance (h : Underway s b n times call t) (hwithin : s.WithinGoals)
    (available : s.available = true) {c : Conditions} (hstore : c.store = none) :
    Underway s b n (times ++ [c.now]) (t.service.step c call).2 (t.step (.advance n c)) := by
  refine ⟨h.follows.step _, client_advance h.client c, ?_⟩
  have hfollows : call.Follows (.vote b) := h.follows _ (List.mem_of_getElem? h.client)
  have hdecide := t.service.decide_standing hstore hfollows rfl
  have hprogress := h.progress.decide hwithin available c.now
  rw [← hdecide] at hprogress
  rw [step, service_advance h.client]
  exact hprogress

theorem Underway.step (h : Underway s b n times call t) (hwithin : s.WithinGoals)
    (available : s.available = true) {e : Event} (he : e.IsLone n) :
    ∃ next, Underway s b n (times ++ e.clock?.toList) next (t.step e) := by
  have hkeep {t' : Traffic} (hfollows : t'.Follows) (hclients : t'.clients = t.clients)
      (hstore : t'.service.store = t.service.store) : Underway s b n (times ++ []) call t' := by
    refine ⟨hfollows, ?_, ?_⟩
    · rw [hclients, h.client]
    · rw [hstore, List.append_nil]
      exact h.progress
  cases e with
  | advance m c =>
    obtain ⟨rfl, hstore⟩ := he
    exact ⟨_, h.advance hwithin available hstore⟩
  | work m c => exact ⟨call, hkeep (h.follows.step _) rfl (store_work ..)⟩
  | ledger action => exact ⟨call, hkeep (h.follows.step _) rfl rfl⟩
  | arrive d now => exact he.elim
  | switchStore on => exact he.elim

theorem Underway.run (h : Underway s b n [] call t) (hwithin : s.WithinGoals)
    (available : s.available = true) {events : List Event} (hlone : ∀ e ∈ events, e.IsLone n) :
    ∃ next, Underway s b n (clocks events) next (t.run events) := by
  induction events using List.reverseRecOn with
  | nil => exact ⟨call, h⟩
  | append_singleton events e ih =>
    obtain ⟨next, hnext⟩ := ih fun e he => hlone e (List.mem_append_left _ he)
    rw [run_concat, clocks_concat]
    exact hnext.step hwithin available (hlone e (by simp))

/-- A call that is not done has spent a step of its costs for each that did not wait. -/
def Spent (n total spent : Nat) (t : Traffic) : Prop :=
  ∀ client, t.clients[n]? = some client →
    client.call.isDone = true ∨ spent + client.call.cost ≤ total

theorem Spent.step {total spent : Nat} (h : Spent n total spent t) {client : Client}
    (hn : t.clients[n]? = some client) {e : Event} (he : e.IsLone n) :
    Spent n total (spent + (pace? n t e).toList.length) (t.step e) := by
  cases e with
  | advance m c =>
    obtain ⟨rfl, -⟩ := he
    intro next hnext
    obtain rfl := Option.some_inj.1 ((client_advance hn c).symm.trans hnext)
    cases hdone : client.call.isDone with
    | true =>
      left
      rw [Service.step_of_idle (by rw [hdone, Bool.true_or]), hdone]
    | false =>
      have hspent := (h client hn).resolve_left (by rw [hdone]; exact Bool.false_ne_true)
      right
      cases hwaits : client.call.waits t.service with
      | true =>
        rw [Service.step_of_idle (by rw [hwaits, Bool.or_true])]
        simpa [pace?, hn, hwaits] using hspent
      | false =>
        have hcost := (t.service.moves_step c client.call).cost hdone hwaits
        simp only [pace?, if_true, hn, Option.bind_some, hwaits, Bool.false_eq_true, if_false,
          Option.toList_some, List.length_singleton]
        omega
  | work m c => exact h
  | ledger action => exact h
  | arrive d now => exact he.elim
  | switchStore on => exact he.elim

theorem Underway.spent (h : Underway s b n [] call t) (hwithin : s.WithinGoals)
    (available : s.available = true) {total : Nat} (htotal : call.cost ≤ total)
    {events : List Event} (hlone : ∀ e ∈ events, e.IsLone n) :
    Spent n total (paces n t events) (t.run events) := by
  induction events using List.reverseRecOn with
  | nil =>
    intro client hclient
    obtain rfl := Option.some_inj.1 (h.client.symm.trans hclient)
    exact .inr ((Nat.zero_add _).trans_le htotal)
  | append_singleton events e ih =>
    have hbefore : ∀ e ∈ events, e.IsLone n := fun e he => hlone e (List.mem_append_left _ he)
    obtain ⟨next, hnext⟩ := h.run hwithin available hbefore
    rw [run_concat, paces, observed_concat, List.length_append]
    exact (ih hbefore).step hnext.client (hlone e (by simp))

theorem Underway.outcome?_eq (h : Underway s b n times call t) :
    t.outcome? n = call.standing.outcome? := by
  rw [outcome?, h.client, Option.bind_some, Call.outcome?_standing]

theorem Underway.commits {type : VoteType} (h : Underway s b n times (.commit b type) t)
    (hwithin : s.WithinGoals) (available : s.available = true) {c : Conditions}
    (hstore : c.store = none) :
    ∃ v, (t.step (.advance n c)).outcome? n = some (.ok (.vote v)) := by
  have hfollows : Call.Follows (.vote b) (.commit b type) :=
    h.follows _ (List.mem_of_getElem? h.client)
  have hdecide := t.service.decide_standing hstore hfollows rfl
  have hprogress : Progress s b times t.service.store (.commit b type) := h.progress
  generalize t.service.store = s' at hprogress hdecide
  cases hprogress with
  | writing free text =>
    obtain ⟨s', v, p, p', hcommit, -⟩ := Progress.decide_commit hwithin available free text c.now
    refine ⟨v, ?_⟩
    rw [(h.advance hwithin available hstore).outcome?_eq]
    have hplace := congrArg Prod.snd (hdecide.trans hcommit)
    exact congrArg Call.outcome? hplace

/-- What is known of a vote that is alone at the store, after some of its steps. -/
structure VoteRuled (s : Store) (b : Ballot) (n : Nat) (t : Traffic) (events : List Event) :
    Prop where
  /-- The answer and what it leaves are those of the rules, for the times of the second step and of
  the third. -/
  settles : ∀ answer, (t.run events).outcome? n = some answer →
    b.Settles s ((clocks events).getD 1 default) ((clocks events).getD 2 default) answer
      (t.run events).service.store
  /-- Until then the store is as it was. -/
  pending : (t.run events).outcome? n = none → (t.run events).service.store = s
  /-- Three steps decide. -/
  decided : 3 ≤ (clocks events).length → ((t.run events).outcome? n).isSome = true
  /-- No commit is refused. -/
  committed : ∀ before c after type, events = before ++ .advance n c :: after →
    (t.run before).clients[n]? = some ⟨.vote b, .commit b type⟩ →
    ∃ v, (t.run (before ++ [.advance n c])).outcome? n = some (.ok (.vote v))
  /-- Nine steps that need not wait end the call. -/
  returned : 9 ≤ paces n t events → ∃ answer,
    (t.run events).clients[n]? = some ⟨.vote b, .done answer⟩

theorem VoteRuled.exists_answer {events : List Event} (h : VoteRuled s b n t events)
    (hthree : 3 ≤ (clocks events).length) :
    ∃ answer, (t.run events).outcome? n = some answer ∧
      b.Settles s ((clocks events).getD 1 default) ((clocks events).getD 2 default) answer
        (t.run events).service.store := by
  obtain ⟨answer, hanswer⟩ := Option.isSome_iff_exists.1 (h.decided hthree)
  exact ⟨answer, hanswer, h.settles answer hanswer⟩

theorem Underway.ruled (h : Underway s b n [] call t) (hwithin : s.WithinGoals)
    (available : s.available = true) (hcost : call.cost ≤ 9) {events : List Event}
    (hlone : ∀ e ∈ events, e.IsLone n) : VoteRuled s b n t events := by
  obtain ⟨last, hlast⟩ := h.run hwithin available hlone
  constructor
  case settles =>
    intro answer hanswer
    rw [hlast.outcome?_eq] at hanswer
    exact hlast.progress.settles hanswer
  case pending =>
    intro hnone
    rw [hlast.outcome?_eq] at hnone
    exact (hlast.progress.pending hnone).1
  case decided =>
    intro hthree
    rw [hlast.outcome?_eq]
    cases houtcome : last.standing.outcome? with
    | none => exact absurd (hlast.progress.pending houtcome).2 (Nat.not_lt.2 hthree)
    | some answer => rfl
  case committed =>
    intro before c after type hevents hclient
    subst hevents
    have hbefore : ∀ e ∈ before, e.IsLone n := fun e he => hlone e (List.mem_append_left _ he)
    obtain ⟨place, hplace⟩ := h.run hwithin available hbefore
    obtain rfl : place = .commit b type :=
      congrArg Client.call (Option.some_inj.1 (hplace.client.symm.trans hclient))
    have hstep : Event.IsLone n (.advance n c) := hlone _ (by simp)
    rw [run_concat]
    exact hplace.commits hwithin available hstep.2
  case returned =>
    intro hnine
    have hspent := h.spent hwithin available hcost hlone _ hlast.client
    have hdone : last.isDone = true := by
      refine hspent.elim id fun hle => Call.isDone_of_cost ?_
      simp only at hle
      omega
    obtain ⟨answer, rfl⟩ := Call.isDone_iff.1 hdone
    exact ⟨answer, hlast.client⟩

/-- In every state that calls have brought about, a vote that is alone at an available store is
refused for the first objection or, without any, written. -/
theorem vote_ruled {settings : Settings} (cache : CacheConfig) (ledger : Ledger.Peer)
    (hpreflight : settings.preflight = true) (earlier : List Event)
    (havailable : ((start settings cache ledger).run earlier).service.store.available = true)
    (b : Ballot) (arrival : Instant) (events : List Event)
    (hlone : ∀ e ∈ events, e.IsLone ((start settings cache ledger).run earlier).clients.length) :
    let t₀ := (start settings cache ledger).run earlier
    VoteRuled t₀.service.store b t₀.clients.length (t₀.step (.arrive (.vote b) arrival))
      events := by
  intro t₀
  have hregular : t₀.Regular := regular_run settings cache ledger earlier
  have hfollows : t₀.Follows := follows_run settings cache ledger earlier
  have hsettings : t₀.service.settings = settings :=
    settings_run (start settings cache ledger) earlier
  have hplace : (Demand.vote b).start t₀.service arrival = .preflight b := by
    rw [Demand.start, Service.startVote, hsettings, hpreflight]
    rfl
  have hstart : Underway t₀.service.store b t₀.clients.length [] (.preflight b)
      (t₀.step (.arrive (.vote b) arrival)) := by
    refine ⟨hfollows.step _, ?_, .checking⟩
    rw [← hplace]
    exact List.getElem?_concat_length
  exact hstart.ruled hregular.withinGoals havailable (Nat.le_refl 9) hlone

/-- A petition with room for two votes is created, and one vote on it is written. -/
def halfway : List Event :=
  let tomorrow := ((Date.of? 1970 1 2).bind (Instant.of? · 0 0 0 0)).getD default
  let calm : Conditions := ⟨default, 0, 0, none, none, none, none⟩
  let petition := Uuid.ofNat 1
  [.arrive (.create ⟨.ofNat 9, "Bike lanes", "Protected lanes downtown", 2, tomorrow⟩ petition)
      default,
    .advance 0 calm, .arrive (.vote ⟨.ofNat 2, petition, "favor", .ofNat 12⟩) default,
    .advance 1 calm, .advance 1 calm, .advance 1 calm]

theorem vote_ruled_halfway :
    let t₀ := (start .standard .standard .closed).run halfway
    let second : Ballot := ⟨.ofNat 3, .ofNat 1, "against", .ofNat 13⟩
    let again : Ballot := ⟨.ofNat 2, .ofNat 1, "maybe", .ofNat 14⟩
    let events := List.replicate 9 (.advance 2 ⟨default, 0, 0, none, none, none, none⟩)
    Settings.standard.preflight = true ∧ t₀.service.store.available = true ∧
      (∀ e ∈ events, e.IsLone t₀.clients.length) ∧
      (∃ v p p',
        ((t₀.step (.arrive (.vote second) default)).run events).outcome? 2 = some (.ok (.vote v)) ∧
        t₀.service.store.Casts ((t₀.step (.arrive (.vote second) default)).run events).service.store
          second default v p p') ∧
      ((t₀.step (.arrive (.vote again) default)).run events).outcome? 2 =
        some (refuse .alreadyVoted) ∧
      ((t₀.step (.arrive (.vote again) default)).run events).service.store = t₀.service.store := by
  intro t₀ second again events
  have havailable : t₀.service.store.available = true := rfl
  have hlone : ∀ e ∈ events, e.IsLone t₀.clients.length := by
    intro e he
    obtain ⟨-, rfl⟩ := List.mem_replicate.1 he
    exact ⟨rfl, rfl⟩
  have hlength : t₀.clients.length = 2 := rfl
  have hruled (b : Ballot) :
      VoteRuled t₀.service.store b 2 (t₀.step (.arrive (.vote b) default)) events :=
    hlength ▸ vote_ruled .standard .closed rfl halfway havailable b default events hlone
  have hsecond : Objection.first? t₀.service.store second default = none := by decide +kernel
  have hagain : Objection.first? t₀.service.store again default = some .alreadyVoted := by
    decide +kernel
  have hclocks : clocks events = List.replicate 9 default := rfl
  have hthree : 3 ≤ (clocks events).length := by
    rw [hclocks]
    decide
  obtain ⟨answer, hanswer, hsettles⟩ := (hruled second).exists_answer hthree
  obtain ⟨answer', hanswer', hsettles'⟩ := (hruled again).exists_answer hthree
  have hlooked : (clocks events).getD 1 default = default := by rw [hclocks]; rfl
  have hwrote : (clocks events).getD 2 default = default := by rw [hclocks]; rfl
  rw [hlooked, hwrote] at hsettles hsettles'
  obtain ⟨v, p, p', hv, hcasts⟩ := hsettles.of_free hsecond
  obtain ⟨hrefused, hsame⟩ := hsettles'.of_objection hagain
  exact ⟨rfl, havailable, hlone, ⟨v, p, p', hanswer.trans (congrArg some hv), hcasts⟩,
    hanswer'.trans (congrArg some hrefused), hsame⟩

end Traffic

end AuditedPetitions
