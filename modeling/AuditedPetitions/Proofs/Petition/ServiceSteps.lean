import AuditedPetitions.Proofs.Petition.Moves

/-! What a step of a call does to the store, said once. A call that stands where its demand allows
either leaves the store as it is, or makes the one write it came for; every later step works on the
collaborators alone. The side effects are transparent for the store. -/

namespace AuditedPetitions

namespace Service

@[simp] theorem store_emit (s : Service) (level : AuditLevel) (message : String) :
    (s.emit level message).store = s.store := rfl

@[simp] theorem store_degrade (s : Service) (effect detail : String) :
    (s.degrade effect detail).store = s.store := rfl

@[simp] theorem store_spawn (s : Service) (task : Task) : (s.spawn task).store = s.store := rfl

@[simp] theorem store_degradeAppend (s : Service) (description : String) (e : Ledger.Error) :
    (s.degradeAppend description e).store = s.store := rfl

@[simp] theorem store_noteReply (s : Service) (description : String) (r : Ledger.Reply) :
    (s.noteReply description r).store = s.store := by cases r <;> rfl

theorem store_record (s : Service) (c : Conditions) (d : Ledger.Draft) :
    (s.record c d).1.store = s.store := by
  unfold record
  split
  · rfl
  · dsimp only
    split <;> rfl

theorem store_perform (s : Service) (c : Conditions) (e : Effect) :
    (s.perform c e).1.store = s.store := by
  cases e with
  | record d => exact store_record s c d
  | awaitSeal pending description =>
    simp only [perform]
    split <;> simp
  | dropPetition id =>
    simp only [perform]
    split <;> simp
  | findListings =>
    simp only [perform]
    split <;> simp
  | dropListings keys =>
    simp only [perform]
    split <;> simp

@[simp] theorem store_closeVote (s : Service) (voter petition : Uuid)
    (result : Outcome PetitionError Vote) :
    (s.closeVote voter petition result).1.store = s.store := by
  unfold closeVote
  split <;> rfl

theorem rejectVote_call (s : Service) (b : Ballot) (f : Failure StoreError) :
    (s.rejectVote b f).2 = .done (failed f) := by
  rw [rejectVote, closeVote_call]
  cases f <;> rfl

@[simp] theorem store_runTask (s : Service) (c : Conditions) (task : Task) :
    (s.runTask c task).store = s.store := by
  match task with
  | .index d =>
    simp only [runTask]
    split <;> rfl
  | .seal pending description =>
    simp only [runTask]
    split <;> simp

end Service

@[simp] theorem Traffic.store_work (s : Service) (n : Nat) (c : Conditions) :
    (Traffic.work s n c).store = s.store := by
  unfold work
  split <;> simp

theorem Petition.withinGoal_ofRequest {request : NewPetition} (h : 1 ≤ request.goal.toInt)
    (id : Uuid) (now : Instant) : (ofRequest request id now).WithinGoal := by
  have zero : (0 : Int64).toInt = 0 := by decide
  constructor <;> simp only [ofRequest, zero] <;> omega

namespace Call

/-- The call stands where a demand can have brought it. A vote never stands at a missing number. -/
def Serves (d : Demand) : Call → Prop
  | .create request id => d = .create request id ∧ 1 ≤ request.goal.toInt
  | .delete id => d = .delete id
  | .preflight b | .examine b | .commit b _ => d = .vote b
  | .settle _ (.vote v) | .done (.ok (.vote v)) =>
    ∃ b, d = .vote b ∧ v.voterId = b.voter ∧ v.petitionId = b.petition
  | .fill _ _ (.vote _) => False
  | .look .. | .load .. | .fill .. | .done (.error (.arithmetic _)) => ∀ b, d ≠ .vote b
  | _ => True

/-- Identifier of the petition that a call is about to write. -/
def newId? : Call → Option Uuid
  | .create _ id => some id
  | _ => none

end Call

theorem Service.startCreate_serves (request : NewPetition) (id : Uuid) (now : Instant) :
    (startCreate request id now).Serves (.create request id) := by
  unfold startCreate NewPetition.validate
  cases h : request.brokenRule? now with
  | some rule => trivial
  | none =>
    have goal : ¬ request.goal < 1 := by
      intro hg
      simp only [NewPetition.brokenRule?, hg, if_true] at h
      split at h
      · cases h
      · split at h <;> cases h
    refine ⟨rfl, ?_⟩
    rw [Int64.lt_iff_toInt_lt] at goal
    have one : (1 : Int64).toInt = 1 := by decide
    omega

theorem Demand.start_serves (d : Demand) (s : Service) (now : Instant) :
    (d.start s now).Serves d := by
  cases d with
  | create request id => exact Service.startCreate_serves request id now
  | vote b =>
    simp only [start, Service.startVote]
    split <;> rfl
  | delete id => rfl
  | get id => exact fun b => by simp
  | list limit offset =>
    simp only [start, Service.startList]
    split
    · rename_i f _
      cases f with
      | refused e => trivial
      | arithmetic fault => exact fun b => by simp
    · split <;> exact fun b => by simp

theorem Demand.start_castVote? (d : Demand) (s : Service) (now : Instant) :
    (d.start s now).castVote? = none := by
  cases d with
  | create request id =>
    simp only [start, Service.startCreate]
    split <;> rfl
  | vote b =>
    simp only [start, Service.startVote]
    split <;> rfl
  | delete id => rfl
  | get id => rfl
  | list limit offset =>
    simp only [start, Service.startList]
    split
    · rfl
    · split <;> rfl

theorem Query.decode_ne_vote (q : Query) {document : Json.Document} {v : Vote}
    (h : q.codec.decode document = some (.vote v)) : False := by
  cases q <;> simp [Query.codec] at h

theorem Query.answer_ne_vote (q : Query) {s : Store} {v : Vote}
    (h : q.answer s = .ok (.vote v)) : False := by
  have hfound := answer_eq_ok.1 h
  cases q <;> simp at hfound

/-- The one write that a call can make of the store, and where it stands then. -/
inductive StoreMove (s : Store) : Call → Store → Call → Prop
  | keep {call next : Call} (cast : next.castVote? = call.castVote?)
      (new : next.newId? = none) : StoreMove s call s next
  | create {request : NewPetition} {id : Uuid} {now : Instant} {effects : List Effect} :
      StoreMove s (.create request id) (s.seed (.ofRequest request id now))
        (.settle effects (.petition (.ofRequest request id now)))
  | delete {id : Uuid} {p : Petition} {now : Instant} {effects : List Effect}
      (live : s.petitions.live id = .ok p) :
      StoreMove s (.delete id) (s.seed (p.delete now)) (.settle effects .deleted)
  | vote {b : Ballot} {v : Vote} {p : Petition} {now : Instant} {effects : List Effect}
      (voter : v.voterId = b.voter) (petition : v.petitionId = b.petition)
      (unvoted : s.votes.get? v.voterAndPetition = none)
      (live : s.petitions.live v.petitionId = .ok p) (free : p.tallies < p.goal.toInt) :
      StoreMove s (.commit b v.voteType) (s.withVote v p now) (.settle effects (.vote v))

theorem castVote?_failed (f : Failure StoreError) :
    (Call.done (Service.failed f)).castVote? = none := by cases f <;> rfl

namespace Service

theorem map_mapRefusal (f : Failure StoreError) :
    (Outcome.mapRefusal PetitionError.ofStore (.error f) : Outcome PetitionError Vote).map .vote =
      failed f := by cases f <;> rfl

variable {s s' : Service} {c : Conditions} {d : Demand} {call next : Call}

theorem Refuses.castVote? {f : Failure StoreError} (h : s.Refuses c call f) :
    call.castVote? = none := by cases h <;> rfl

theorem Ends.castVote? {voter petition : Uuid} {result : Outcome PetitionError Vote}
    (h : s.Ends c call voter petition result) :
    (Call.done (result.map .vote)).castVote? = call.castVote? := by
  cases h with
  | unchecked answer =>
    rw [map_mapRefusal]
    exact castVote?_failed _
  | voted answer => rfl
  | unread answer =>
    rw [map_mapRefusal]
    exact castVote?_failed _
  | unfit answer admits => rfl
  | unwritten answer =>
    rw [map_mapRefusal]
    exact castVote?_failed _
  | settled => rfl

theorem Fetches.castVote? {cache : Cache Cache.ExpiringMap} (h : s.Fetches c call cache next)
    (hc : call.Serves d) : next.castVote? = call.castVote? := by
  cases h with
  | @hit q key reply found =>
    obtain ⟨text, -, ht⟩ := Cache.lookup_hit found
    obtain ⟨document, -, hd⟩ := Option.bind_eq_some_iff.1 ht
    cases reply with
    | vote v => exact (q.decode_ne_vote hd).elim
    | _ => rfl
  | miss found => rfl
  | @load q reply answer =>
    cases reply with
    | vote v => exact (q.answer_ne_vote (Conditions.atStore_eq_ok.1 answer).2).elim
    | _ => rfl
  | keep answer => rfl
  | @fill q key reply stored =>
    cases reply with
    | vote v => exact hc.elim
    | _ => rfl
  | overrun stored => rfl

theorem Fetches.newId? {cache : Cache Cache.ExpiringMap} (h : s.Fetches c call cache next) :
    next.newId? = none := by cases h <;> rfl

theorem Moves.storeMove (h : s.Moves c call s' next) (within : s.store.WithinGoals)
    (hc : call.Serves d) : StoreMove s.store call s'.store next := by
  cases h with
  | refused h => exact .keep ((castVote?_failed _).trans h.castVote?.symm) rfl
  | written h =>
    cases h with
    | create made answer =>
      subst made
      obtain ⟨-, rfl⟩ := Store.create_eq_ok.1 (Conditions.atStore_eq_ok.1 answer).2
      exact .create
    | delete answer =>
      obtain ⟨-, p, live, rfl⟩ := Store.delete_eq_ok.1 (Conditions.atStore_eq_ok.1 answer).2
      exact .delete live
    | vote made answer =>
      obtain ⟨-, unvoted, p, live, free, rfl⟩ :=
        (Store.vote_eq_ok within).1 (Conditions.atStore_eq_ok.1 answer).2
      subst made
      exact .vote rfl rfl unvoted live free
  | passed h => cases h <;> exact .keep rfl rfl
  | ended h =>
    rw [store_closeVote]
    exact .keep h.castVote? rfl
  | @performed e effects reply =>
    rw [store_perform]
    exact .keep (by cases reply <;> rfl) rfl
  | @replied reply h =>
    refine .keep ?_ rfl
    cases reply with
    | vote v => exact absurd rfl (h v)
    | _ => rfl
  | fetched h => exact .keep (h.castVote? hc) h.newId?
  | rest => exact .keep rfl rfl

theorem serves_failed {f : Failure StoreError} (h : ∃ e, f = .refused e) :
    (Call.done (failed f)).Serves d := by
  obtain ⟨e, rfl⟩ := h
  trivial

theorem Refuses.serves {f : Failure StoreError} (h : s.Refuses c call f) (hc : call.Serves d) :
    (Call.done (failed f)).Serves d := by
  cases h with
  | create answer => exact serves_failed (Conditions.atStore_refused answer Store.create_refused)
  | delete answer => exact serves_failed (Conditions.atStore_refused answer Store.delete_refused)
  | @load q key f answer =>
    cases f with
    | refused e => trivial
    | arithmetic fault => exact hc

/-- Where the tallies are within the goals, no vote ends for want of a number. -/
theorem Ends.serves {voter petition : Uuid} {result : Outcome PetitionError Vote}
    (h : s.Ends c call voter petition result) (within : s.store.WithinGoals)
    (hc : call.Serves d) : (Call.done (result.map .vote)).Serves d := by
  cases h with
  | unchecked answer =>
    rw [map_mapRefusal]
    exact serves_failed (Conditions.atStore_refused answer Store.hasVoted_refused)
  | voted answer => trivial
  | unread answer =>
    rw [map_mapRefusal]
    exact serves_failed (Conditions.atStore_refused answer Store.getById_refused)
  | unfit answer admits =>
    have live := (Store.getById_eq_ok.1 (Conditions.atStore_eq_ok.1 answer).2).2
    obtain ⟨e, rfl⟩ := Petition.admit_refused (within.live live) admits
    trivial
  | unwritten answer =>
    rw [map_mapRefusal]
    exact serves_failed (Conditions.atStore_refused answer (Store.vote_refused within))
  | settled => exact hc

theorem Fetches.serves {cache : Cache Cache.ExpiringMap} (h : s.Fetches c call cache next)
    (hc : call.Serves d) : next.Serves d := by
  have hcast := h.castVote? hc
  cases h with
  | @hit q key reply found =>
    cases reply with
    | vote v => cases hcast
    | _ => trivial
  | miss found => exact hc
  | @load q reply answer =>
    cases reply with
    | vote v => cases hcast
    | _ => trivial
  | @keep q key reply answer =>
    cases reply with
    | vote v => exact (q.answer_ne_vote (Conditions.atStore_eq_ok.1 answer).2).elim
    | _ => exact hc
  | @fill q key reply stored =>
    cases reply with
    | vote v => exact hc.elim
    | _ => trivial
  | @overrun q key reply fault stored =>
    cases reply with
    | vote v => exact hc.elim
    | _ => exact hc

theorem Moves.serves (h : s.Moves c call s' next) (within : s.store.WithinGoals)
    (hc : call.Serves d) : next.Serves d := by
  cases h with
  | refused h => exact h.serves hc
  | written h =>
    cases h with
    | @vote b type v store made answer =>
      subst made
      exact ⟨b, hc, rfl, rfl⟩
    | _ => trivial
  | passed h => cases h <;> exact hc
  | ended h => exact h.serves within hc
  | @performed e effects reply => cases reply <;> exact hc
  | @replied reply h =>
    cases reply with
    | vote v => exact absurd rfl (h v)
    | _ => trivial
  | fetched h => exact h.serves hc
  | rest => exact hc

end Service

end AuditedPetitions
