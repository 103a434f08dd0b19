import AuditedPetitions.Petition.Traffic
import AuditedPetitions.Proofs.Petition.StoreLaws

/-! What a step of a call can do, said once. The store refuses a call or takes its write, a vote passes
a check or ends, an effect is performed, a read goes on. Whatever else is known of steps is read off
these moves. -/

namespace AuditedPetitions

theorem Conditions.atStore_eq_ok {α : Type} {c : Conditions} {answer : Outcome StoreError α}
    {a : α} : c.atStore answer = .ok a ↔ c.store = none ∧ answer = .ok a := by
  unfold atStore
  cases c.store <;> simp [refuse]

theorem Conditions.atStore_refused {α : Type} {c : Conditions} {answer : Outcome StoreError α}
    {f : Failure StoreError} (h : c.atStore answer = .error f)
    (hr : answer = .error f → ∃ e, f = .refused e) : ∃ e, f = .refused e := by
  unfold atStore at h
  split at h
  · cases h
    exact ⟨_, rfl⟩
  · exact hr h

namespace Service

/-- The store does not do what a call other than a vote asks of it. -/
inductive Refuses (s : Service) (c : Conditions) : Call → Failure StoreError → Prop
  | create {request : NewPetition} {id : Uuid} {f : Failure StoreError}
      (answer : c.atStore (s.store.create (.ofRequest request id c.now)) = .error f) :
      Refuses s c (.create request id) f
  | delete {id : Uuid} {f : Failure StoreError}
      (answer : c.atStore (s.store.delete id c.now) = .error f) : Refuses s c (.delete id) f
  | load {q : Query} {key : Option String} {f : Failure StoreError}
      (answer : c.atStore (q.answer s.store) = .error f) : Refuses s c (.load q key) f

/-- The store takes the write of a call; the effects that follow, and the reply. -/
inductive Takes (s : Service) (c : Conditions) : Call → Service → List Effect → Reply → Prop
  | create {request : NewPetition} {id : Uuid} {p : Petition} {store : Store}
      (made : p = .ofRequest request id c.now) (answer : c.atStore (s.store.create p) = .ok store) :
      Takes s c (.create request id)
        ({ s with store := store }.emit .info
            ("petition " ++ p.id.text ++ " created by " ++ p.ownerId.text)
          |>.spawn (.index p.searchDocument))
        [.findListings, .record p.draft] (.petition p)
  | delete {id : Uuid} {store : Store} (answer : c.atStore (s.store.delete id c.now) = .ok store) :
      Takes s c (.delete id)
        ({ s with store := store }.emit .info ("petition " ++ id.text ++ " deleted"))
        [.dropPetition id, .findListings] .deleted
  | vote {b : Ballot} {type : VoteType} {v : Vote} {store : Store}
      (made : v = ⟨b.id, b.voter, b.petition, type, c.now⟩)
      (answer : c.atStore (s.store.vote v c.now) = .ok store) :
      Takes s c (.commit b type) { s with store := store }
        [.record v.draft, .dropPetition v.petitionId, .findListings] (.vote v)

/-- A vote passes a check. -/
inductive Passes (s : Service) (c : Conditions) : Call → Call → Prop
  | preflight {b : Ballot} (answer : c.atStore (s.store.hasVoted b.voter b.petition) = .ok false) :
      Passes s c (.preflight b) (.examine b)
  | examine {b : Ballot} {p : Petition} {type : VoteType}
      (answer : c.atStore (s.store.getById b.petition) = .ok p)
      (admits : p.admit b.type c.now = .ok type) : Passes s c (.examine b) (.commit b type)

/-- A vote ends with a result, of which the voter and the petition are told. -/
inductive Ends (s : Service) (c : Conditions) :
    Call → Uuid → Uuid → Outcome PetitionError Vote → Prop
  | unchecked {b : Ballot} {f : Failure StoreError}
      (answer : c.atStore (s.store.hasVoted b.voter b.petition) = .error f) :
      Ends s c (.preflight b) b.voter b.petition (Outcome.mapRefusal PetitionError.ofStore (.error f))
  | voted {b : Ballot} (answer : c.atStore (s.store.hasVoted b.voter b.petition) = .ok true) :
      Ends s c (.preflight b) b.voter b.petition (refuse .alreadyVoted)
  | unread {b : Ballot} {f : Failure StoreError}
      (answer : c.atStore (s.store.getById b.petition) = .error f) :
      Ends s c (.examine b) b.voter b.petition (Outcome.mapRefusal PetitionError.ofStore (.error f))
  | unfit {b : Ballot} {p : Petition} {f : Failure PetitionError}
      (answer : c.atStore (s.store.getById b.petition) = .ok p)
      (admits : p.admit b.type c.now = .error f) :
      Ends s c (.examine b) b.voter b.petition (.error f)
  | unwritten {b : Ballot} {type : VoteType} {f : Failure StoreError}
      (answer : c.atStore
        (s.store.vote ⟨b.id, b.voter, b.petition, type, c.now⟩ c.now) = .error f) :
      Ends s c (.commit b type) b.voter b.petition
        (Outcome.mapRefusal PetitionError.ofStore (.error f))
  | settled {v : Vote} : Ends s c (.settle [] (.vote v)) v.voterId v.petitionId (.ok v)

/-- The cache after a value has been put under the key of a read. -/
abbrev stored (s : Service) (c : Conditions) (q : Query) (key : String) (reply : Reply) :
    Except ArithmeticFault Unit × Cache Cache.ExpiringMap :=
  s.cache.fill c.backend q.codec key reply (Cache.seconds (q.ttl s.cacheConfig c.draw))

/-- A read goes on, or ends with a reply or for want of a number; the cache after it. -/
inductive Fetches (s : Service) (c : Conditions) :
    Call → Cache Cache.ExpiringMap → Call → Prop
  | hit {q : Query} {key : String} {reply : Reply}
      (found : (s.cache.lookup c.backend q.codec key).1 = .hit reply) :
      Fetches s c (.look q key) (s.cache.lookup c.backend q.codec key).2 (.done (.ok reply))
  | miss {q : Query} {key : String}
      (found : ∀ reply, (s.cache.lookup c.backend q.codec key).1 ≠ .hit reply) :
      Fetches s c (.look q key) (s.cache.lookup c.backend q.codec key).2 (.load q (some key))
  | load {q : Query} {reply : Reply} (answer : c.atStore (q.answer s.store) = .ok reply) :
      Fetches s c (.load q none) s.cache (.done (.ok reply))
  | keep {q : Query} {key : String} {reply : Reply}
      (answer : c.atStore (q.answer s.store) = .ok reply) :
      Fetches s c (.load q (some key)) s.cache (.fill q key reply)
  | fill {q : Query} {key : String} {reply : Reply} (stored : (s.stored c q key reply).1 = .ok ()) :
      Fetches s c (.fill q key reply) (s.stored c q key reply).2 (.done (.ok reply))
  | overrun {q : Query} {key : String} {reply : Reply} {fault : ArithmeticFault}
      (stored : (s.stored c q key reply).1 = .error fault) :
      Fetches s c (.fill q key reply) (s.stored c q key reply).2
        (.done (.error (.arithmetic fault)))

/-- What a step of a call does to the service, and where the call stands then. -/
inductive Moves (s : Service) (c : Conditions) : Call → Service → Call → Prop
  | refused {call : Call} {f : Failure StoreError} (h : s.Refuses c call f) :
      Moves s c call s (.done (failed f))
  | written {call : Call} {s' : Service} {effects : List Effect} {reply : Reply}
      (h : s.Takes c call s' effects reply) : Moves s c call s' (.settle effects reply)
  | passed {call next : Call} (h : s.Passes c call next) : Moves s c call s next
  | ended {call : Call} {voter petition : Uuid} {result : Outcome PetitionError Vote}
      (h : s.Ends c call voter petition result) :
      Moves s c call (s.closeVote voter petition result).1 (.done (result.map .vote))
  | performed {e : Effect} {effects : List Effect} {reply : Reply} :
      Moves s c (.settle (e :: effects) reply) (s.perform c e).1
        (.settle ((s.perform c e).2 ++ effects) reply)
  | replied {reply : Reply} (h : ∀ v, reply ≠ .vote v) :
      Moves s c (.settle [] reply) s (.done (.ok reply))
  | fetched {call next : Call} {cache : Cache Cache.ExpiringMap} (h : s.Fetches c call cache next) :
      Moves s c call { s with cache := cache } next
  | rest {answer : Answer} : Moves s c (.done answer) s (.done answer)

theorem closeVote_call (s : Service) (voter petition : Uuid)
    (result : Outcome PetitionError Vote) :
    (s.closeVote voter petition result).2 = .done (result.map .vote) := by
  unfold closeVote
  split <;> rfl

theorem moves_closeVote {s : Service} {c : Conditions} {call : Call} {voter petition : Uuid}
    {result : Outcome PetitionError Vote} (h : s.Ends c call voter petition result) :
    s.Moves c call (s.closeVote voter petition result).1 (s.closeVote voter petition result).2 := by
  rw [closeVote_call]
  exact .ended h

theorem moves_step (s : Service) (c : Conditions) (call : Call) :
    s.Moves c call (s.step c call).1 (s.step c call).2 := by
  cases call with
  | create request id =>
    simp only [step]
    split
    · exact .refused (.create ‹_›)
    · exact .written (.create rfl ‹_›)
  | delete id =>
    simp only [step]
    split
    · exact .refused (.delete ‹_›)
    · exact .written (.delete ‹_›)
  | preflight b =>
    simp only [step]
    split
    · exact moves_closeVote (.unchecked ‹_›)
    · exact moves_closeVote (.voted ‹_›)
    · exact .passed (.preflight ‹_›)
  | examine b =>
    simp only [step]
    split
    · exact moves_closeVote (.unread ‹_›)
    · split
      · exact moves_closeVote (.unfit ‹_› ‹_›)
      · exact .passed (.examine ‹_› ‹_›)
  | commit b type =>
    simp only [step]
    split
    · exact moves_closeVote (.unwritten ‹_›)
    · exact .written (.vote rfl ‹_›)
  | settle effects reply =>
    cases effects with
    | nil =>
      cases reply with
      | vote v => exact moves_closeVote .settled
      | petition p => exact .replied fun v h => by cases h
      | deleted => exact .replied fun v h => by cases h
      | listing ps => exact .replied fun v h => by cases h
    | cons e effects => exact .performed
  | look q key =>
    simp only [step]
    split
    · rename_i reply cache hl
      obtain rfl : (s.cache.lookup c.backend q.codec key).2 = cache := by rw [hl]
      exact .fetched (.hit (by rw [hl]))
    · rename_i found cache hnone hl
      obtain rfl : (s.cache.lookup c.backend q.codec key).2 = cache := by rw [hl]
      refine .fetched (.miss fun reply hhit => ?_)
      rw [hl] at hhit
      exact hnone reply hhit
  | load q key =>
    simp only [step]
    split
    · exact .refused (.load ‹_›)
    · exact .fetched (.load ‹_›)
    · exact .fetched (.keep ‹_›)
  | fill q key reply =>
    simp only [step]
    split
    · rename_i cache hf
      obtain rfl : (s.stored c q key reply).2 = cache := congrArg Prod.snd hf
      exact .fetched (.fill (congrArg Prod.fst hf))
    · rename_i fault cache hf
      obtain rfl : (s.stored c q key reply).2 = cache := congrArg Prod.snd hf
      exact .fetched (.overrun (congrArg Prod.fst hf))
  | done answer => exact .rest

end Service

end AuditedPetitions
