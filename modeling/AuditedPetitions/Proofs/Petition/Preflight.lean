import AuditedPetitions.Proofs.Petition.Duties

/-! The check ahead of a vote only saves reads. Two services that differ in nothing but this check
are driven by the same events, less the steps of the check; at every moment they have the same
store, ledger, cache and tasks. Their calls stand at the same place, except for votes that the check
has turned away: these are still on their way to a refusal in the other service, because the row that
gave them away is never removed. -/

namespace AuditedPetitions

/-- Votes are never taken back, and the store stays as it is switched. -/
structure Store.Grows (s s' : Store) : Prop where
  votes : ∀ key, s.votes.contains key = true → s'.votes.contains key = true
  available : s'.available = s.available

theorem Store.Grows.refl (s : Store) : s.Grows s := ⟨fun _ h => h, rfl⟩

theorem Store.grows_vote {s s' : Store} {v : Vote} {now : Instant} (h : s.vote v now = .ok s') :
    s.Grows s' := by
  obtain ⟨-, -, h⟩ := Outcome.bind_eq_ok.1 h
  split at h
  · cases h
  · split at h
    · obtain ⟨staging, -, h⟩ := Outcome.bind_eq_ok.1 h
      cases h
      refine ⟨fun key hkey => ?_, rfl⟩
      rw [Table.contains] at hkey ⊢
      rw [Table.get?_put]
      split
      · rfl
      · exact hkey
    · cases h

theorem Store.vote_ne_ok {s : Store} {v : Vote} (h : s.votes.contains v.voterAndPetition = true)
    (now : Instant) (s' : Store) : s.vote v now ≠ .ok s' := by
  intro hvote
  obtain ⟨-, -, hvote⟩ := Outcome.bind_eq_ok.1 hvote
  rw [if_pos h] at hvote
  cases hvote

theorem Service.Moves.grows {s s' : Service} {c : Conditions} {call next : Call}
    (h : s.Moves c call s' next) : s.store.Grows s'.store := by
  cases h with
  | written h =>
    cases h with
    | create made answer =>
      obtain ⟨-, rfl⟩ := Store.create_eq_ok.1 (Conditions.atStore_eq_ok.1 answer).2
      exact ⟨fun _ h => h, rfl⟩
    | delete answer =>
      obtain ⟨-, p, -, rfl⟩ := Store.delete_eq_ok.1 (Conditions.atStore_eq_ok.1 answer).2
      exact ⟨fun _ h => h, rfl⟩
    | vote made answer => exact Store.grows_vote (Conditions.atStore_eq_ok.1 answer).2
  | ended h =>
    rw [store_closeVote]
    exact .refl _
  | performed =>
    rw [store_perform]
    exact .refl _
  | refused | passed | replied | fetched | rest => exact .refl _

namespace Service

/-- The service without its setting of the check, and without what it tells of votes. -/
def core (s : Service) : Service :=
  { s with settings.preflight := false, audit := [], metrics.votes := [] }

variable (s : Service)

@[simp] theorem core_store : s.core.store = s.store := rfl

@[simp] theorem core_cache : s.core.cache = s.cache := rfl

@[simp] theorem core_cacheConfig : s.core.cacheConfig = s.cacheConfig := rfl

@[simp] theorem core_ledger : s.core.ledger = s.ledger := rfl

@[simp] theorem core_appendMode : s.core.settings.appendMode = s.settings.appendMode := rfl

theorem core_closeVote (voter petition : Uuid) (result : Outcome PetitionError Vote) :
    (s.closeVote voter petition result).1.core = s.core := by
  unfold closeVote
  split <;> rfl

theorem core_noteReply (description : String) (r : Ledger.Reply) :
    (s.noteReply description r).core = (s.core.noteReply description r).core := by
  cases r <;> rfl

theorem core_perform (c : Conditions) (e : Effect) :
    (s.perform c e).1.core = (s.core.perform c e).1.core ∧
      (s.perform c e).2 = (s.core.perform c e).2 := by
  cases e with
  | record d =>
    simp only [perform, record, core_ledger, core_appendMode]
    cases c.ledger.elim (s.ledger.submit (d.stamp c.now)) .error with
    | error e => exact ⟨rfl, rfl⟩
    | ok submitted => cases s.settings.appendMode <;> exact ⟨rfl, rfl⟩
  | awaitSeal pending description =>
    simp only [perform, core_ledger]
    split
    · exact ⟨rfl, rfl⟩
    · exact ⟨s.core_noteReply .., rfl⟩
  | dropPetition id =>
    simp only [perform, core_cache]
    split <;> exact ⟨rfl, rfl⟩
  | findListings =>
    simp only [perform, core_cache]
    split <;> exact ⟨rfl, rfl⟩
  | dropListings keys =>
    simp only [perform, core_cache]
    split <;> exact ⟨rfl, rfl⟩

theorem core_step (c : Conditions) (call : Call) :
    (s.step c call).1.core = (s.core.step c call).1.core ∧
      (s.step c call).2 = (s.core.step c call).2 := by
  have hclose (voter petition : Uuid) (result : Outcome PetitionError Vote) :
      (s.closeVote voter petition result).1.core =
          (s.core.closeVote voter petition result).1.core ∧
        (s.closeVote voter petition result).2 = (s.core.closeVote voter petition result).2 := by
    rw [core_closeVote, core_closeVote, closeVote_call, closeVote_call]
    exact ⟨rfl, rfl⟩
  cases call with
  | create request id =>
    simp only [step, core_store]
    split <;> exact ⟨rfl, rfl⟩
  | delete id =>
    simp only [step, core_store]
    split <;> exact ⟨rfl, rfl⟩
  | preflight b =>
    simp only [step, core_store]
    split
    · exact hclose ..
    · exact hclose ..
    · exact ⟨rfl, rfl⟩
  | examine b =>
    simp only [step, core_store]
    split
    · exact hclose ..
    · split
      · exact hclose ..
      · exact ⟨rfl, rfl⟩
  | commit b type =>
    simp only [step, core_store]
    split
    · exact hclose ..
    · exact ⟨rfl, rfl⟩
  | settle effects reply =>
    cases effects with
    | nil =>
      cases reply with
      | vote v => exact hclose ..
      | _ => exact ⟨rfl, rfl⟩
    | cons e effects =>
      obtain ⟨hservice, hmore⟩ := s.core_perform c e
      simp only [step]
      rw [hmore]
      exact ⟨hservice, rfl⟩
  | look q key =>
    simp only [step, core_cache]
    split <;> exact ⟨rfl, rfl⟩
  | load q key =>
    simp only [step, core_store]
    split <;> exact ⟨rfl, rfl⟩
  | fill q key reply =>
    simp only [step, core_cache, core_cacheConfig]
    split <;> exact ⟨rfl, rfl⟩
  | done answer => exact ⟨rfl, rfl⟩

theorem core_runTask (c : Conditions) (task : Task) :
    (s.runTask c task).core = (s.core.runTask c task).core := by
  match task with
  | .index d =>
    simp only [runTask]
    split <;> rfl
  | .seal pending description =>
    simp only [runTask, core_ledger]
    split
    · rfl
    · exact s.core_noteReply ..

end Service

namespace Call

def isPreflight : Call → Bool
  | .preflight _ => true
  | _ => false

def isExamine : Call → Bool
  | .examine _ => true
  | _ => false

/-- Where a vote stands that can only be refused. -/
def Loses (b : Ballot) : Call → Prop
  | .examine b' | .commit b' _ => b' = b
  | .done (.error _) => True
  | _ => False

theorem loses_failed (b : Ballot) (f : Failure StoreError) :
    (Call.done (Service.failed f)).Loses b := by cases f <;> trivial

/-- A vote that stands in the store already is refused, at this step or at a later one. -/
theorem Loses.step {s : Service} {b : Ballot} {call : Call} (h : call.Loses b)
    (voted : s.store.votes.contains (b.voter, b.petition) = true) (c : Conditions) :
    (s.step c call).1.core = s.core ∧ (s.step c call).2.Loses b := by
  cases call with
  | examine b' =>
    obtain rfl : b' = b := h
    simp only [Service.step]
    split
    · rw [Service.rejectVote_call]
      exact ⟨s.core_closeVote .., loses_failed ..⟩
    · split
      · rw [Service.closeVote_call]
        exact ⟨s.core_closeVote .., trivial⟩
      · exact ⟨rfl, rfl⟩
  | commit b' type =>
    obtain rfl : b' = b := h
    simp only [Service.step]
    split
    · rw [Service.rejectVote_call]
      exact ⟨s.core_closeVote .., loses_failed ..⟩
    · rename_i store hs
      exact absurd (Conditions.atStore_eq_ok.1 hs).2 (Store.vote_ne_ok voted _ _)
  | done answer => exact ⟨rfl, h⟩
  | _ => exact h.elim

end Call

theorem Service.Moves.isPreflight {s s' : Service} {c : Conditions} {call next : Call}
    (h : s.Moves c call s' next) : next.isPreflight = false := by
  cases h with
  | passed h => cases h <;> rfl
  | fetched h => cases h <;> rfl
  | _ => rfl

/-- How a client stands in the service with the check and in the one without. -/
inductive Client.Twins (s : Store) : Client → Client → Prop
  | same {c : Client} (past : c.call.isPreflight = false) : Twins s c c
  | checking {b : Ballot} : Twins s ⟨.vote b, .preflight b⟩ ⟨.vote b, .examine b⟩
  | turnedAway {b : Ballot} {call : Call}
      (voted : s.votes.contains (b.voter, b.petition) = true) (loses : call.Loses b) :
      Twins s ⟨.vote b, .done (refuse .alreadyVoted)⟩ ⟨.vote b, call⟩
  | shut {b : Ballot} {f : Failure StoreError} (unavailable : s.checkAvailable = .error f) :
      Twins s ⟨.vote b, .done (Service.failed f)⟩ ⟨.vote b, .examine b⟩

namespace Client.Twins

variable {s s' : Store} {c c' : Client}

theorem grows (h : Twins s c c') (hgrows : s.Grows s') : Twins s' c c' := by
  cases h with
  | same past => exact .same past
  | checking => exact .checking
  | turnedAway voted loses => exact .turnedAway (hgrows.votes _ voted) loses
  | shut unavailable =>
    refine .shut ?_
    rw [Store.checkAvailable, hgrows.available]
    exact unavailable

theorem demand_eq (h : Twins s c c') : c'.demand = c.demand := by cases h <;> rfl

theorem switch (h : Twins s c c') (hcall : c'.call.isExamine = false) (available : Bool) :
    Twins { s with available := available } c c' := by
  cases h with
  | same past => exact .same past
  | turnedAway voted loses => exact .turnedAway voted loses
  | checking => cases hcall
  | shut unavailable => cases hcall

theorem accepted_iff (h : Twins s c c') (reply : Reply) :
    c.call = .done (.ok reply) ↔ c'.call = .done (.ok reply) := by
  cases h with
  | same past => rfl
  | checking => simp
  | @turnedAway b call voted loses =>
    refine ⟨fun h => (nomatch h), fun h => ?_⟩
    obtain rfl : call = .done (.ok reply) := h
    exact loses.elim
  | @shut b f unavailable => cases f <;> simp [Service.failed, Outcome.mapRefusal]

theorem refused (h : Twins s c c') {f f' : Failure PetitionError} (hf : c.call = .done (.error f))
    (hf' : c'.call = .done (.error f')) (hne : f ≠ f') :
    f = .refused .alreadyVoted ∧
      ∃ b, c.demand = .vote b ∧ s.votes.contains (b.voter, b.petition) = true := by
  cases h with
  | same past =>
    cases hf.symm.trans hf'
    exact absurd rfl hne
  | checking => cases hf
  | turnedAway voted loses =>
    cases hf
    exact ⟨rfl, _, rfl, voted⟩
  | shut unavailable => cases hf'

end Client.Twins

namespace Service

theorem twins_preflight (s : Service) (b : Ballot) {k : Conditions} (hk : k.store = none) :
    (s.step k (.preflight b)).1.core = s.core ∧
      Client.Twins s.store ⟨.vote b, (s.step k (.preflight b)).2⟩ ⟨.vote b, .examine b⟩ := by
  simp only [step, Conditions.atStore, hk]
  split
  · rename_i f hf
    rw [rejectVote_call]
    refine ⟨s.core_closeVote .., .shut ?_⟩
    rcases Outcome.bind_eq_error.1 hf with hf | ⟨_, -, hf⟩
    · exact hf
    · cases hf
  · rename_i hvoted
    rw [closeVote_call]
    obtain ⟨-, -, hvoted⟩ := Outcome.bind_eq_ok.1 hvoted
    exact ⟨s.core_closeVote .., .turnedAway (Except.ok.inj hvoted) rfl⟩
  · exact ⟨rfl, .same rfl⟩

theorem examine_of_unavailable {s : Service} {f : Failure StoreError}
    (unavailable : s.store.checkAvailable = .error f) (b : Ballot) {k : Conditions}
    (hk : k.store = none) :
    (s.step k (.examine b)).1.core = s.core ∧ (s.step k (.examine b)).2 = .done (failed f) := by
  have hread : s.store.getById b.petition = .error f := Outcome.bind_eq_error.2 (.inl unavailable)
  simp only [step, Conditions.atStore, hk, hread]
  exact ⟨s.core_closeVote .., rejectVote_call ..⟩

end Service

theorem forall₂_set {α β : Type} {R : α → β → Prop} {as : List α} {bs : List β}
    (h : List.Forall₂ R as bs) {a : α} {b : β} (hab : R a b) (n : Nat) :
    List.Forall₂ R (as.set n a) (bs.set n b) := by
  induction h generalizing n with
  | nil => exact .nil
  | cons head tail ih =>
    cases n with
    | zero => exact .cons hab tail
    | succ n => exact .cons head (ih n)

theorem forall₂_getElem? {α β : Type} {R : α → β → Prop} {as : List α} {bs : List β}
    (h : List.Forall₂ R as bs) {n : Nat} {a : α} (ha : as[n]? = some a) :
    ∃ b, bs[n]? = some b ∧ R a b := by
  obtain ⟨hn, rfl⟩ := List.getElem?_eq_some_iff.1 ha
  have hlength := h.length_eq
  exact ⟨bs[n], List.getElem?_eq_getElem _, h.get hn (hlength ▸ hn)⟩

namespace Traffic

/-- The event as the service without the check meets it: it has no steps of the check. -/
def unchecked? (t : Traffic) : Event → Option Event
  | .advance n c => if t.clients[n]?.any (·.call.isPreflight) then none else some (.advance n c)
  | e => some e

/-- Events of a run without the steps of the check. -/
def unchecked (t : Traffic) (events : List Event) : List Event := observed unchecked? t events

/-- The store answers a vote that is about to read its petition, and is not switched meanwhile. -/
def Steady (u : Traffic) : Event → Prop
  | .advance n c => u.clients[n]?.any (·.call.isExamine) = true → c.store = none
  | .switchStore _ => ∀ client ∈ u.clients, client.call.isExamine = false
  | .arrive .. | .work .. | .ledger _ => True

instance (u : Traffic) : ∀ e, Decidable (Steady u e)
  | .advance n c =>
    inferInstanceAs (Decidable (u.clients[n]?.any (·.call.isExamine) = true → c.store = none))
  | .switchStore _ =>
    inferInstanceAs (Decidable (∀ client ∈ u.clients, client.call.isExamine = false))
  | .arrive .. | .work .. | .ledger _ => .isTrue trivial

/-- The service without the check is steady from event to event, while the other takes them all. -/
def SteadyRun : Traffic → Traffic → List Event → Prop
  | _, _, [] => True
  | t, u, e :: events => Steady u e ∧ SteadyRun (t.step e) (u.run (unchecked? t e).toList) events

instance decidableSteadyRun : ∀ t u events, Decidable (SteadyRun t u events)
  | _, _, [] => .isTrue trivial
  | t, u, e :: events =>
    have := decidableSteadyRun (t.step e) (u.run (unchecked? t e).toList) events
    inferInstanceAs (Decidable (Steady u e ∧ _))

/-- Failure of the store in a step, other than by being switched off. -/
def Event.fault? : Event → Option StoreError
  | .advance _ c => c.store
  | _ => none

/-- A call comes, and the store is switched, when all earlier calls are over. -/
def BetweenCalls (u : Traffic) : Event → Prop
  | .arrive .. | .switchStore _ => ∀ client ∈ u.clients, client.call.isDone = true
  | .advance .. | .work .. | .ledger _ => True

instance (u : Traffic) : ∀ e, Decidable (BetweenCalls u e)
  | .arrive .. | .switchStore _ =>
    inferInstanceAs (Decidable (∀ client ∈ u.clients, client.call.isDone = true))
  | .advance .. | .work .. | .ledger _ => .isTrue trivial

/-- Calls that follow each other are steady, whenever the store is switched between them. -/
theorem steadyRun_of_calls {t u : Traffic} {events : List Event}
    (sound : ∀ e ∈ events, e.fault? = none)
    (turns : Along BetweenCalls u (unchecked t events)) : SteadyRun t u events := by
  induction events generalizing t u with
  | nil => trivial
  | cons e events ih =>
    rw [unchecked, observed, along_append] at turns
    obtain ⟨hturn, hturns⟩ := turns
    refine ⟨?_, ih (fun e he => sound e (List.mem_cons_of_mem _ he)) hturns⟩
    cases e with
    | advance n c => exact fun _ => sound _ List.mem_cons_self
    | switchStore available =>
      intro client hclient
      obtain ⟨answer, hcall⟩ := Call.isDone_iff.1 (hturn.1 client hclient)
      rw [hcall]
      rfl
    | _ => trivial

theorem core_work (s : Service) (n : Nat) (c : Conditions) :
    (work s n c).core = (work s.core n c).core := by
  have hbackground : s.core.background = s.background := rfl
  unfold work
  rw [hbackground]
  split
  · rfl
  · exact Service.core_runTask ..

/-- How the service with the check and the one without stand to each other. -/
structure Lockstep (t u : Traffic) : Prop where
  checks : t.service.settings.preflight = true
  skips : u.service.settings.preflight = false
  core : t.service.core = u.service.core
  clients : List.Forall₂ (Client.Twins t.service.store) t.clients u.clients

namespace Lockstep

variable {t u : Traffic}

theorem store_eq (h : Lockstep t u) : t.service.store = u.service.store :=
  (congrArg Service.store h.core :)

theorem arrive (h : Lockstep t u) (d : Demand) (now : Instant) :
    Lockstep (t.step (.arrive d now)) (u.step (.arrive d now)) := by
  refine ⟨h.checks, h.skips, h.core, List.rel_append h.clients (.cons ?_ .nil)⟩
  cases d with
  | vote b =>
    simp only [Demand.start, Service.startVote, h.checks, h.skips]
    exact .checking
  | create request id =>
    refine .same ?_
    simp only [Demand.start, Service.startCreate]
    split <;> rfl
  | list limit offset =>
    have hstart : t.service.startList limit offset = u.service.startList limit offset := by
      have hsettings : t.service.settings.pagination = u.service.settings.pagination :=
        (congrArg (fun s : Service => s.settings.pagination) h.core :)
      rw [Service.startList, hsettings, Service.startList]
    simp only [Demand.start, ← hstart]
    refine .same ?_
    simp only [Service.startList]
    split
    · rfl
    · split <;> rfl
  | delete id => exact .same rfl
  | get id => exact .same rfl

theorem move (h : Lockstep t u) {s s' : Service} {c c' : Client}
    (hsettings : s.settings = t.service.settings) (hsettings' : s'.settings = u.service.settings)
    (hcore : s.core = s'.core) (hgrows : t.service.store.Grows s.store)
    (htwins : c.Twins s.store c') (n : Nat) :
    Lockstep ⟨s, t.clients.set n c⟩ ⟨s', u.clients.set n c'⟩ where
  checks := (congrArg Settings.preflight hsettings).trans h.checks
  skips := (congrArg Settings.preflight hsettings').trans h.skips
  core := hcore
  clients := forall₂_set (h.clients.imp fun _ _ hold => hold.grows hgrows) htwins n

theorem set_found {n : Nat} {c : Client} (hc : t.clients[n]? = some c) :
    (⟨t.service, t.clients.set n c⟩ : Traffic) = t := by
  obtain ⟨hn, rfl⟩ := List.getElem?_eq_some_iff.1 hc
  rw [List.set_getElem_self]

theorem together (h : Lockstep t u) {n : Nat} {c : Client} (hc : t.clients[n]? = some c)
    (hc' : u.clients[n]? = some c) (past : c.call.isPreflight = false) (k : Conditions) :
    Lockstep (t.step (.advance n k)) (u.run (unchecked? t (.advance n k)).toList) := by
  have hmoves := t.service.moves_step k c.call
  obtain ⟨hservice, hcall⟩ := t.service.core_step k c.call
  obtain ⟨hservice', hcall'⟩ := u.service.core_step k c.call
  rw [← h.core] at hservice' hcall'
  have htwins : Client.Twins (t.service.step k c.call).1.store
      ⟨c.demand, (t.service.step k c.call).2⟩ ⟨c.demand, (t.service.step k c.call).2⟩ :=
    .same hmoves.isPreflight
  have hmove := h.move hmoves.settings (u.service.moves_step k c.call).settings
    (hservice.trans hservice'.symm) hmoves.grows htwins n
  simp only [unchecked?, hc, Option.any_some, past]
  change Lockstep (t.advance n k) (u.advance n k)
  rw [advance_of_found hc, advance_of_found hc', hcall'.trans hcall.symm]
  exact hmove

theorem check (h : Lockstep t u) {n : Nat} {b : Ballot}
    (hc : t.clients[n]? = some ⟨.vote b, .preflight b⟩)
    (hc' : u.clients[n]? = some ⟨.vote b, .examine b⟩) {k : Conditions} (hk : k.store = none) :
    Lockstep (t.advance n k) u := by
  obtain ⟨hcore, htwins⟩ := t.service.twins_preflight b hk
  have hmoves := t.service.moves_step k (.preflight b)
  rw [advance_of_found hc, ← set_found hc']
  exact h.move hmoves.settings rfl (hcore.trans h.core) hmoves.grows (htwins.grows hmoves.grows) n

theorem lag (h : Lockstep t u) {n : Nat} {c c' : Client} (hc : t.clients[n]? = some c)
    (hdone : c.call.isDone = true) (hc' : u.clients[n]? = some c') {k : Conditions}
    (hcore : (u.service.step k c'.call).1.core = u.service.core)
    (htwins : c.Twins t.service.store ⟨c'.demand, (u.service.step k c'.call).2⟩) :
    Lockstep (t.step (.advance n k)) (u.run (unchecked? t (.advance n k)).toList) := by
  have hpast : c.call.isPreflight = false := by
    obtain ⟨answer, hcall⟩ := Call.isDone_iff.1 hdone
    rw [hcall]
    rfl
  simp only [unchecked?, hc, Option.any_some, hpast]
  change Lockstep (t.advance n k) (u.advance n k)
  rw [advance_of_isDone hc hdone, advance_of_found hc', ← set_found hc]
  exact h.move rfl (u.service.moves_step ..).settings (h.core.trans hcore.symm) (.refl _) htwins n

theorem step (h : Lockstep t u) {e : Event} (hsteady : Steady u e) :
    Lockstep (t.step e) (u.run (unchecked? t e).toList) := by
  cases e with
  | arrive d now => exact h.arrive d now
  | advance n k =>
    cases hc : t.clients[n]? with
    | none =>
      have hc' : u.clients[n]? = none := by
        rw [List.getElem?_eq_none_iff] at hc ⊢
        rwa [← h.clients.length_eq]
      simpa [Traffic.step, unchecked?, run, advance, hc, hc'] using h
    | some c =>
      obtain ⟨c', hc', htwins⟩ := forall₂_getElem? h.clients hc
      cases htwins with
      | same past => exact h.together hc hc' past k
      | checking =>
        have hk : k.store = none := hsteady (by rw [hc']; rfl)
        simp only [unchecked?, hc]
        exact h.check hc hc' hk
      | turnedAway voted loses =>
        obtain ⟨hcore, hloses⟩ := loses.step (h.store_eq ▸ voted) k
        exact h.lag hc rfl hc' hcore (.turnedAway voted hloses)
      | @shut b f unavailable =>
        have hk : k.store = none := hsteady (by rw [hc']; rfl)
        obtain ⟨hcore, hcall⟩ := Service.examine_of_unavailable (h.store_eq ▸ unavailable) b hk
        exact h.lag hc rfl hc' hcore (by rw [hcall]; exact .same rfl)
  | switchStore available =>
    refine ⟨h.checks, h.skips, ?_, ?_⟩
    · exact congrArg (fun s : Service => { s with store.available := available }) h.core
    · refine List.forall₂_iff_get.2 ⟨h.clients.length_eq, fun i hi hi' => ?_⟩
      exact (h.clients.get hi hi').switch (hsteady _ (List.get_mem ..)) available
  | work n k =>
    refine ⟨?_, ?_, ?_, ?_⟩
    · exact (congrArg Settings.preflight (keeps_work t.service n k).settings).trans h.checks
    · exact (congrArg Settings.preflight (keeps_work u.service n k).settings).trans h.skips
    · change (work t.service n k).core = (work u.service n k).core
      rw [core_work, h.core, ← core_work]
    · change List.Forall₂ (Client.Twins (work t.service n k).store) t.clients u.clients
      rw [store_work]
      exact h.clients
  | ledger action =>
    refine ⟨h.checks, h.skips, ?_, h.clients⟩
    exact congrArg (fun s : Service => { s with ledger := s.ledger.act action }) h.core

theorem run {events : List Event} (h : Lockstep t u) (hsteady : SteadyRun t u events) :
    Lockstep (t.run events) (u.run (unchecked t events)) := by
  induction events generalizing t u with
  | nil => exact h
  | cons e events ih =>
    rw [unchecked, observed, run_append]
    exact ih (h.step hsteady.1) hsteady.2

end Lockstep

/-- A service with the setting, before its first call. -/
def opening (s : Service) (preflight : Bool) : Traffic :=
  ⟨{ s with settings.preflight := preflight }, []⟩

/-- Leaving the check out changes nothing but which refusal a vote meets. Of two services that differ
in this setting alone, let one meet any events and the other the same without the steps of the check;
calls that follow each other are one case (`steadyRun_of_calls`), and so are calls in any order, as
long as the store fails only when it is switched off, and is not switched while a vote is about to
read its petition. Then both have the same store, ledger, cache, index and tasks at every moment, the
same calls have been answered with the same replies, and where a vote has been refused in two ways,
the check has found a row of its voter. -/
theorem preflight_optional (s : Service) (events : List Event)
    (steady : SteadyRun (opening s true) (opening s false) events) :
    let t := (opening s true).run events
    let u := (opening s false).run (unchecked (opening s true) events)
    u.service.store = t.service.store ∧ u.service.ledger = t.service.ledger ∧
    u.service.cache = t.service.cache ∧ u.service.documents = t.service.documents ∧
    u.service.background = t.service.background ∧
    u.service.metrics.degraded = t.service.metrics.degraded ∧
    List.Forall₂ (fun checked bare : Client =>
      bare.demand = checked.demand ∧
      (∀ reply, checked.call = .done (.ok reply) ↔ bare.call = .done (.ok reply)) ∧
      ∀ f f', checked.call = .done (.error f) → bare.call = .done (.error f') → f ≠ f' →
        f = .refused .alreadyVoted ∧ ∃ b, checked.demand = .vote b ∧
          t.service.store.votes.contains (b.voter, b.petition) = true) t.clients u.clients := by
  intro t u
  have h : Lockstep t u := Lockstep.run ⟨rfl, rfl, rfl, .nil⟩ steady
  have hcore : u.service.core = t.service.core := h.core.symm
  refine ⟨h.store_eq.symm, (congrArg Service.ledger hcore :), (congrArg Service.cache hcore :),
    (congrArg Service.documents hcore :), (congrArg Service.background hcore :),
    (congrArg (fun s : Service => s.metrics.degraded) hcore :), ?_⟩
  exact h.clients.imp fun _ _ htwins =>
    ⟨htwins.demand_eq, htwins.accepted_iff, fun _ _ => htwins.refused⟩

/-- A petition is created, voted for and deleted; its voter tries again while the store is switched
off, and once more when it is back. -/
def secondThoughts : List Event :=
  let tomorrow := ((Date.of? 1970 1 2).bind (Instant.of? · 0 0 0 0)).getD default
  let calm : Conditions := ⟨default, 0, 0, none, none, none, none⟩
  let petition := Uuid.ofNat 1
  let calling (d : Demand) (client steps : Nat) : List Event :=
    .arrive d default :: List.replicate steps (.advance client calm)
  let vote (client : Nat) : Demand := .vote ⟨.ofNat 2, petition, "favor", .ofNat (10 + client)⟩
  calling (.create ⟨.ofNat 9, "Bike lanes", "Protected lanes downtown", 3, tomorrow⟩ petition) 0 4 ++
    calling (vote 1) 1 7 ++ calling (.delete petition) 2 4 ++ [.switchStore false] ++
    calling (vote 3) 3 2 ++ [.switchStore true] ++ calling (vote 4) 4 2

theorem preflight_optional_secondThoughts :
    let s := Service.start .standard .standard .closed
    SteadyRun (opening s true) (opening s false) secondThoughts ∧
      ((opening s false).run (unchecked (opening s true) secondThoughts)).service.store =
        ((opening s true).run secondThoughts).service.store ∧
      ((opening s true).run secondThoughts).clients[4]?.any
        (·.call matches .done (.error (.refused .alreadyVoted))) = true ∧
      ((opening s false).run (unchecked (opening s true) secondThoughts)).clients[4]?.any
        (·.call matches .done (.error (.refused .notFound))) = true := by
  intro s
  have hsteady : SteadyRun (opening s true) (opening s false) secondThoughts :=
    steadyRun_of_calls (by decide) (by decide +kernel)
  have final := preflight_optional s secondThoughts hsteady
  exact ⟨hsteady, final.1, by decide +kernel, by decide +kernel⟩

end Traffic

end AuditedPetitions
