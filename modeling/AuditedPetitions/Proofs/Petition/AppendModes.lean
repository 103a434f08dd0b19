import AuditedPetitions.Proofs.Petition.Fates

/-! Append modes. Whether a call waits for its block or leaves that to a task is felt by nobody but
the caller's clock. Less its ledger, its tasks and its reports of failures, a service is the same
machine in either mode: it takes the steps in which calls arrive, ask the store or the cache and
submit their events, and rests in those that look for a reply. What is left out on both sides is told
by the fates of the events and by what the indexer makes of each document. -/

namespace AuditedPetitions

open Ledger (Writer)

namespace Call

/-- The call without its waits for blocks. -/
def plain : Call → Call
  | .settle effects reply => .settle (effects.filter (·.wait?.isNone)) reply
  | call => call

theorem plain_plain (call : Call) : call.plain.plain = call.plain := by
  cases call with
  | settle effects reply => simp [plain, List.filter_filter]
  | _ => rfl

theorem record?_plain (call : Call) :
    call.record? = if call.wait?.isSome || call.isDone then none else call.plain.record? := by
  cases call with
  | settle effects reply =>
    cases effects with
    | nil => rfl
    | cons e effects => cases e <;> rfl
  | _ => rfl

theorem isDone_plain (call : Call) : call.plain.isDone = call.isDone := by cases call <;> rfl

theorem plain_of_isDone {call : Call} (h : call.isDone = true) : call.plain = call := by
  obtain ⟨answer, rfl⟩ := isDone_iff.1 h
  rfl

end Call

namespace Service

/-- The service without its ledger, its tasks and its reports of failures. -/
def plain (s : Service) : Service :=
  { s with
    settings.appendMode := .background
    ledger := .closed
    documents := []
    audit := s.audit.filter (!·.level = .warn)
    metrics.degraded := []
    background := [] }

theorem plain_emit {s s' : Service} (h : s.plain = s'.plain) (level : AuditLevel)
    (message : String) : (s.emit level message).plain = (s'.emit level message).plain := by
  have hemit (s : Service) : (s.emit level message).plain = (s.plain.emit level message).plain := by
    simp [plain, emit, List.filter_append, List.filter_filter]
  rw [hemit, h, ← hemit]

variable (s : Service)

@[simp] theorem plain_store : s.plain.store = s.store := rfl

@[simp] theorem plain_cache : s.plain.cache = s.cache := rfl

@[simp] theorem plain_cacheConfig : s.plain.cacheConfig = s.cacheConfig := rfl

@[simp] theorem plain_plain : s.plain.plain = s.plain := by
  simp [plain, List.filter_filter]

@[simp] theorem plain_degrade (effect detail : String) : (s.degrade effect detail).plain = s.plain := by
  simp [plain, degrade, emit, List.filter_append, ServiceMetrics.recordDegraded]

@[simp] theorem plain_spawn (task : Task) : (s.spawn task).plain = s.plain := rfl

@[simp] theorem plain_noteReply (description : String) (r : Ledger.Reply) :
    (s.noteReply description r).plain = s.plain := by
  cases r with
  | failed e => exact s.plain_degrade ..
  | sealed b => rfl
  | stopped => rfl

theorem plain_withStore (store : Store) :
    { s with store := store }.plain = { s.plain with store := store }.plain := by
  simp [plain, List.filter_filter]

theorem plain_withCache (cache : Cache Cache.ExpiringMap) :
    { s with cache := cache }.plain = { s.plain with cache := cache }.plain := by
  simp [plain, List.filter_filter]

theorem plain_record (c : Conditions) (d : Ledger.Draft) :
    (s.record c d).1.plain = s.plain ∧ (s.record c d).2.filter (·.wait?.isNone) = [] := by
  simp only [record]
  split
  · exact ⟨s.plain_degrade .., rfl⟩
  · split <;> exact ⟨rfl, rfl⟩

theorem plain_perform (c : Conditions) {e : Effect} (h : e.wait? = none) :
    (s.perform c e).1.plain = (s.plain.perform c e).1.plain ∧
      (s.perform c e).2.filter (·.wait?.isNone) =
        (s.plain.perform c e).2.filter (·.wait?.isNone) := by
  have hdegrade (cache : Cache Cache.ExpiringMap) (effect detail : String) :
      ({ s with cache := cache }.degrade effect detail).plain =
        ({ s.plain with cache := cache }.degrade effect detail).plain := by
    rw [plain_degrade, plain_degrade, plain_withCache]
  cases e with
  | record d =>
    obtain ⟨hstate, heffects⟩ := s.plain_record c d
    obtain ⟨hstate', heffects'⟩ := s.plain.plain_record c d
    exact ⟨hstate.trans (by rw [perform, hstate', plain_plain]), heffects.trans heffects'.symm⟩
  | awaitSeal pending description => cases h
  | dropPetition id =>
    simp only [perform, plain_cache]
    split
    · exact ⟨s.plain_withCache _, rfl⟩
    · exact ⟨hdegrade .., rfl⟩
  | findListings =>
    simp only [perform, plain_cache]
    split
    · exact ⟨s.plain_withCache _, rfl⟩
    · exact ⟨s.plain_withCache _, rfl⟩
    · exact ⟨hdegrade .., rfl⟩
  | dropListings keys =>
    simp only [perform, plain_cache]
    split
    · exact ⟨s.plain_withCache _, rfl⟩
    · exact ⟨hdegrade .., rfl⟩

theorem plain_recordVote (outcome : VoteOutcome) :
    { s with metrics := s.metrics.recordVote outcome }.plain =
      { s.plain with metrics := s.plain.metrics.recordVote outcome }.plain := by
  simp [plain, ServiceMetrics.recordVote, List.filter_filter]

theorem plain_closeVote (voter petition : Uuid) (result : Outcome PetitionError Vote) :
    (s.closeVote voter petition result).1.plain =
        (s.plain.closeVote voter petition result).1.plain ∧
      (s.closeVote voter petition result).2.plain =
        (s.plain.closeVote voter petition result).2.plain := by
  rw [closeVote_call, closeVote_call]
  refine ⟨?_, rfl⟩
  unfold closeVote
  split
  · exact plain_emit (s.plain_recordVote _) ..
  · exact plain_emit (s.plain_recordVote _) ..
  · exact s.plain_plain.symm

theorem plain_step (c : Conditions) {call : Call} (h : call.wait? = none) :
    (s.step c call).1.plain = (s.plain.step c call.plain).1.plain ∧
      (s.step c call).2.plain = (s.plain.step c call.plain).2.plain := by
  cases call with
  | create request id =>
    simp only [step, Call.plain, plain_store]
    split
    · exact ⟨s.plain_plain.symm, rfl⟩
    · refine ⟨?_, rfl⟩
      rw [plain_spawn, plain_spawn]
      exact plain_emit (s.plain_withStore _) ..
  | delete id =>
    simp only [step, Call.plain, plain_store]
    split
    · exact ⟨s.plain_plain.symm, rfl⟩
    · exact ⟨plain_emit (s.plain_withStore _) .., rfl⟩
  | preflight b =>
    simp only [step, Call.plain, plain_store]
    split
    · exact s.plain_closeVote ..
    · exact s.plain_closeVote ..
    · exact ⟨s.plain_plain.symm, rfl⟩
  | examine b =>
    simp only [step, Call.plain, plain_store]
    split
    · exact s.plain_closeVote ..
    · split
      · exact s.plain_closeVote ..
      · exact ⟨s.plain_plain.symm, rfl⟩
  | commit b type =>
    simp only [step, Call.plain, plain_store]
    split
    · exact s.plain_closeVote ..
    · exact ⟨s.plain_withStore _, rfl⟩
  | settle effects reply =>
    cases effects with
    | nil =>
      cases reply with
      | vote v => exact s.plain_closeVote ..
      | _ => exact ⟨s.plain_plain.symm, rfl⟩
    | cons e effects =>
      rw [Call.wait?_settle] at h
      obtain ⟨hstate, hmore⟩ := s.plain_perform c h
      simp [step, Call.plain, h, hstate, hmore]
  | look q key =>
    simp only [step, Call.plain, plain_cache]
    split
    · exact ⟨s.plain_withCache _, rfl⟩
    · exact ⟨s.plain_withCache _, rfl⟩
  | load q key =>
    simp only [step, Call.plain, plain_store]
    split
    · exact ⟨s.plain_plain.symm, rfl⟩
    · exact ⟨s.plain_plain.symm, rfl⟩
    · exact ⟨s.plain_plain.symm, rfl⟩
  | fill q key reply =>
    simp only [step, Call.plain, plain_cache, plain_cacheConfig]
    split
    · exact ⟨s.plain_withCache _, rfl⟩
    · exact ⟨s.plain_withCache _, rfl⟩
  | done answer => exact ⟨s.plain_plain.symm, rfl⟩

@[simp] theorem plain_runTask (c : Conditions) (task : Task) : (s.runTask c task).plain = s.plain := by
  match task with
  | .index d =>
    simp only [runTask]
    split
    · exact s.plain_degrade ..
    · rfl
  | .seal pending description =>
    simp only [runTask]
    split
    · rfl
    · exact s.plain_noteReply ..

theorem plain_wait (c : Conditions) {call : Call} (h : call.wait?.isSome = true) :
    (s.step c call).1.plain = s.plain ∧ (s.step c call).2.plain = call.plain := by
  unfold Call.wait? at h
  split at h
  · simp only [step, perform]
    split
    · exact ⟨rfl, rfl⟩
    · exact ⟨s.plain_noteReply .., rfl⟩
  · cases h

theorem plain_ending (c : Conditions) (e : Effect) :
    (s.ending? c e).filter (·.duty.effect = "cache") =
      if e.wait?.isSome then none
      else (s.plain.ending? c e).filter (·.duty.effect = "cache") := by
  cases e with
  | record d =>
    simp only [ending?]
    cases c.ledger.elim (s.ledger.submit (d.stamp c.now)) .error <;>
      cases c.ledger.elim (s.plain.ledger.submit (d.stamp c.now)) .error <;> rfl
  | awaitSeal pending description =>
    simp only [ending?]
    cases s.ledger.reply? pending <;> rfl
  | dropPetition id => rfl
  | findListings => rfl
  | dropListings keys => rfl

theorem plain_callEnding (c : Conditions) (call : Call) :
    (s.callEnding? c call).filter (·.duty.effect = "cache") =
      if call.wait?.isSome || call.isDone then none
      else (s.plain.callEnding? c call.plain).filter (·.duty.effect = "cache") := by
  cases call with
  | settle effects reply =>
    cases effects with
    | nil => rfl
    | cons e effects =>
      have hending := s.plain_ending c e
      cases hwait : e.wait? with
      | none => simpa [callEnding?, Call.wait?_settle, Call.isDone, Call.plain, hwait] using hending
      | some wait => simpa [callEnding?, Call.wait?_settle, hwait] using hending
  | _ => rfl

theorem Performed.duty_eq {s s' : Service} {duty : Duty} {x : Ending} {more : List Effect}
    (h : Performed s duty (some x) s' more) : x.duty = duty := by
  cases h with
  | ends same => exact same

theorem effect_of_callEnding {s : Service} {c : Conditions} {call : Call} {x : Ending}
    (h : s.callEnding? c call = some x) : x.duty.effect ≠ "index" := by
  unfold callEnding? at h
  split at h
  · rename_i e effects reply
    have hperformed := s.performed c e
    rw [h] at hperformed
    rw [hperformed.duty_eq]
    cases e <;> simp [Effect.duty, Duty.effect]
  · cases h

end Service

theorem Demand.start_plain (d : Demand) (s : Service) (now : Instant) :
    (d.start s now).plain = (d.start s.plain now).plain := by
  cases d <;> rfl

/-- Petition whose document a task brings to the indexer. -/
def Task.petition? : Task → Option Uuid
  | .index document => some document.id
  | .seal .. => none

/-- The client with its call less the waits for blocks. -/
def Client.plain (c : Client) : Client := ⟨c.demand, c.call.plain⟩

theorem Client.plain_plain (c : Client) : c.plain.plain = c.plain := by
  rw [plain, plain, Call.plain_plain]

namespace Traffic

/-- The traffic without the ledger, the tasks and the reports of failures. -/
def plain (t : Traffic) : Traffic := ⟨t.service.plain, t.clients.map Client.plain⟩

/-- Event that is felt without them: an arrival, a switch, or a step of a call that is not done and
does not look for a reply. -/
def felt? (t : Traffic) : Event → Option Event
  | .arrive d now => some (.arrive d now)
  | .advance n c =>
    t.clients[n]?.bind fun client =>
      if client.call.wait?.isSome || client.call.isDone then none else some (.advance n c)
  | .switchStore available => some (.switchStore available)
  | .work .. | .ledger _ => none

/-- Events of a run that are felt without them. -/
def felt (t : Traffic) (events : List Event) : List Event := observed felt? t events

theorem plain_work (s : Service) (n : Nat) (c : Conditions) : (work s n c).plain = s.plain := by
  unfold work
  split
  · rfl
  · exact Service.plain_runTask ..

theorem clients_plain (t : Traffic) :
    t.plain.clients.map Client.plain = t.clients.map Client.plain := by
  simp [plain, Function.comp_def, Client.plain_plain]

theorem plain_advance {t : Traffic} {n : Nat} {client : Client} (hn : t.clients[n]? = some client)
    (c : Conditions) (h : client.call.wait? = none) :
    (t.advance n c).plain = (t.plain.advance n c).plain := by
  have hplain : t.plain.clients[n]? = some client.plain := by
    rw [plain, List.getElem?_map, hn, Option.map_some]
  obtain ⟨hservice, hcall⟩ := t.service.plain_step c h
  rw [advance_of_found hn, advance_of_found hplain]
  refine congrArg₂ Traffic.mk hservice ?_
  rw [List.map_set, List.map_set, clients_plain]
  exact congrArg (fun call => (t.clients.map Client.plain).set n ⟨client.demand, call⟩) hcall

/-- Without the ledger, the tasks and the reports, a step is one of the same machine, or none. -/
theorem plain_step (t : Traffic) (e : Event) :
    (t.step e).plain = (felt? t e).elim t.plain fun e => (t.plain.step e).plain := by
  cases e with
  | arrive d now =>
    refine congrArg₂ Traffic.mk t.service.plain_plain.symm ?_
    simp only [step, List.map_append, clients_plain]
    refine congrArg (List.map Client.plain t.clients ++ [⟨d, ·⟩]) ?_
    exact d.start_plain t.service now
  | advance n c =>
    cases hn : t.clients[n]? with
    | none => simp [step, advance, felt?, hn]
    | some client =>
      simp only [felt?, hn, Option.bind_some]
      cases hwait : client.call.wait? with
      | some wait =>
        obtain ⟨hservice, hcall⟩ := t.service.plain_wait c (Option.isSome_iff_exists.2 ⟨_, hwait⟩)
        obtain ⟨hlt, rfl⟩ := List.getElem?_eq_some_iff.1 hn
        rw [step, advance_of_found hn]
        refine congrArg₂ Traffic.mk hservice ?_
        have hsame : Client.plain ⟨t.clients[n].demand, (t.service.step c t.clients[n].call).2⟩ =
            t.clients[n].plain := congrArg (Client.mk _) hcall
        have hlength : n < (t.clients.map Client.plain).length := by simpa using hlt
        rw [List.map_set, hsame, ← List.getElem_map Client.plain]
        exact List.set_getElem_self hlength
      | none =>
        cases hdone : client.call.isDone with
        | true => simp [step, advance_of_isDone hn hdone]
        | false => exact plain_advance hn c hwait
  | switchStore available =>
    refine congrArg₂ Traffic.mk (t.service.plain_withStore _) ?_
    exact t.clients_plain.symm
  | work n c => exact congrArg (Traffic.mk · _) (plain_work t.service n c)
  | ledger action => rfl

theorem plain_run (t : Traffic) (events : List Event) :
    (t.run events).plain = (felt t events).foldl (fun q e => (q.step e).plain) t.plain := by
  induction events using List.reverseRecOn with
  | nil => rfl
  | append_singleton events e ih =>
    rw [run_concat, plain_step, felt, observed_concat, List.foldl_append, ← felt, ← ih]
    cases felt? (t.run events) e <;> rfl

/-- What the events of a run of that machine are seen to do. -/
def replay {α : Type} (see : Traffic → Event → Option α) : Traffic → List Event → List α
  | _, [] => []
  | q, e :: events => (see q e).toList ++ replay see (q.step e).plain events

theorem observed_felt {α : Type} {see : Traffic → Event → Option α}
    (h : ∀ t e, see t e = (felt? t e).bind (see t.plain)) (t : Traffic) (events : List Event) :
    observed see t events = replay see t.plain (felt t events) := by
  induction events generalizing t with
  | nil => rfl
  | cons e events ih =>
    rw [observed, ih, plain_step, h, felt, felt, observed]
    cases felt? t e <;> rfl

/-- Event that is submitted to the ledger, and its client. -/
def submitted? (t : Traffic) (e : Event) : Option (Nat × Ledger.Transaction) :=
  (attempt? t e).map fun a => (a.client, a.transaction)

/-- Duty towards the cache that ends with an event. -/
def cacheEnded? (t : Traffic) (e : Event) : Option Ending :=
  (ended? t e).filter (·.duty.effect = "cache")

theorem submitted?_eq (t : Traffic) (e : Event) :
    submitted? t e = (felt? t e).bind (submitted? t.plain) := by
  cases e with
  | advance n c =>
    cases hn : t.clients[n]? with
    | none => simp [submitted?, attempt?, felt?, hn]
    | some client =>
      have hplain : t.plain.clients[n]? = some client.plain := by
        rw [plain, List.getElem?_map, hn, Option.map_some]
      simp only [submitted?, attempt?, felt?, hn, Option.bind_some]
      rw [client.call.record?_plain]
      split
      · rfl
      · simp only [Option.bind_some, submitted?, attempt?, hplain, Option.map_map]
        rfl
  | _ => rfl

theorem cacheEnded?_eq (t : Traffic) (e : Event) :
    cacheEnded? t e = (felt? t e).bind (cacheEnded? t.plain) := by
  cases e with
  | advance n c =>
    cases hn : t.clients[n]? with
    | none => simp [cacheEnded?, ended?, felt?, hn]
    | some client =>
      have hplain : t.plain.clients[n]? = some client.plain := by
        rw [plain, List.getElem?_map, hn, Option.map_some]
      simp only [cacheEnded?, ended?, felt?, hn, Option.bind_some]
      rw [Service.plain_callEnding]
      split
      · rfl
      · simp only [Option.bind_some, cacheEnded?, ended?, hplain]
        rfl
  | work n c =>
    simp only [cacheEnded?, ended?, felt?, Option.bind_none]
    cases t.service.background[n]? with
    | none => rfl
    | some task =>
      obtain d | ⟨pending, description⟩ := task
      · rfl
      · simp only [Option.bind_some, Service.taskEnding?]
        cases t.service.ledger.reply? pending <;> rfl
  | _ => rfl

/-- Background work on a document fails as the indexer fails for its petition. -/
def Indexed (faults : Uuid → Option IndexError) (t : Traffic) : Event → Prop
  | .work n c => ∀ id ∈ t.service.background[n]?.bind Task.petition?, c.index = faults id
  | .arrive .. | .advance .. | .switchStore _ | .ledger _ => True

instance (faults : Uuid → Option IndexError) (t : Traffic) : ∀ e, Decidable (Indexed faults t e)
  | .work n c => inferInstanceAs
      (Decidable (∀ id ∈ t.service.background[n]?.bind Task.petition?, c.index = faults id))
  | .arrive .. | .advance .. | .switchStore _ | .ledger _ => .isTrue trivial

/-- Every call is done, and no task is left. -/
structure Rested (t : Traffic) : Prop where
  calls : ∀ client ∈ t.clients, client.call.isDone = true
  tasks : t.service.background = []

/-- What two runs agree on. -/
structure Agreement (t₀ u₀ : Traffic) (xs ys : List Event) : Prop where
  /-- The calls have the same results. -/
  clients : (t₀.run xs).clients = (u₀.run ys).clients
  store : (t₀.run xs).service.store = (u₀.run ys).service.store
  cache : (t₀.run xs).service.cache = (u₀.run ys).service.cache
  votes : (t₀.run xs).service.metrics.votes = (u₀.run ys).service.metrics.votes
  /-- The blocks behind the first one carry the same events. -/
  carried : (t₀.run xs).service.snapshot.later.map Ledger.Block.transaction =
    (u₀.run ys).service.snapshot.later.map Ledger.Block.transaction
  degraded : ∀ effect, (t₀.run xs).service.metrics.degraded.count effect =
    (u₀.run ys).service.metrics.degraded.count effect
  total : (t₀.run xs).service.metrics.degraded.total = (u₀.run ys).service.metrics.degraded.total
  audit : (t₀.run xs).service.audit.Perm (u₀.run ys).service.audit

theorem along_mono {p q : Traffic → Event → Prop} (hpq : ∀ t e, p t e → q t e) {t : Traffic}
    {events : List Event} (h : Along p t events) : Along q t events := by
  induction events generalizing t with
  | nil => trivial
  | cons e events ih => exact ⟨hpq t e h.1, ih h.2⟩

theorem forall_observed {α : Type} {p : Traffic → Event → Prop}
    {see : Traffic → Event → Option α} {q : α → Prop} (h : ∀ t e, p t e → ∀ x ∈ see t e, q x)
    {t : Traffic} {events : List Event} (hp : Along p t events) : ∀ x ∈ observed see t events, q x := by
  induction events generalizing t with
  | nil => exact List.forall_mem_nil _
  | cons e events ih =>
    intro x hx
    rcases List.mem_append.1 hx with hx | hx
    · exact h t e hp.1 x (Option.mem_toList.1 hx)
    · exact ih hp.2 x hx

/-- End of a duty towards the indexer. -/
def indexEnding (faults : Uuid → Option IndexError) : Duty → Ending
  | .index id => ⟨.index id, (faults id).map IndexError.message⟩
  | duty => ⟨duty, none⟩

theorem indexed_ended {faults : Uuid → Option IndexError} (t : Traffic) (e : Event)
    (h : Indexed faults t e) :
    ∀ x ∈ ended? t e, x.duty.effect = "index" → x = indexEnding faults x.duty := by
  intro x hx hindex
  cases e with
  | advance n c =>
    obtain ⟨client, -, hx⟩ := Option.bind_eq_some_iff.1 hx
    exact absurd hindex (Service.effect_of_callEnding hx)
  | work n c =>
    obtain ⟨task, hn, hx⟩ := Option.bind_eq_some_iff.1 hx
    match task with
    | .index d =>
      cases hx
      rw [indexEnding, h d.id (by simp [hn, Task.petition?])]
    | .seal pending description =>
      obtain ⟨r, -, rfl⟩ := Option.map_eq_some_iff.1 hx
      exact absurd (show "ledger" = "index" from hindex) (by decide)
  | _ => cases hx

theorem index_endings {settings : Settings} {cache : CacheConfig} {ledger : Ledger.Peer}
    {faults : Uuid → Option IndexError} {events : List Event}
    (h : Along (Indexed faults) (start settings cache ledger) events)
    (hrested : ((start settings cache ledger).run events).Rested) :
    ((endings (start settings cache ledger) events).filter (·.duty.effect = "index")).Perm
      ((((start settings cache ledger).run events).due.filter (·.effect = "index")).map
        (indexEnding faults)) := by
  have hbooked := booked_run settings cache ledger events
  rw [owed_of_quiescent hrested.calls hrested.tasks, List.nil_append] at hbooked
  have hduties := (hbooked.filter (·.effect = "index")).map (indexEnding faults)
  have htold := forall_observed (@indexed_ended faults) h
  rw [List.filter_map, List.map_map] at hduties
  refine List.Perm.trans (List.Perm.of_eq ?_) hduties
  refine (List.map_id _).symm.trans (List.map_congr_left fun x hx => ?_)
  obtain ⟨hmem, hindex⟩ := List.mem_filter.1 hx
  exact htold x hmem (of_decide_eq_true hindex)

theorem cache_endings (t : Traffic) (events : List Event) :
    (endings t events).filter (·.duty.effect = "cache") =
      replay cacheEnded? t.plain (felt t events) := by
  rw [← observed_felt cacheEnded?_eq, endings]
  induction events generalizing t with
  | nil => rfl
  | cons e events ih =>
    rw [observed, observed, List.filter_append, ih, cacheEnded?]
    cases ended? t e with
    | none => rfl
    | some x => by_cases hx : x.duty.effect = "cache" <;> simp [hx, Option.filter]

theorem submitted_verdicts (t : Traffic) (events : List Event) :
    (verdicts t events).map (fun v => (v.client, v.event)) =
      replay submitted? t.plain (felt t events) := by
  have hsubmitted : observed submitted? t events =
      (attempts t events).map fun a => (a.client, a.transaction) :=
    observed_map (fun _ _ => rfl) t events
  rw [← observed_felt submitted?_eq, hsubmitted, verdicts, List.map_map]
  rfl

end Traffic

theorem Ending.perm_of_effects {xs ys : List Ending}
    (hledger : (xs.filter isAppend).Perm (ys.filter isAppend))
    (hcache : (xs.filter (·.duty.effect = "cache")).Perm (ys.filter (·.duty.effect = "cache")))
    (hindex : (xs.filter (·.duty.effect = "index")).Perm (ys.filter (·.duty.effect = "index"))) :
    xs.Perm ys := by
  refine List.perm_iff_count.2 fun a => ?_
  have hcount {p : Ending → Bool} (hp : p a = true) (h : (xs.filter p).Perm (ys.filter p)) :
      xs.count a = ys.count a := by
    rw [← List.count_filter hp, ← List.count_filter hp (l := ys)]
    exact h.count_eq a
  cases hduty : a.duty with
  | append description => exact hcount (by simp [isAppend, hduty, Duty.effect]) hledger
  | petition id => exact hcount (by simp [hduty, Duty.effect]) hcache
  | listings => exact hcount (by simp [hduty, Duty.effect]) hcache
  | index id => exact hcount (by simp [hduty, Duty.effect]) hindex

theorem Verdict.eq_of_map {xs ys : List Verdict}
    (hevents : xs.map (fun v => (v.client, v.event)) = ys.map fun v => (v.client, v.event))
    (hfates : xs.map fate = ys.map fate) : xs = ys := by
  induction xs generalizing ys with
  | nil => exact (List.map_eq_nil_iff.1 hfates.symm).symm
  | cons x xs ih =>
    cases ys with
    | nil => cases hfates
    | cons y ys =>
      simp only [List.map_cons, List.cons.injEq, Prod.mk.injEq] at hevents hfates
      obtain ⟨⟨hclient, hevent⟩, hevents⟩ := hevents
      obtain ⟨x, e, f⟩ := x
      obtain ⟨y, e', f'⟩ := y
      obtain ⟨rfl, rfl, rfl⟩ : x = y ∧ e = e' ∧ f = f' := ⟨hclient, hevent, hfates.1⟩
      rw [ih hevents hfates.2]

theorem Service.audit_perm (s : Service) : (s.warnings ++ s.plain.audit).Perm s.audit :=
  List.filter_append_perm _ _

theorem Client.plain_of_isDone {c : Client} (h : c.call.isDone = true) : c.plain = c := by
  rw [plain, Call.plain_of_isDone h]

namespace Traffic

theorem Rested.clients_plain {t : Traffic} (h : t.Rested) : t.plain.clients = t.clients :=
  (List.map_congr_left fun c hc => Client.plain_of_isDone (h.calls c hc)).trans (List.map_id _)

/-- A run to the end of all work, in which nobody else uses the ledger and the indexer fails as told. -/
structure Completed (faults : Uuid → Option IndexError) (t₀ : Traffic) (events : List Event) :
    Prop where
  isPrivate : ∀ e ∈ events, e.isPrivate = true
  indexed : Along (Indexed faults) t₀ events
  rested : (t₀.run events).Rested

theorem Completed.waits_eq {faults : Uuid → Option IndexError} {t₀ : Traffic} {events : List Event}
    (h : Completed faults t₀ events) : (t₀.run events).waits = [] :=
  waits_of_quiescent h.rested.calls h.rested.tasks

section Started

variable {config : Ledger.Config} {time eventTime : Instant} {micros : Nat} {w₀ : Writer}
  {settings : Settings} {cache : CacheConfig} {mode mode' : AppendMode}
  {faults : Uuid → Option IndexError} {xs ys : List Event}

/-- The same duties end alike: those towards the cache are felt, those towards the ledger end as its
verdicts say, and those towards the indexer follow from what was written. -/
theorem endings_of_felt (hstart : Writer.start config time eventTime micros = .ok w₀) :
    let t₀ := start { settings with appendMode := mode } cache (.live w₀)
    let u₀ := start { settings with appendMode := mode' } cache (.live w₀)
    Completed faults t₀ xs → Completed faults u₀ ys → felt t₀ xs = felt u₀ ys →
      (t₀.run xs).clients = (u₀.run ys).clients → verdicts t₀ xs = verdicts u₀ ys →
      (endings t₀ xs).Perm (endings u₀ ys) := by
  intro t₀ u₀ ht hu hfelt hclients hverdicts
  refine Ending.perm_of_effects ?_ ?_ ?_
  · have hledger := verdicts_endings hstart ht.isPrivate ht.waits_eq
    have hledger' := verdicts_endings hstart hu.isPrivate hu.waits_eq
    rw [hverdicts] at hledger
    exact hledger.trans hledger'.symm
  · rw [cache_endings, cache_endings, hfelt]
    rfl
  · have hindex := index_endings ht.indexed ht.rested
    have hindex' := index_endings hu.indexed hu.rested
    rw [due, hclients] at hindex
    exact hindex.trans hindex'.symm

theorem agreement_of_felt (hstart : Writer.start config time eventTime micros = .ok w₀) :
    let t₀ := start { settings with appendMode := mode } cache (.live w₀)
    let u₀ := start { settings with appendMode := mode' } cache (.live w₀)
    Completed faults t₀ xs → Completed faults u₀ ys → felt t₀ xs = felt u₀ ys →
      (verdicts t₀ xs).map Verdict.fate = (verdicts u₀ ys).map Verdict.fate →
      Agreement t₀ u₀ xs ys := by
  intro t₀ u₀ ht hu hfelt hfates
  have hplain : (t₀.run xs).plain = (u₀.run ys).plain := by
    rw [plain_run, plain_run, hfelt]
    rfl
  have hclients : (t₀.run xs).clients = (u₀.run ys).clients := by
    rw [← ht.rested.clients_plain, ← hu.rested.clients_plain, hplain]
  have hverdicts : verdicts t₀ xs = verdicts u₀ ys := by
    refine Verdict.eq_of_map ?_ hfates
    rw [submitted_verdicts, submitted_verdicts, hfelt]
    rfl
  have hendings := endings_of_felt hstart ht hu hfelt hclients hverdicts
  have hreports := reports_run { settings with appendMode := mode } cache (.live w₀) xs
  have hreports' := reports_run { settings with appendMode := mode' } cache (.live w₀) ys
  refine ⟨hclients, ?_, ?_, ?_, ?_, ?_, ?_, ?_⟩
  · exact congrArg (·.service.store) hplain
  · exact congrArg (·.service.cache) hplain
  · exact congrArg (·.service.metrics.votes) hplain
  · rw [verdicts_carried hstart ht.isPrivate ht.waits_eq,
      verdicts_carried hstart hu.isPrivate hu.waits_eq, hverdicts]
  · intro effect
    rw [hreports.counted, hreports'.counted, hendings.countP_eq]
    rfl
  · rw [hreports.total, hreports'.total, hendings.countP_eq]
    rfl
  · have haudit : (t₀.run xs).service.plain.audit = (u₀.run ys).service.plain.audit :=
      congrArg (·.service.audit) hplain
    refine (Service.audit_perm _).symm.trans (List.Perm.trans ?_ (Service.audit_perm _))
    rw [hreports.warnings, hreports'.warnings, haudit]
    exact (List.Perm.append_left _ (hendings.filterMap _)).append_right _

end Started

end Traffic

deriving instance DecidableEq for Conditions

/-- A list of calls, and all that they meet: the conditions of their steps, the errors with which the
ledger ends the events that they submit, and the documents that the indexer fails at. -/
structure Script where
  /-- The calls, each with the time of its arrival. -/
  operations : List (Demand × Instant)
  /-- What a call meets where it stands; it stands nowhere twice. -/
  conditions : Nat → Call → Conditions
  fates : List (Option Ledger.Error)
  faults : Uuid → Option IndexError

namespace Traffic

def Event.operation? : Event → Option (Demand × Instant)
  | .arrive d now => some (d, now)
  | _ => none

/-- Calls follow each other, and each of their steps meets its conditions, but for those that look
for a reply. Background work and the ledger go their own way. -/
def Scripted (conditions : Nat → Call → Conditions) (t : Traffic) : Event → Prop
  | .arrive .. => ∀ client ∈ t.clients, client.call.isDone = true
  | .advance n c => ∀ client ∈ t.clients[n]?,
    (client.call.wait?.isSome || client.call.isDone) = false → c = conditions n client.call.plain
  | .switchStore _ => False
  | .work .. | .ledger _ => True

instance (conditions : Nat → Call → Conditions) (t : Traffic) :
    ∀ e, Decidable (Scripted conditions t e)
  | .arrive .. => inferInstanceAs (Decidable (∀ client ∈ t.clients, client.call.isDone = true))
  | .advance n c => inferInstanceAs (Decidable (∀ client ∈ t.clients[n]?,
      (client.call.wait?.isSome || client.call.isDone) = false → c = conditions n client.call.plain))
  | .switchStore _ => .isFalse id
  | .work .. | .ledger _ => .isTrue trivial

theorem inTurn_of_scripted {conditions : Nat → Call → Conditions} {t : Traffic} {e : Event}
    (h : Scripted conditions t e) : InTurn t e := by
  cases e with
  | arrive d now => exact h
  | _ => trivial

/-- A run to the end of a script. -/
structure Performs (script : Script) (t₀ : Traffic) (events : List Event) : Prop
    extends Completed script.faults t₀ events where
  operations : events.filterMap Event.operation? = script.operations
  scripted : Along (Scripted script.conditions) t₀ events
  fates : (verdicts t₀ events).map Verdict.fate = script.fates

/-- What the machine without ledger and tasks does to the end of a script. -/
def Plays (conditions : Nat → Call → Conditions) : Traffic → List Event → Prop
  | q, [] => ∀ client ∈ q.clients, client.call.isDone = true
  | q, .arrive d now :: events =>
    (∀ client ∈ q.clients, client.call.isDone = true) ∧
      Plays conditions (q.step (.arrive d now)).plain events
  | q, .advance n c :: events =>
    (∃ client, q.clients[n]? = some client ∧ n + 1 = q.clients.length ∧
        client.call.isDone = false ∧ c = conditions n client.call) ∧
      Plays conditions (q.step (.advance n c)).plain events
  | _, _ :: _ => False

theorem Plays.unique {conditions : Nat → Call → Conditions} {q : Traffic} {xs ys : List Event}
    (hx : Plays conditions q xs) (hy : Plays conditions q ys)
    (hsame : xs.filterMap Event.operation? = ys.filterMap Event.operation?) : xs = ys := by
  have hbusy {q : Traffic} {n : Nat} {client : Client} (hn : q.clients[n]? = some client)
      (hbusy : client.call.isDone = false) (h : ∀ c ∈ q.clients, c.call.isDone = true) : False :=
    absurd ((h client (List.mem_of_getElem? hn)).symm.trans hbusy) (by decide)
  induction xs generalizing q ys with
  | nil =>
    cases ys with
    | nil => rfl
    | cons e ys =>
      cases e with
      | arrive d now => cases hsame
      | advance n c =>
        obtain ⟨client, hn, -, hclient, -⟩ := hy.1
        exact (hbusy hn hclient hx).elim
      | _ => exact hy.elim
  | cons e xs ih =>
    cases e with
    | arrive d now =>
      cases ys with
      | nil => cases hsame
      | cons e ys =>
        cases e with
        | arrive d' now' =>
          simp only [List.filterMap_cons, Event.operation?, List.cons.injEq, Prod.mk.injEq] at hsame
          obtain ⟨⟨rfl, rfl⟩, hsame⟩ := hsame
          rw [ih hx.2 hy.2 hsame]
        | advance n c =>
          obtain ⟨client, hn, -, hclient, -⟩ := hy.1
          exact (hbusy hn hclient hx.1).elim
        | _ => exact hy.elim
    | advance n c =>
      obtain ⟨client, hn, hlast, hclient, hc⟩ := hx.1
      cases ys with
      | nil => exact (hbusy hn hclient hy).elim
      | cons e ys =>
        cases e with
        | arrive d now => exact (hbusy hn hclient hy.1).elim
        | advance n' c' =>
          obtain ⟨client', hn', hlast', -, hc'⟩ := hy.1
          obtain rfl : n = n' := by omega
          obtain rfl : client = client' := Option.some.inj (hn.symm.trans hn')
          obtain rfl : c = c' := hc.trans hc'.symm
          rw [ih hx.2 hy.2 hsame]
        | _ => exact hy.elim
    | _ => exact hx.elim

theorem plays_felt {conditions : Nat → Call → Conditions} {t : Traffic} {events : List Event}
    (h : Along (Scripted conditions) t events) (hlast : t.LastBusy)
    (hdone : ∀ client ∈ (t.run events).clients, client.call.isDone = true) :
    Plays conditions t.plain (felt t events) := by
  induction events generalizing t with
  | nil =>
    intro client hclient
    obtain ⟨c, hc, rfl⟩ := List.mem_map.1 hclient
    rw [Client.plain_of_isDone (hdone c hc)]
    exact hdone c hc
  | cons e events ih =>
    have hturn : InTurn t e := inTurn_of_scripted h.1
    have hrest := ih h.2 (hlast.step hturn) hdone
    rw [plain_step] at hrest
    cases e with
    | arrive d now =>
      refine ⟨?_, hrest⟩
      intro client hclient
      obtain ⟨c, hc, rfl⟩ := List.mem_map.1 hclient
      rw [Client.plain_of_isDone (h.1 c hc)]
      exact h.1 c hc
    | advance n c =>
      rw [felt, observed, ← felt]
      cases hfelt : felt? t (.advance n c) with
      | none =>
        rw [hfelt] at hrest
        exact hrest
      | some e =>
        rw [hfelt] at hrest
        obtain ⟨client, hn, hstep⟩ := Option.bind_eq_some_iff.1 hfelt
        split at hstep
        · cases hstep
        · rename_i hidle
          cases hstep
          have hmoves := Bool.eq_false_iff.2 hidle
          have hbusy := (Bool.or_eq_false_iff.1 hmoves).2
          have hlength : n + 1 = t.plain.clients.length := by
            rw [plain, List.length_map]
            exact hlast n client hn hbusy
          refine ⟨⟨client.plain, ?_, hlength, ?_, h.1 client hn hmoves⟩, hrest⟩
          · rw [plain, List.getElem?_map, hn, Option.map_some]
          · exact client.call.isDone_plain.trans hbusy
    | switchStore available => exact h.1.elim
    | work n c => exact hrest
    | ledger action => exact hrest

theorem operations_felt (t : Traffic) (events : List Event) :
    (felt t events).filterMap Event.operation? = events.filterMap Event.operation? := by
  have hfelt (t : Traffic) (e : Event) : (felt? t e).bind Event.operation? = e.operation? := by
    cases e with
    | advance n c =>
      simp only [felt?]
      cases t.clients[n]? with
      | none => rfl
      | some client =>
        rw [Option.bind_some]
        split <;> rfl
    | _ => rfl
  induction events generalizing t with
  | nil => rfl
  | cons e events ih =>
    rw [felt, observed, List.filterMap_append, ← felt, ih, filterMap_cons_eq, ← hfelt t]
    cases felt? t e with
    | none => rfl
    | some e' => simp [filterMap_cons_eq]

/-- Whether calls wait for their blocks makes no difference to what a script comes to: to the results
of its calls, the store and the cache, the events on the chain in the order of the calls, the
counters, and what is in the audit trail once all work is done. -/
theorem append_modes_agree {config : Ledger.Config} {time eventTime : Instant} {micros : Nat}
    {w₀ : Writer} (hstart : Writer.start config time eventTime micros = .ok w₀)
    (settings : Settings) (cache : CacheConfig) (mode mode' : AppendMode) (script : Script)
    {xs ys : List Event} :
    let t₀ := start { settings with appendMode := mode } cache (.live w₀)
    let u₀ := start { settings with appendMode := mode' } cache (.live w₀)
    Performs script t₀ xs → Performs script u₀ ys →
      Agreement t₀ u₀ xs ys ∧ ∃ recorded : List (Nat × Ledger.Transaction),
        (u₀.run ys).service.snapshot.later.map Ledger.Block.transaction =
            recorded.map Prod.snd ∧
          (recorded.map Prod.fst).Pairwise (· < ·) ∧
          ∀ e ∈ recorded, (u₀.run ys).IsEvent e.1 e.2 := by
  intro t₀ u₀ ht hu
  have hplays := plays_felt ht.scripted (LastBusy.start _ _ _) ht.rested.calls
  have hplays' := plays_felt hu.scripted (LastBusy.start _ _ _) hu.rested.calls
  have hfelt : felt t₀ xs = felt u₀ ys := by
    refine hplays.unique hplays' ?_
    rw [operations_felt, operations_felt, ht.operations, hu.operations]
  have hturn : Along InTurn u₀ ys := along_mono (fun _ _ => inTurn_of_scripted) hu.scripted
  refine ⟨agreement_of_felt hstart ht.toCompleted hu.toCompleted hfelt (ht.fates.trans hu.fates.symm),
    ?_⟩
  exact recorded_in_turn hstart hu.isPrivate hu.rested.calls hu.waits_eq hturn

/-- Whether the ledger's writer is free for its appends, and has no work to prove. -/
def isReady (t : Traffic) : Bool :=
  match t.service.ledger with
  | .live w => w.isReady
  | _ => false

/-- The traffic after the oldest append has been sealed. -/
def sealFirst (t : Traffic) : Traffic :=
  match t.service.ledger with
  | .live w => { t with service.ledger := .live (w.sealFirst default 0) }
  | _ => t

/-- The writer takes its oldest request, finds the block and pushes it. -/
def sealingTurn : List Event := [.receive default, .search false 0, .push].map .ledger

theorem run_sealingTurn {t : Traffic} (h : t.isReady = true) : t.run sealingTurn = t.sealFirst := by
  unfold isReady at h
  split at h
  · rename_i w hledger
    rw [sealingTurn, run_ledger hledger, Writer.run_sealFirst h, sealFirst, hledger]
  · cases h

theorem run_around_sealing {t₀ : Traffic} {before : List Event}
    (h : (t₀.run before).isReady = true) (after : List Event) :
    t₀.run (before ++ sealingTurn ++ after) = (t₀.run before).sealFirst.run after := by
  rw [run_append, run_append, run_sealingTurn h]

theorem Performs.around_sealing {script : Script} {t₀ : Traffic} {before after : List Event}
    (hready : (t₀.run before).isReady = true)
    (hoperations : (before ++ sealingTurn ++ after).filterMap Event.operation? = script.operations)
    (hprivate : ∀ e ∈ before ++ sealingTurn ++ after, e.isPrivate = true)
    (hbefore : Along (Scripted script.conditions) t₀ before ∧
      Along (Indexed script.faults) t₀ before)
    (hafter : Along (Scripted script.conditions) (t₀.run before).sealFirst after ∧
      Along (Indexed script.faults) (t₀.run before).sealFirst after)
    (hfates : (attempts t₀ before ++ attempts (t₀.run before).sealFirst after).map (fun a =>
      (a.verdict ((t₀.run before).sealFirst.run after).service.ledger).fate) = script.fates)
    (hcalls : ((t₀.run before).sealFirst.run after).clients.all (·.call.isDone) = true)
    (htasks : ((t₀.run before).sealFirst.run after).service.background.length = 0) :
    Performs script t₀ (before ++ sealingTurn ++ after) := by
  have hsealed : t₀.run (before ++ sealingTurn) = (t₀.run before).sealFirst := by
    rw [run_append, run_sealingTurn hready]
  have hattempts : attempts t₀ (before ++ sealingTurn ++ after) =
      attempts t₀ before ++ attempts (t₀.run before).sealFirst after := by
    rw [attempts, observed_append, observed_append, hsealed]
    exact congrArg (· ++ _) (List.append_nil _)
  refine ⟨⟨hprivate, ?_, ?_⟩, hoperations, ?_, ?_⟩
  · rw [along_append, along_append, hsealed]
    exact ⟨⟨hbefore.2, trivial, trivial, trivial, trivial⟩, hafter.2⟩
  · rw [run_around_sealing hready]
    exact ⟨List.all_eq_true.1 hcalls, List.length_eq_zero_iff.1 htasks⟩
  · rw [along_append, along_append, hsealed]
    exact ⟨⟨hbefore.1, trivial, trivial, trivial, trivial⟩, hafter.1⟩
  · rw [verdicts, hattempts, run_around_sealing hready, List.map_map]
    exact hfates

/-- Neither the cache nor the indexer can be reached. -/
def stormy : Conditions :=
  { calm with
    cache := some (.unavailable "no route")
    index := some (.unavailable "no route") }

/-- A creation, and a vote that the cache fails. Its block is not found. -/
def foundAndVote : Script where
  operations := [(.create bikeLanes (.ofNat 1), default),
    (.vote ⟨.ofNat 2, .ofNat 1, "favor", .ofNat 11⟩, default)]
  conditions n _ := if n = 0 then calm else stormy
  fates := [none, some (.sealing .aborted)]
  faults _ := stormy.index

/-- A call of the script, and so many steps of it. -/
def calling (client steps : Nat) : List Event :=
  (foundAndVote.operations[client]?.map fun x => Event.arrive x.1 x.2).toList ++
    List.replicate steps (.advance client (if client = 0 then calm else stormy))

/-- The next search is broken off. -/
def breakdown : List Event := [.receive default, .search true 0].map .ledger

theorem append_modes_agree_delayed :
    ∃ w₀, Writer.start ⟨0, 16, "Genesis block"⟩ default default 0 = .ok w₀ ∧
      let t₀ := start { Settings.standard with appendMode := .inline } .standard (.live w₀)
      let u₀ := start { Settings.standard with appendMode := .background } .standard (.live w₀)
      let xs := calling 0 3 ++ sealingTurn ++ (List.replicate 2 (.advance 0 calm) ++ calling 1 4 ++
        breakdown ++ List.replicate 4 (.advance 1 stormy) ++ [.work 0 stormy])
      let ys := calling 0 4 ++ calling 1 7 ++ sealingTurn ++
        (breakdown ++ List.replicate 3 (.work 0 stormy))
      Performs foundAndVote t₀ xs ∧ Performs foundAndVote u₀ ys ∧
        (u₀.run ys).service.snapshot.size = 2 ∧
        ["ledger", "cache", "index"].map (u₀.run ys).service.metrics.degraded.count = [1, 2, 1] ∧
        Agreement t₀ u₀ xs ys ∧ ∃ recorded : List (Nat × Ledger.Transaction),
          (u₀.run ys).service.snapshot.later.map Ledger.Block.transaction =
              recorded.map Prod.snd ∧
            (recorded.map Prod.fst).Pairwise (· < ·) ∧
            ∀ e ∈ recorded, (u₀.run ys).IsEvent e.1 e.2 := by
  let first := (Ledger.Template.genesis 0 "Genesis block" default default).proved 0
  let w₀ : Writer := ⟨⟨first, []⟩, Ledger.Metrics.zero.recordSealed (UInt64.ofNat 1) 0, [], 16,
    .idle, true, 0, [], []⟩
  have hstart : Writer.start ⟨0, 16, "Genesis block"⟩ default default 0 = .ok w₀ :=
    Writer.start_zero "Genesis block" default default 0 (by decide) (by decide)
  refine ⟨w₀, hstart, ?_⟩
  intro t₀ u₀ xs ys
  have hready : (t₀.run (calling 0 3)).isReady = true := by decide +kernel
  have hready' : (u₀.run (calling 0 4 ++ calling 1 7)).isReady = true := by decide +kernel
  have ht : Performs foundAndVote t₀ xs := by
    refine .around_sealing hready (by decide) (by decide) ?_ ?_ ?_ ?_ ?_
    all_goals decide +kernel
  have hu : Performs foundAndVote u₀ ys := by
    refine .around_sealing hready' (by decide) (by decide) ?_ ?_ ?_ ?_ ?_
    all_goals decide +kernel
  have hend : (u₀.run ys).service.snapshot.size = 2 ∧
      ["ledger", "cache", "index"].map (u₀.run ys).service.metrics.degraded.count = [1, 2, 1] := by
    rw [run_around_sealing hready']
    decide +kernel
  exact ⟨ht, hu, hend.1, hend.2,
    append_modes_agree hstart .standard .standard .inline .background foundAndVote ht hu⟩

end Traffic

end AuditedPetitions
