import AuditedPetitions.Proofs.Petition.Freshness
import AuditedPetitions.Proofs.Petition.Tallies

/-! Transparent caching. When calls follow each other and no invalidation fails, a read is answered as
the store would answer it, whatever the cache holds, forgets or fails to do. Two things show the cache
to a reader: a lifetime that the cache's clock cannot hold ends the read that fills the entry, and a
time that its written form does not tell comes out of the cache as the one that is read for it. -/

namespace AuditedPetitions

/-- The store's own answer, as a caller gets it. -/
def Query.direct (q : Query) (s : Store) : Answer := (q.answer s).mapRefusal PetitionError.ofStore

/-- What a read asks the store for, once its request is accepted. -/
def Demand.query? (config : Pagination) : Demand → Option Query
  | .get id => some (.petition id)
  | .list limit offset =>
    match PageRequest.resolve limit offset config with
    | .ok request => some request.query
    | .error _ => none
  | .create .. | .vote _ | .delete _ => none

namespace Call

def isDone : Call → Bool
  | .done _ => true
  | _ => false

theorem isDone_iff {call : Call} : call.isDone = true ↔ ∃ answer, call = .done answer := by
  cases call <;> simp [isDone]

theorem isDone_of_cost {call : Call} (h : call.cost = 0) : call.isDone = true := by
  cases call with
  | done answer => rfl
  | settle effects reply =>
    induction effects with
    | nil => cases h
    | cons e effects ih =>
      simp only [cost, List.foldr_cons, Nat.add_eq_zero_iff] at h
      exact absurd (ih h.2) Bool.false_ne_true
  | _ => cases h

/-- Whether a fill would end after the last moment of the cache's clock. -/
def overruns (s : Service) (c : Conditions) : Call → Bool
  | .fill q _ _ =>
    c.cache.isNone && Cache.clockEnd ≤ c.moment + Cache.seconds (q.ttl s.cacheConfig c.draw)
  | _ => false

/-- Whether the next step finds an answer in the cache. -/
def hits (s : Service) (c : Conditions) : Call → Bool
  | .look q key => ((s.cache.lookup c.backend q.codec key).1 matches .hit _)
  | _ => false

/-- The call reads for a query, and if it is done it has the store's own answer. -/
def Reads (q : Query) (s : Store) : Call → Prop
  | .look r _ | .load r _ | .fill r _ _ => r = q
  | .done answer => answer = q.direct s
  | _ => False

end Call

theorem Query.direct_of_answer {q : Query} {s : Store} {reply : Reply}
    (h : q.answer s = .ok reply) : q.direct s = .ok reply := by
  rw [direct, h]
  rfl

theorem Query.direct_ne_arithmetic (q : Query) (s : Store) (fault : ArithmeticFault) :
    q.direct s ≠ .error (.arithmetic fault) := by
  rw [direct]
  cases h : q.answer s with
  | error f =>
    obtain ⟨e, rfl⟩ := answer_refused h
    simp [Outcome.mapRefusal]
  | ok reply => simp [Outcome.mapRefusal]

theorem Cache.fill_outcome {c : Cache ExpiringMap} {now : Nat} {fault : Option Error}
    {codec : Codec Reply} {key : String} {reply : Reply} {ttl : Nat} :
    (c.fill (ExpiringMap.backend now fault) codec key reply ttl).1 =
      if fault.isNone && clockEnd ≤ now + ttl then .error .expiryOverflow else .ok () := by
  cases fault with
  | none =>
    by_cases hrange : now + ttl < clockEnd
    · have hle : ¬ clockEnd ≤ now + ttl := by omega
      simp [fill, ExpiringMap.backend, hrange, hle]
    · have hle : clockEnd ≤ now + ttl := by omega
      simp [fill, ExpiringMap.backend, hrange, hle]
  | some e => rfl

namespace Service

variable {s s' : Service} {c : Conditions} {call next : Call} {q : Query}

/-- A read goes on as a read, unless the cache answers it or its fill overruns the clock. -/
theorem Moves.reads (h : s.Moves c call s' next) (hs : s.Coherent c.moment call) (hc : c.Suits call)
    (hr : call.Reads q s.store) (hmiss : call.hits s c = false)
    (hfits : call.overruns s c = false) : next.Reads q s.store := by
  cases h with
  | refused h =>
    cases h with
    | @load r key f answer =>
      subst hr
      rw [Conditions.atStore, show c.store = none from hc] at answer
      exact congrArg (Outcome.mapRefusal PetitionError.ofStore) answer.symm
    | _ => exact hr.elim
  | written h => cases h <;> exact hr.elim
  | passed h => cases h <;> exact hr.elim
  | ended h => cases h <;> exact hr.elim
  | performed => exact hr.elim
  | replied h => exact hr.elim
  | fetched h =>
    cases h with
    | hit found => simp [Call.hits, found] at hmiss
    | miss found => exact hr
    | load answer =>
      subst hr
      exact (Query.direct_of_answer (Conditions.atStore_eq_ok.1 answer).2).symm
    | keep answer => exact hr
    | fill stored =>
      subst hr
      exact (Query.direct_of_answer hs.carries.2).symm
    | overrun stored =>
      have hout := Cache.fill_outcome.symm.trans stored
      simp only [Call.overruns] at hfits
      rw [hfits] at hout
      cases hout
  | rest => exact hr

theorem Moves.of_hits (h : s.Moves c call s' next) (hs : s.Coherent c.moment call)
    (hr : call.Reads q s.store) (hhit : call.hits s c = true) :
    next = .done ((q.direct s.store).map Reply.asRead) := by
  cases h with
  | refused h => cases h <;> cases hhit
  | written h => cases h <;> cases hhit
  | passed h => cases h <;> cases hhit
  | ended h => cases h <;> cases hhit
  | performed => cases hhit
  | replied h => cases hhit
  | fetched h =>
    cases h with
    | hit found =>
      subst hr
      obtain ⟨stored, hanswer, rfl⟩ := hs.fresh.hit hs.carries id found
      rw [Query.direct_of_answer hanswer]
      rfl
    | miss found =>
      simp only [Call.hits] at hhit
      cases hhit
    | _ => cases hhit
  | rest => cases hhit

theorem Moves.of_overruns (h : s.Moves c call s' next) (hover : call.overruns s c = true) :
    next = .done (.error (.arithmetic .expiryOverflow)) := by
  cases h with
  | refused h => cases h <;> cases hover
  | written h => cases h <;> cases hover
  | passed h => cases h <;> cases hover
  | ended h => cases h <;> cases hover
  | performed => cases hover
  | replied h => cases hover
  | fetched h =>
    cases h with
    | fill stored =>
      have hout := Cache.fill_outcome.symm.trans stored
      simp only [Call.overruns] at hover
      rw [hover] at hout
      cases hout
    | overrun stored =>
      have hout := Cache.fill_outcome.symm.trans stored
      simp only [Call.overruns] at hover
      rw [hover] at hout
      cases hout
      rfl
    | _ => cases hover
  | rest => cases hover

theorem Moves.reading {store : Store} (h : s.Moves c call s' next) (hr : call.Reads q store) :
    s'.store = s.store ∧ next.cost ≤ call.cost - 1 := by
  cases h with
  | refused h => exact ⟨rfl, Nat.zero_le _⟩
  | written h => cases h <;> exact hr.elim
  | passed h => cases h <;> exact hr.elim
  | ended h => cases h <;> exact hr.elim
  | performed => exact hr.elim
  | replied h => exact ⟨rfl, Nat.zero_le _⟩
  | fetched h => cases h <;> exact ⟨rfl, by simp [Call.cost]⟩
  | rest => exact ⟨rfl, Nat.zero_le _⟩

theorem settings_perform (s : Service) (c : Conditions) (e : Effect) :
    (s.perform c e).1.settings = s.settings := by
  cases e with
  | record d => exact (keeps_record s c d).settings
  | awaitSeal pending description =>
    simp only [perform]
    split
    · rfl
    · exact (keeps_noteReply ..).settings
  | dropPetition id =>
    simp only [perform]
    split <;> rfl
  | findListings =>
    simp only [perform]
    split <;> rfl
  | dropListings keys =>
    simp only [perform]
    split <;> rfl

theorem Moves.settings (h : s.Moves c call s' next) : s'.settings = s.settings := by
  cases h with
  | written h => cases h <;> rfl
  | ended h => exact (keeps_closeVote ..).settings
  | performed => exact settings_perform ..
  | _ => rfl

end Service

namespace Demand

theorem start_carries (d : Demand) (s : Service) (now : Instant)
    (hpositive : s.settings.pagination.Positive) : (d.start s now).Carries s.store := by
  cases d with
  | create request id =>
    simp only [start, Service.startCreate]
    split <;> trivial
  | vote b =>
    simp only [start, Service.startVote]
    split <;> trivial
  | delete id => trivial
  | get id => rfl
  | list limit offset =>
    rw [start, Service.startList_eq]
    split
    · trivial
    · rename_i request hrequest
      cases hkey : request.cacheKey? with
      | none => exact fun _ hk => by cases hk
      | some key => exact PageRequest.resolve_hasKey hpositive hrequest hkey

theorem start_reads {d : Demand} {s : Service} {q : Query}
    (hq : d.query? s.settings.pagination = some q) (now : Instant) :
    (d.start s now).Reads q s.store ∧ (d.start s now).cost ≤ 3 := by
  cases d with
  | get id =>
    cases hq
    exact ⟨rfl, Nat.le_refl 3⟩
  | list limit offset =>
    rw [start, Service.startList_eq]
    simp only [query?] at hq
    split at hq
    · rename_i request hrequest
      cases hq
      rw [hrequest]
      cases hkey : request.cacheKey? with
      | none => simp [hkey, Call.Reads, Call.cost]
      | some key => simp [hkey, Call.Reads, Call.cost]
    · cases hq
  | create request id => cases hq
  | vote b => cases hq
  | delete id => cases hq

end Demand

namespace Traffic

def Event.moment? : Event → Option Nat
  | .advance _ c => some c.moment
  | _ => none

/-- A condition that holds of every event of a run, in the traffic that it meets. -/
def Along (p : Traffic → Event → Prop) (t : Traffic) : List Event → Prop
  | [] => True
  | e :: events => p t e ∧ Along p (t.step e) events

instance decidableAlong {p : Traffic → Event → Prop} [∀ t e, Decidable (p t e)] :
    ∀ t events, Decidable (Along p t events)
  | _, [] => .isTrue trivial
  | t, e :: events =>
    have := decidableAlong (p := p) (t.step e) events
    inferInstanceAs (Decidable (p t e ∧ Along p (t.step e) events))

theorem along_append {p : Traffic → Event → Prop} {t : Traffic} {xs ys : List Event} :
    Along p t (xs ++ ys) ↔ Along p t xs ∧ Along p (t.run xs) ys := by
  induction xs generalizing t with
  | nil => simp [Along, run]
  | cons e xs ih =>
    rw [List.cons_append, Along, Along, ih, and_assoc]
    rfl

/-- Calls follow each other, the store stays and answers what is read from it, and no invalidation
fails. Background work and the ledger go their own way. -/
def Allowed (t : Traffic) : Event → Prop
  | .arrive .. => ∀ client ∈ t.clients, client.call.isDone = true
  | .advance n c => ∀ client ∈ t.clients[n]?, c.Suits client.call
  | .switchStore _ => False
  | .work .. | .ledger _ => True

instance (t : Traffic) : ∀ e, Decidable (Allowed t e)
  | .arrive .. => inferInstanceAs (Decidable (∀ client ∈ t.clients, client.call.isDone = true))
  | .advance n c => inferInstanceAs (Decidable (∀ client ∈ t.clients[n]?, c.Suits client.call))
  | .switchStore _ => .isFalse id
  | .work .. | .ledger _ => .isTrue trivial

/-- One call after the other, on a clock that never goes back, with fresh identifiers. -/
structure Sequential (t : Traffic) (events : List Event) : Prop where
  fresh : (drawn events).Nodup
  clock : (events.filterMap Event.moment?).Pairwise (· ≤ ·)
  allowed : Along Allowed t events

theorem Sequential.init {t : Traffic} {xs ys : List Event} (h : Sequential t (xs ++ ys)) :
    Sequential t xs where
  fresh := by
    have hfresh := h.fresh
    simp only [drawn, List.filterMap_append, List.nodup_append] at hfresh
    exact hfresh.1
  clock := by
    have hclock := h.clock
    rw [List.filterMap_append, List.pairwise_append] at hclock
    exact hclock.1
  allowed := (along_append.1 h.allowed).1

/-- What holds between the calls of a sequential run, and of the call that is under way. -/
structure Orderly (t : Traffic) (now : Nat) : Prop where
  finished : ∀ n client, t.clients[n]? = some client → n + 1 < t.clients.length →
    client.call.isDone = true
  idle : t.clients = [] → Fresh t.service.store t.service.cache.state now fun _ => False
  current : ∀ n client, t.clients[n]? = some client → n + 1 = t.clients.length →
    t.service.Coherent now client.call

theorem keeps_work (s : Service) (n : Nat) (c : Conditions) : s.Keeps (work s n c) := by
  unfold work
  split
  · exact ⟨rfl, rfl⟩
  · rename_i task _
    have hkept := Service.keeps_runTask { s with background := s.background.eraseIdx n } c task
    exact ⟨hkept.settings, hkept.cache⟩

theorem settings_step (t : Traffic) (e : Event) :
    (t.step e).service.settings = t.service.settings := by
  cases e with
  | arrive d now => rfl
  | advance n c =>
    simp only [step, advance]
    split
    · rfl
    · exact (Service.moves_step ..).settings
  | switchStore available => rfl
  | work n c => exact (keeps_work t.service n c).settings
  | ledger action => rfl

theorem settings_run (t : Traffic) (events : List Event) :
    (t.run events).service.settings = t.service.settings := by
  induction events using List.reverseRecOn with
  | nil => rfl
  | append_singleton events e ih => rw [run_concat, settings_step, ih]

theorem advance_of_isDone {t : Traffic} {n : Nat} {client : Client}
    (h : t.clients[n]? = some client) (hdone : client.call.isDone = true) (c : Conditions) :
    t.advance n c = t := by
  obtain ⟨answer, hanswer⟩ := Call.isDone_iff.1 hdone
  obtain ⟨hn, rfl⟩ := List.getElem?_eq_some_iff.1 h
  have hsame : (⟨t.clients[n].demand, .done answer⟩ : Client) = t.clients[n] := by rw [← hanswer]
  simp only [advance, h, hanswer, Service.step, hsame, List.set_getElem_self]

theorem advance_of_found {t : Traffic} {n : Nat} {client : Client}
    (h : t.clients[n]? = some client) (c : Conditions) :
    t.advance n c = ⟨(t.service.step c client.call).1,
      t.clients.set n ⟨client.demand, (t.service.step c client.call).2⟩⟩ := by
  simp only [advance, h]

namespace Orderly

variable {t : Traffic} {now : Nat}

theorem later (h : Orderly t now) {next : Nat} (hle : now ≤ next) : Orderly t next where
  finished := h.finished
  idle hnil := (h.idle hnil).later hle
  current n client hn hlast :=
    ⟨(h.current n client hn hlast).fresh.later hle, (h.current n client hn hlast).carries⟩

theorem aside (h : Orderly t now) {s : Service} (hstore : s.store = t.service.store)
    (hcache : s.cache = t.service.cache) : Orderly ⟨s, t.clients⟩ now where
  finished := h.finished
  idle hnil := by
    rw [hstore, hcache]
    exact h.idle hnil
  current n client hn hlast := by
    refine ⟨?_, hstore ▸ (h.current n client hn hlast).carries⟩
    rw [hstore, hcache]
    exact (h.current n client hn hlast).fresh

theorem rested (h : Orderly t now) (hdone : ∀ client ∈ t.clients, client.call.isDone = true) :
    Fresh t.service.store t.service.cache.state now fun _ => False := by
  cases hlength : t.clients.length with
  | zero => exact h.idle (List.eq_nil_of_length_eq_zero hlength)
  | succ n =>
    have hn : n < t.clients.length := by omega
    have hcurrent := (h.current n t.clients[n] (List.getElem?_eq_getElem hn) hlength.symm).fresh
    obtain ⟨answer, hanswer⟩ := Call.isDone_iff.1 (hdone _ (List.getElem_mem hn))
    rw [hanswer] at hcurrent
    exact hcurrent

theorem arrive (h : Orderly t now) (hdone : ∀ client ∈ t.clients, client.call.isDone = true)
    (hpositive : t.service.settings.pagination.Positive) (d : Demand) (time : Instant) :
    Orderly (t.step (.arrive d time)) now where
  finished n client hn hlast := by
    simp only [step, List.length_append, List.length_singleton] at hn hlast
    rw [List.getElem?_append_left (by omega)] at hn
    exact hdone client (List.mem_of_getElem? hn)
  idle hnil := by simp [step] at hnil
  current n client hn hlast := by
    simp only [step, List.length_append, List.length_singleton, Nat.add_right_cancel_iff]
      at hn hlast
    subst hlast
    rw [List.getElem?_concat_length, Option.some.injEq] at hn
    subst hn
    exact ⟨(h.rested hdone).widen fun _ => False.elim, d.start_carries t.service time hpositive⟩

theorem advance {c : Conditions} (h : Orderly t c.moment)
    (hb : Balanced t.service.store t.clients) (n : Nat)
    (hc : ∀ client ∈ t.clients[n]?, c.Suits client.call) : Orderly (t.advance n c) c.moment := by
  cases hclient : t.clients[n]? with
  | none => simpa only [Traffic.advance, hclient] using h
  | some client =>
    by_cases hlast : n + 1 = t.clients.length
    · rw [advance_of_found hclient]
      have hn : n < t.clients.length := by omega
      have hcoherent := (t.service.moves_step c client.call).coherent
        (h.current n client hclient hlast) (hc client hclient) hb.withinGoals
        fun id hid => hb.new_of_pending (List.mem_of_getElem? hclient) hid
      refine ⟨?_, ?_, ?_⟩
      · intro m other hm hlt
        rw [List.length_set] at hlt
        rw [List.getElem?_set_ne (by omega)] at hm
        exact h.finished m other hm hlt
      · intro hnil
        rw [List.set_eq_nil_iff] at hnil
        rw [hnil] at hn
        cases hn
      · intro m other hm hlt
        rw [List.length_set, ← hlast, Nat.add_right_cancel_iff] at hlt
        subst hlt
        rw [List.getElem?_set_self hn, Option.some.injEq] at hm
        subst hm
        exact hcoherent
    · have hlt := (List.getElem?_eq_some_iff.1 hclient).1
      rw [advance_of_isDone hclient (h.finished n client hclient (by omega))]
      exact h

theorem step {e : Event} (h : Orderly t now) (ha : Allowed t e) (hm : ∀ m ∈ e.moment?, m = now)
    (hb : Balanced t.service.store t.clients)
    (hpositive : t.service.settings.pagination.Positive) : Orderly (t.step e) now := by
  cases e with
  | arrive d time => exact h.arrive ha hpositive d time
  | advance n c =>
    obtain rfl : c.moment = now := hm c.moment rfl
    exact h.advance hb n ha
  | switchStore available => exact ha.elim
  | work n c => exact h.aside (store_work ..) (keeps_work ..).cache
  | ledger action => exact h.aside rfl rfl

end Orderly

theorem Sequential.reached {t : Traffic} {events : List Event} {e : Event}
    (h : Sequential t (events ++ [e])) {now : Nat}
    (hnow : ∀ m ∈ (events ++ [e]).filterMap Event.moment?, m ≤ now) :
    ∃ moment ≤ now, (∀ m ∈ events.filterMap Event.moment?, m ≤ moment) ∧
      ∀ m ∈ e.moment?, m = moment := by
  rw [List.filterMap_append] at hnow
  cases hmoment : e.moment? with
  | none => exact ⟨now, Nat.le_refl now, fun m hm => hnow m (List.mem_append_left _ hm), by simp⟩
  | some moment =>
    have hclock := h.clock
    rw [List.filterMap_append, List.pairwise_append] at hclock
    have hlast : moment ∈ [e].filterMap Event.moment? := by simp [hmoment]
    refine ⟨moment, hnow moment (List.mem_append_right _ hlast), ?_, by simp⟩
    exact fun m hm => hclock.2.2 m hm moment hlast

theorem orderly_run {settings : Settings} {cache : CacheConfig} {ledger : Ledger.Peer}
    {events : List Event} (hpositive : settings.pagination.Positive)
    (h : Sequential (start settings cache ledger) events) {now : Nat}
    (hnow : ∀ m ∈ events.filterMap Event.moment?, m ≤ now) :
    Orderly ((start settings cache ledger).run events) now := by
  induction events using List.reverseRecOn generalizing now with
  | nil =>
    have hnone (n : Nat) (client : Client) :
        ((start settings cache ledger).run []).clients[n]? ≠ some client := by simp [run, start]
    exact ⟨fun n client hn => absurd hn (hnone n client), fun _ => Fresh.empty,
      fun n client hn => absurd hn (hnone n client)⟩
  | append_singleton events e ih =>
    have hb := balanced_run settings cache ledger events h.init.fresh
    have ha := (along_append.1 h.allowed).2.1
    have hsettings : ((start settings cache ledger).run events).service.settings = settings :=
      settings_run ..
    obtain ⟨moment, hle, hbefore, hmoment⟩ := h.reached hnow
    rw [run_concat]
    refine ((ih h.init hbefore).step ha hmoment hb ?_).later hle
    rw [hsettings]
    exact hpositive

def Event.advances (n : Nat) : Event → Bool
  | .advance m _ => m = n
  | _ => false

/-- No step of a client's call passes a test. -/
def Spares (test : Service → Conditions → Call → Bool) (n : Nat) (t : Traffic) : Event → Prop
  | .advance m c => m = n → ∀ client ∈ t.clients[n]?, test t.service c client.call = false
  | _ => True

instance (test : Service → Conditions → Call → Bool) (n : Nat) (t : Traffic) :
    ∀ e, Decidable (Spares test n t e)
  | .advance m c => inferInstanceAs (Decidable
      (m = n → ∀ client ∈ t.clients[n]?, test t.service c client.call = false))
  | .arrive .. | .switchStore _ | .work .. | .ledger _ => .isTrue trivial

/-- The clock of the cache holds whatever the call of a client stores. -/
abbrev InRange (n : Nat) : Traffic → Event → Prop := Spares Call.overruns n

/-- The call of a client finds no answer in the cache. -/
abbrev Misses (n : Nat) : Traffic → Event → Prop := Spares Call.hits n

theorem spares_of_found (test : Service → Conditions → Call → Bool) {n : Nat} {t : Traffic}
    {client : Client} (h : t.clients[n]? = some client) (c : Conditions) :
    Spares test n t (.advance n c) ↔ test t.service c client.call = false := by
  simp [Spares, h]

/-- Where a read stands: it goes on or has the store's answer, or what the cache has kept of that, or
it has failed. -/
def Call.Stands (q : Query) (store : Store) (inRange missed : Prop) (call : Call) : Prop :=
  (inRange ∧ missed ∧ call.Reads q store) ∨
    (inRange ∧ ¬ missed ∧ call = .done ((q.direct store).map Reply.asRead)) ∨
      (¬ inRange ∧ call = .done (.error (.arithmetic .expiryOverflow)))

/-- A read by the last client that has taken some steps, and what its fills and lookups came to. -/
structure Serving (d : Demand) (q : Query) (store : Store) (n : Nat) (t : Traffic)
    (inRange missed : Prop) (steps : Nat) : Prop where
  last : n + 1 = t.clients.length
  store_eq : t.service.store = store
  reads : ∃ client, t.clients[n]? = some client ∧ client.demand = d ∧
    client.call.cost ≤ 3 - steps ∧ Call.Stands q store inRange missed client.call

namespace Serving

variable {d : Demand} {q : Query} {store : Store} {n : Nat} {t : Traffic} {inRange missed : Prop}
  {steps : Nat}

theorem congr (h : Serving d q store n t inRange missed steps) {inRange' missed' : Prop}
    {steps' : Nat} (hrange : inRange' ↔ inRange) (hmissed : missed' ↔ missed)
    (hsteps : steps' = steps) : Serving d q store n t inRange' missed' steps' := by
  rw [hsteps, propext hrange, propext hmissed]
  exact h

theorem aside (h : Serving d q store n t inRange missed steps) {s : Service}
    (hstore : s.store = t.service.store) :
    Serving d q store n ⟨s, t.clients⟩ inRange missed steps :=
  ⟨h.last, hstore.trans h.store_eq, h.reads⟩

theorem advance_done {c : Conditions} {client : Client} {answer : Answer}
    (h : Serving d q store n t inRange missed steps) (hclient : t.clients[n]? = some client)
    (hdemand : client.demand = d) (hanswer : client.call = .done answer)
    (hstands : Call.Stands q store (inRange ∧ InRange n t (.advance n c))
      (missed ∧ Misses n t (.advance n c)) client.call) :
    Serving d q store n (t.advance n c) (inRange ∧ InRange n t (.advance n c))
      (missed ∧ Misses n t (.advance n c)) (steps + 1) := by
  rw [advance_of_isDone hclient (by rw [hanswer]; rfl)]
  refine ⟨h.last, h.store_eq, client, hclient, hdemand, ?_, hstands⟩
  rw [hanswer]
  exact Nat.zero_le _

theorem advance {c : Conditions} (h : Serving d q store n t inRange missed steps)
    (ho : Orderly t c.moment) (hc : ∀ client ∈ t.clients[n]?, c.Suits client.call) :
    Serving d q store n (t.advance n c) (inRange ∧ InRange n t (.advance n c))
      (missed ∧ Misses n t (.advance n c)) (steps + 1) := by
  obtain ⟨client, hclient, hdemand, hcost, hcall⟩ := h.reads
  have hn := (List.getElem?_eq_some_iff.1 hclient).1
  rcases hcall with ⟨hrange, hmissed, hreads⟩ | ⟨hrange, hmissed, hanswer⟩ | ⟨hrange, hanswer⟩
  · have hmoves := t.service.moves_step c client.call
    have hstep := hmoves.reading hreads
    have hnext : (t.service.step c client.call).2.cost ≤ 3 - (steps + 1) := by omega
    have hcoherent := ho.current n client hclient h.last
    have hin := spares_of_found Call.overruns hclient c
    have hmiss := spares_of_found Call.hits hclient c
    rw [advance_of_found hclient]
    refine ⟨by rw [List.length_set, h.last], hstep.1.trans h.store_eq, ?_⟩
    refine ⟨_, List.getElem?_set_self hn, hdemand, hnext, ?_⟩
    rw [← h.store_eq] at hreads ⊢
    cases hfits : client.call.overruns t.service c with
    | true =>
      refine .inr (.inr ⟨fun hr => ?_, hmoves.of_overruns hfits⟩)
      exact Bool.false_ne_true ((hin.1 hr.2).symm.trans hfits)
    | false =>
      have hrange := And.intro hrange (hin.2 hfits)
      cases hhit : client.call.hits t.service c with
      | true =>
        refine .inr (.inl ⟨hrange, fun hm => ?_, hmoves.of_hits hcoherent hreads hhit⟩)
        exact Bool.false_ne_true ((hmiss.1 hm.2).symm.trans hhit)
      | false =>
        exact .inl ⟨hrange, ⟨hmissed, hmiss.2 hhit⟩,
          hmoves.reads hcoherent (hc client hclient) hreads hhit hfits⟩
  · refine h.advance_done hclient hdemand hanswer (.inr (.inl ⟨⟨hrange, ?_⟩, ?_, hanswer⟩))
    · rw [InRange, spares_of_found Call.overruns hclient, hanswer]
      rfl
    · exact fun hm => hmissed hm.1
  · exact h.advance_done hclient hdemand hanswer (.inr (.inr ⟨fun hr => hrange hr.1, hanswer⟩))

theorem step {now : Nat} {e : Event} (h : Serving d q store n t inRange missed steps)
    (ho : Orderly t now) (hm : ∀ m ∈ e.moment?, m = now) (ha : Allowed t e)
    (halone : e.demand? = none) :
    Serving d q store n (t.step e) (inRange ∧ InRange n t e) (missed ∧ Misses n t e)
      (steps + if e.advances n then 1 else 0) := by
  cases e with
  | arrive d time => cases halone
  | advance m c =>
    obtain rfl : c.moment = now := hm c.moment rfl
    by_cases hmn : m = n
    · subst hmn
      exact (h.advance ho ha).congr Iff.rfl Iff.rfl (by simp [Event.advances])
    · have hsame : t.advance m c = t := by
        cases hclient : t.clients[m]? with
        | none => simp only [Traffic.advance, hclient]
        | some client =>
          have hlt := (List.getElem?_eq_some_iff.1 hclient).1
          have hlast := h.last
          exact advance_of_isDone hclient (ho.finished m client hclient (by omega)) c
      rw [Traffic.step, hsame]
      exact h.congr (and_iff_left fun heq => absurd heq hmn) (and_iff_left fun heq => absurd heq hmn)
        (by simp [Event.advances, hmn])
  | switchStore available => exact ha.elim
  | work m c =>
    exact (h.aside (store_work ..)).congr (and_iff_left trivial) (and_iff_left trivial) rfl
  | ledger action =>
    exact (h.aside (s := { t.service with ledger := t.service.ledger.act action }) rfl).congr
      (and_iff_left trivial) (and_iff_left trivial) rfl

end Serving

theorem serving_run {settings : Settings} {cache : CacheConfig} {ledger : Ledger.Peer}
    (hpositive : settings.pagination.Positive) {before during : List Event} {d : Demand}
    {time : Instant} {q : Query} (hq : d.query? settings.pagination = some q)
    (h : Sequential (start settings cache ledger) (before ++ [.arrive d time] ++ during))
    (halone : during.filterMap Event.demand? = []) {now : Nat}
    (hnow : ∀ m ∈ (before ++ [Event.arrive d time] ++ during).filterMap Event.moment?, m ≤ now) :
    let earlier := (start settings cache ledger).run before
    let arrival := earlier.step (.arrive d time)
    Serving d q arrival.service.store earlier.clients.length (arrival.run during)
      (Along (InRange earlier.clients.length) arrival during)
      (Along (Misses earlier.clients.length) arrival during)
      (during.countP (·.advances earlier.clients.length)) := by
  intro earlier arrival
  have harrival : (start settings cache ledger).run (before ++ [.arrive d time]) = arrival :=
    run_concat ..
  induction during using List.reverseRecOn generalizing now with
  | nil =>
    have hq' : d.query? earlier.service.settings.pagination = some q := by
      rw [settings_run]
      exact hq
    have hreads := Demand.start_reads hq' time
    refine ⟨?_, rfl, ⟨d, d.start earlier.service time⟩, ?_, rfl, hreads.2,
      .inl ⟨trivial, trivial, hreads.1⟩⟩
    · simp [arrival, Traffic.step, run]
    · exact List.getElem?_concat_length
  | append_singleton during e ih =>
    rw [← List.append_assoc] at h hnow
    rw [List.filterMap_append, List.append_eq_nil_iff] at halone
    obtain ⟨moment, -, hbefore, hmoment⟩ := h.reached hnow
    have horderly := orderly_run hpositive h.init hbefore
    have ha := (along_append.1 h.allowed).2.1
    rw [run_append, harrival] at ha horderly
    have hlone : e.demand? = none := by simpa using halone.2
    have hstep := (ih h.init halone.1 hbefore).step horderly hmoment ha hlone
    rw [run_concat]
    refine hstep.congr ?_ ?_ ?_
    · simp [along_append, Along]
    · simp [along_append, Along]
    · simp [List.countP_append, List.countP_singleton]

/-- In a sequential run every read whose request is accepted leaves the store as it is, ends after
three steps of its own at most, and answers in one of three ways. If the cache's clock does not hold
what the read stores, it ends for want of a moment. Else it has the store's own answer if it found none
in the cache, and if it did, what is read for that answer once it is written. So it has the store's own
exactly if nothing it stores overruns the clock, and that answer reads back as itself or was not
cached. -/
theorem reads_transparent (settings : Settings) (cache : CacheConfig) (ledger : Ledger.Peer)
    (hpositive : settings.pagination.Positive) (before during : List Event) (d : Demand)
    (time : Instant) (q : Query) (hq : d.query? settings.pagination = some q)
    (h : Sequential (start settings cache ledger) (before ++ .arrive d time :: during))
    (halone : during.filterMap Event.demand? = []) :
    let earlier := (start settings cache ledger).run before
    let n := earlier.clients.length
    let arrival := earlier.step (.arrive d time)
    let t := arrival.run during
    let direct := q.direct t.service.store
    t.service.store = earlier.service.store ∧
      ∃ client, t.clients[n]? = some client ∧ client.demand = d ∧
        (3 ≤ during.countP (·.advances n) → client.call.isDone = true) ∧
        ∀ answer, client.call = .done answer →
          (¬ Along (InRange n) arrival during → answer = .error (.arithmetic .expiryOverflow)) ∧
          (Along (InRange n) arrival during → Along (Misses n) arrival during → answer = direct) ∧
          (Along (InRange n) arrival during → ¬ Along (Misses n) arrival during →
            answer = direct.map Reply.asRead) ∧
          (answer = direct ↔ Along (InRange n) arrival during ∧
            (Along (Misses n) arrival during ∨ direct.map Reply.asRead = direct)) := by
  intro earlier n arrival t direct
  rw [List.append_cons] at h
  have hserving := serving_run hpositive hq h halone fun m hm => List.le_sum_of_mem hm
  obtain ⟨client, hclient, hdemand, hcost, hcall⟩ := hserving.reads
  have hstore : t.service.store = arrival.service.store := hserving.store_eq
  refine ⟨hserving.store_eq, client, hclient, hdemand, ?_, ?_⟩
  · intro hsteps
    have hspent : client.call.cost ≤ 3 - during.countP (·.advances n) := hcost
    have hzero : client.call.cost = 0 := by omega
    exact Call.isDone_of_cost hzero
  · intro answer hanswer
    rw [hanswer, ← hstore] at hcall
    rcases hcall with ⟨hrange, hmissed, hreads⟩ | ⟨hrange, hmissed, hread⟩ | ⟨hrange, hover⟩
    · have hdirect : answer = direct := hreads
      exact ⟨fun hn => absurd hrange hn, fun _ _ => hdirect, fun _ hn => absurd hmissed hn,
        iff_of_true hdirect ⟨hrange, .inl hmissed⟩⟩
    · have hkept : answer = direct.map Reply.asRead := Call.done.inj hread
      refine ⟨fun hn => absurd hrange hn, fun _ hm => absurd hm hmissed, fun _ _ => hkept, ?_⟩
      rw [hkept]
      exact ⟨fun hsame => ⟨hrange, .inr hsame⟩, fun hsame => hsame.2.resolve_left hmissed⟩
    · obtain rfl : answer = .error (.arithmetic .expiryOverflow) := Call.done.inj hover
      have hne := Query.direct_ne_arithmetic q t.service.store .expiryOverflow
      exact ⟨fun _ => rfl, fun hr => absurd hr hrange, fun hr => absurd hr hrange,
        iff_of_false hne.symm fun hr => hrange hr.1⟩

/-- The call of a client and its steps, all at one moment. -/
def visit (client steps : Nat) (d : Demand) : List Event :=
  .arrive d default ::
    List.replicate steps (.advance client ⟨default, client, 0, none, none, none, none⟩)

/-- A petition is created, read, which puts it into the cache, and voted on. -/
def visits : List Event :=
  let tomorrow := ((Date.of? 1970 1 2).bind (Instant.of? · 0 0 0 0)).getD default
  let petition := Uuid.ofNat 1
  visit 0 4 (.create ⟨.ofNat 9, "Bike lanes", "Protected lanes downtown", 2, tomorrow⟩ petition) ++
    visit 1 3 (.get petition) ++ visit 2 8 (.vote ⟨.ofNat 2, petition, "favor", .ofNat 12⟩)

/-- Steps of the next read. -/
def revisit : List Event :=
  List.replicate 3 (.advance 3 ⟨default, 3, 0, none, none, none, none⟩)

theorem reads_transparent_revisit :
    let d : Demand := .get (.ofNat 1)
    let q : Query := .petition (.ofNat 1)
    let earlier := (start .standard .standard .closed).run visits
    let n := earlier.clients.length
    let arrival := earlier.step (.arrive d default)
    let t := arrival.run revisit
    Settings.standard.pagination.Positive ∧ d.query? Settings.standard.pagination = some q ∧
      Sequential (start .standard .standard .closed) (visits ++ .arrive d default :: revisit) ∧
      revisit.filterMap Event.demand? = [] ∧ Along (InRange n) arrival revisit ∧
      Along (Misses n) arrival revisit ∧
      ∃ client, t.clients[n]? = some client ∧ client.call.isDone = true ∧
        ∀ answer, client.call = .done answer → answer = q.direct t.service.store := by
  intro d q earlier n arrival t
  have hpositive : Settings.standard.pagination.Positive := ⟨by decide, by decide⟩
  have hsequential : Sequential (start .standard .standard .closed)
      (visits ++ .arrive d default :: revisit) :=
    ⟨by decide, by decide, by decide +kernel⟩
  have hrange : Along (InRange n) arrival revisit := by decide +kernel
  have hmissed : Along (Misses n) arrival revisit := by decide +kernel
  have hsteps : 3 ≤ revisit.countP (·.advances n) := by decide +kernel
  have hq : d.query? Settings.standard.pagination = some q := rfl
  have halone : revisit.filterMap Event.demand? = [] := rfl
  obtain ⟨-, client, hclient, -, hdone, hanswer⟩ := reads_transparent .standard .standard .closed
    hpositive visits revisit d default q hq hsequential halone
  exact ⟨hpositive, hq, hsequential, halone, hrange, hmissed, client, hclient, hdone hsteps,
    fun answer h => (hanswer answer h).2.1 hrange hmissed⟩

/-- With a lifetime beyond the clock's end the first read fails, though the petition is there. -/
example :
    let cache : CacheConfig := { CacheConfig.standard with petitionTtl := 18446744073709551615 }
    let t := (start .standard cache .closed).run (visits.take 9)
    (t.clients[1]?.any (·.call matches .done (.error (.arithmetic .expiryOverflow)))) = true ∧
      (t.service.store.raw (.ofNat 1)).isSome = true := by decide +kernel

end Traffic

end AuditedPetitions
