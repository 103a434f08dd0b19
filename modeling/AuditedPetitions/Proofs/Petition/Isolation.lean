import AuditedPetitions.Proofs.Petition.Duties

/-! Isolation of failures. What happens to petitions and votes is decided by the store, the clock and
the callers alone: behind every run stands a bare machine that knows nothing else, and two runs that
ask the same of their stores have the same bare machine behind them. Ledger, cache and index show in
what is reported, once for each failure. -/

namespace AuditedPetitions

/-- What a run is asked for and what it asks the store for. -/
inductive Ask
  | arrive (demand : Demand) (now : Instant)
  | store (client : Nat) (now : Instant) (fault : Option StoreError)
  | switch (available : Bool)
  deriving DecidableEq

namespace Call

/-- Whether the next step of a write asks the store. -/
def asks : Call → Bool
  | .create .. | .delete _ | .preflight _ | .examine _ | .commit .. => true
  | .settle .. | .look .. | .load .. | .fill .. | .done _ => false

/-- Place of a write as far as the store is concerned: once committed, it is at its answer. -/
def standing : Call → Call
  | .settle _ reply => .done (.ok reply)
  | call => call

/-- Answer that a call has given or, if it has been committed, will give. -/
def outcome? : Call → Option Answer
  | .settle _ reply => some (.ok reply)
  | .done answer => some answer
  | _ => none

theorem outcome?_standing (call : Call) : call.standing.outcome? = call.outcome? := by
  cases call <;> rfl

/-- What the store makes of a write, without any collaborator. -/
def decide (s : Store) (now : Instant) (fault : Option StoreError) : Call → Store × Call
  | .create request id =>
    let p := Petition.ofRequest request id now
    match fault.elim (s.create p) refuse with
    | .error f => (s, .done (Service.failed f))
    | .ok store => (store, .done (.ok (.petition p)))
  | .delete id =>
    match fault.elim (s.delete id now) refuse with
    | .error f => (s, .done (Service.failed f))
    | .ok store => (store, .done (.ok .deleted))
  | .preflight b =>
    match fault.elim (s.hasVoted b.voter b.petition) refuse with
    | .error f => (s, .done (Service.failed f))
    | .ok true => (s, .done (refuse .alreadyVoted))
    | .ok false => (s, .examine b)
  | .examine b =>
    match fault.elim (s.getById b.petition) refuse with
    | .error f => (s, .done (Service.failed f))
    | .ok p =>
      match p.admit b.type now with
      | .error f => (s, .done (.error f))
      | .ok type => (s, .commit b type)
  | .commit b type =>
    let v : Vote := ⟨b.id, b.voter, b.petition, type, now⟩
    match fault.elim (s.vote v now) refuse with
    | .error f => (s, .done (Service.failed f))
    | .ok store => (store, .done (.ok (.vote v)))
  | call => (s, call)

end Call

theorem Conditions.atStore_eq {α : Type} (c : Conditions) (answer : Outcome StoreError α) :
    c.atStore answer = c.store.elim answer refuse := by
  unfold atStore
  cases c.store <;> rfl

namespace Service

variable {s s' : Service} {c : Conditions} {d : Demand} {call next : Call}

/-- A step that asks the store does to it, and comes to, what the store makes of the write. -/
theorem Moves.decides (h : s.Moves c call s' next) (hasks : call.asks = true) :
    (s'.store, next.standing) = call.decide s.store c.now c.store := by
  cases h with
  | refused h =>
    cases h with
    | create answer | delete answer =>
      rw [c.atStore_eq] at answer
      simp only [Call.decide, answer]
      rfl
    | load answer => cases hasks
  | written h =>
    cases h with
    | create made answer | vote made answer =>
      subst made
      rw [c.atStore_eq] at answer
      simp only [Call.decide, answer]
      rfl
    | delete answer =>
      rw [c.atStore_eq] at answer
      simp only [Call.decide, answer]
      rfl
  | passed h =>
    cases h with
    | preflight answer =>
      rw [c.atStore_eq] at answer
      simp only [Call.decide, answer]
      rfl
    | examine answer admits =>
      rw [c.atStore_eq] at answer
      simp only [Call.decide, answer, admits]
      rfl
  | ended h =>
    rw [store_closeVote]
    cases h with
    | unchecked answer | unread answer | unwritten answer =>
      rw [c.atStore_eq] at answer
      rw [map_mapRefusal]
      simp only [Call.decide, answer]
      rfl
    | voted answer =>
      rw [c.atStore_eq] at answer
      simp only [Call.decide, answer]
      rfl
    | unfit answer admits =>
      rw [c.atStore_eq] at answer
      simp only [Call.decide, answer, admits]
      rfl
    | settled => cases hasks
  | performed | replied | rest => cases hasks
  | fetched h => cases h <;> cases hasks

theorem Moves.standing (h : s.Moves c call s' next) (hf : call.Follows d)
    (hasks : call.asks = false) :
    s'.store = s.store ∧ (d.isWrite = true → next.standing = call.standing) := by
  cases h with
  | refused h =>
    cases h with
    | load answer =>
      exact ⟨rfl, fun hwrite => absurd (hf.symm.trans hwrite) Bool.false_ne_true⟩
    | _ => cases hasks
  | written h => cases h <;> cases hasks
  | passed h => cases h <;> cases hasks
  | ended h =>
    cases h with
    | settled => exact ⟨store_closeVote .., fun _ => rfl⟩
    | _ => cases hasks
  | performed => exact ⟨store_perform .., fun _ => rfl⟩
  | fetched h =>
    refine ⟨rfl, fun hwrite => ?_⟩
    exact absurd ((h.follows hf).1.symm.trans hwrite) Bool.false_ne_true
  | replied | rest => exact ⟨rfl, fun _ => rfl⟩

end Service

/-- First place of a write. -/
def Demand.opening? (preflight : Bool) (now : Instant) : Demand → Option Call
  | .create request id => some (Service.startCreate request id now)
  | .vote b => some (if preflight then .preflight b else .examine b)
  | .delete id => some (.delete id)
  | .get _ | .list .. => none

/-- What a client wants, and where its write stands. -/
def Client.standing (c : Client) : Demand × Option Call :=
  (c.demand, if c.demand.isWrite then some c.call.standing else none)

theorem Demand.standing_start (d : Demand) (s : Service) (now : Instant) :
    Client.standing ⟨d, d.start s now⟩ = (d, d.opening? s.settings.preflight now) := by
  cases d with
  | create request id =>
    simp only [Client.standing, isWrite, if_true, start, opening?, Service.startCreate]
    split <;> rfl
  | vote b =>
    simp only [Client.standing, isWrite, if_true, start, opening?, Service.startVote]
    split <;> rfl
  | delete id => rfl
  | get id => rfl
  | list limit offset => rfl

/-- A service without ledger, cache and index, and the writes that are made of it. -/
structure Bare where
  store : Store
  preflight : Bool
  clients : List (Demand × Option Call)

namespace Bare

def step (b : Bare) : Ask → Bare
  | .arrive d now => { b with clients := b.clients ++ [(d, d.opening? b.preflight now)] }
  | .store n now fault =>
    match b.clients[n]? with
    | some (d, some call) =>
      let (store, next) := call.decide b.store now fault
      { b with store := store, clients := b.clients.set n (d, some next) }
    | _ => b
  | .switch available => { b with store.available := available }

end Bare

namespace Traffic

/-- What an event asks of the store. -/
def asked? (t : Traffic) : Event → Option Ask
  | .arrive d now => some (.arrive d now)
  | .advance n c =>
    t.clients[n]?.bind fun client =>
      if client.call.asks then some (.store n c.now c.store) else none
  | .switchStore available => some (.switch available)
  | .work .. | .ledger _ => none

/-- What a run asks of the store: the calls with their identifiers, the times, the store's own
failures. -/
def asks (t : Traffic) (events : List Event) : List Ask := observed asked? t events

def bare (t : Traffic) : Bare :=
  ⟨t.service.store, t.service.settings.preflight, t.clients.map Client.standing⟩

end Traffic

namespace Call

theorem standing_of_asks {call : Call} (h : call.asks = true) : call.standing = call := by
  cases call <;> first | rfl | cases h

theorem isWrite_of_asks {d : Demand} {call : Call} (hfollows : call.Follows d)
    (h : call.asks = true) : d.isWrite = true := by
  cases call with
  | create request id =>
    obtain rfl : d = .create request id := hfollows
    rfl
  | delete id =>
    obtain rfl : d = .delete id := hfollows
    rfl
  | preflight b =>
    obtain rfl : d = .vote b := hfollows
    rfl
  | examine b =>
    obtain rfl : d = .vote b := hfollows
    rfl
  | commit b type =>
    obtain rfl : d = .vote b := hfollows.1
    rfl
  | _ => cases h

end Call

namespace Traffic

theorem bare_step {t : Traffic} (h : t.Follows) (e : Event) :
    (t.step e).bare = (asked? t e).elim t.bare t.bare.step := by
  cases e with
  | arrive d now =>
    simp only [step, bare, asked?, Option.elim_some, Bare.step, List.map_append, List.map_cons,
      List.map_nil, d.standing_start]
  | advance n c =>
    cases hn : t.clients[n]? with
    | none => simp [step, advance, asked?, hn]
    | some client =>
      have hfollows := h client (List.mem_of_getElem? hn)
      have hplace : (t.clients.map Client.standing)[n]? = some client.standing := by
        rw [List.getElem?_map, hn, Option.map_some]
      rw [step, advance_of_found hn]
      simp only [bare, asked?, hn, Option.bind_some, List.map_set,
        (t.service.moves_step c client.call).settings]
      cases hasks : client.call.asks with
      | true =>
        have hwrite := Call.isWrite_of_asks hfollows hasks
        have hdecide := Prod.ext_iff.1 ((t.service.moves_step c client.call).decides hasks)
        simp only [Client.standing, hwrite, if_true, Call.standing_of_asks hasks] at hplace
        simp only [if_true, Option.elim_some, Bare.step, hplace, Client.standing, hwrite,
          ← hdecide.1, ← hdecide.2]
      | false =>
        have hstep := (t.service.moves_step c client.call).standing hfollows hasks
        have hsame : Client.standing ⟨client.demand, (t.service.step c client.call).2⟩ =
            client.standing := by
          simp only [Client.standing]
          split
          · rename_i hwrite
            rw [hstep.2 hwrite]
          · rfl
        obtain ⟨hlt, hget⟩ := List.getElem?_eq_some_iff.1 hplace
        simp only [Bool.false_eq_true, if_false, Option.elim_none, hstep.1, hsame]
        rw [← hget, List.set_getElem_self]
  | switchStore available => rfl
  | work n c =>
    simp only [step, bare, asked?, Option.elim_none, store_work, (keeps_work ..).settings]
  | ledger action => rfl

theorem bare_run (settings : Settings) (cache : CacheConfig) (ledger : Ledger.Peer)
    (events : List Event) :
    ((start settings cache ledger).run events).bare =
      (asks (start settings cache ledger) events).foldl Bare.step ⟨.empty, settings.preflight, []⟩ := by
  induction events using List.reverseRecOn with
  | nil => rfl
  | append_singleton events e ih =>
    have hconcat : asks (start settings cache ledger) (events ++ [e]) =
        asks (start settings cache ledger) events ++
          (asked? ((start settings cache ledger).run events) e).toList := observed_concat ..
    rw [run_concat, bare_step (follows_run settings cache ledger events), ih, hconcat,
      List.foldl_append]
    cases asked? ((start settings cache ledger).run events) e <;> rfl

theorem asks_take (t : Traffic) (events : List Event) (n : Nat) :
    asks t (events.take n) = (asks t events).take (asks t (events.take n)).length := by
  have hsplit : asks t events =
      asks t (events.take n) ++ asks (t.run (events.take n)) (events.drop n) := by
    rw [asks, asks, asks, ← observed_append, List.take_append_drop]
  rw [hsplit, List.take_left]

end Traffic

namespace Call

/-- Whether a call waits for a reply of the ledger that is not there. -/
def waits (s : Service) : Call → Bool
  | .settle (.awaitSeal pending _ :: _) _ => (s.ledger.reply? pending).isNone
  | _ => false

theorem waits_iff {s : Service} {call : Call} : call.waits s = true ↔
    ∃ pending description effects reply,
      call = settle (.awaitSeal pending description :: effects) reply ∧
        s.ledger.reply? pending = none := by
  constructor
  · intro h
    unfold waits at h
    split at h
    · exact ⟨_, _, _, _, rfl, Option.isNone_iff_eq_none.1 h⟩
    · cases h
  · rintro ⟨pending, description, effects, reply, rfl, hr⟩
    simp [waits, hr]

theorem cost_settle_cons (e : Effect) (effects : List Effect) (reply : Reply) :
    (settle (e :: effects) reply).cost = e.cost + (settle effects reply).cost := rfl

end Call

namespace Service

theorem cost_perform {s : Service} {e : Effect} {effects : List Effect} {reply : Reply}
    (h : (Call.settle (e :: effects) reply).waits s = false) (c : Conditions) :
    (Call.settle ((s.perform c e).2 ++ effects) reply).cost <
      (Call.settle (e :: effects) reply).cost := by
  rw [Call.cost_settle_cons]
  cases e with
  | record d =>
    simp only [perform, record]
    split
    · simp [Effect.cost]
    · split <;> simp [Effect.cost, Call.cost_settle_cons]
  | awaitSeal pending description =>
    simp only [Call.waits, Option.isNone_eq_false_iff, Option.isSome_iff_exists] at h
    obtain ⟨r, hr⟩ := h
    simp [perform, hr, Effect.cost]
  | dropPetition id =>
    simp only [perform]
    split <;> simp [Effect.cost]
  | findListings =>
    simp only [perform]
    split <;> simp [Effect.cost, Call.cost_settle_cons]
  | dropListings keys =>
    simp only [perform]
    split <;> simp [Effect.cost]

theorem Moves.cost {s s' : Service} {c : Conditions} {call next : Call}
    (h : s.Moves c call s' next) (hdone : call.isDone = false) (hwaits : call.waits s = false) :
    next.cost < call.cost := by
  cases h with
  | refused h => cases h <;> simp [Call.cost]
  | written h => cases h <;> simp [Call.cost, Effect.cost]
  | passed h => cases h <;> simp [Call.cost]
  | ended h => cases h <;> simp [Call.cost]
  | performed => exact cost_perform hwaits c
  | replied h => exact Nat.one_pos
  | fetched h => cases h <;> simp [Call.cost]
  | rest => cases hdone

theorem step_of_idle {s : Service} {call : Call}
    (h : (call.isDone || call.waits s) = true) (c : Conditions) : (s.step c call).2 = call := by
  rcases Bool.or_eq_true_iff.1 h with hdone | hwaits
  · obtain ⟨answer, rfl⟩ := Call.isDone_iff.1 hdone
    rfl
  · obtain ⟨pending, description, effects, reply, rfl, hr⟩ := Call.waits_iff.1 hwaits
    simp [step, perform, hr]

end Service

theorem Demand.cost_start_le (d : Demand) (s : Service) (now : Instant) :
    (d.start s now).cost ≤ 9 := by
  cases d with
  | create request id =>
    simp only [start, Service.startCreate]
    split <;> simp [Call.cost]
  | vote b =>
    simp only [start, Service.startVote]
    split <;> simp [Call.cost]
  | delete id => simp [start, Call.cost]
  | get id => simp [start, Service.startGet, Call.cost]
  | list limit offset =>
    simp only [start, Service.startList]
    split
    · simp [Call.cost]
    · split <;> simp [Call.cost]

namespace Traffic

/-- A step of a client whose call is neither done nor waiting. -/
def stride? (n : Nat) (t : Traffic) : Event → Option Unit
  | .advance m _ =>
    if m = n then
      t.clients[n]?.bind fun client =>
        if client.call.isDone || client.call.waits t.service then none else some ()
    else none
  | .arrive .. | .switchStore _ | .work .. | .ledger _ => none

/-- Number of steps that bring the call of a client nearer to its end. -/
def strides (n : Nat) (t : Traffic) (events : List Event) : Nat :=
  (observed (stride? n) t events).length

/-- Steps that the call of a client can still take; nine, if it has not arrived. -/
def remaining (n : Nat) (t : Traffic) : Nat := (t.clients[n]?.map (·.call.cost)).getD 9

theorem remaining_step (n : Nat) (t : Traffic) (e : Event) :
    (stride? n t e).toList.length + remaining n (t.step e) ≤ remaining n t := by
  cases e with
  | arrive d now =>
    have hcost := d.cost_start_le t.service now
    simp only [stride?, Option.toList_none, List.length_nil, Nat.zero_add, remaining, step,
      List.getElem?_append]
    split
    · exact Nat.le_refl _
    · rename_i hn
      rw [List.getElem?_eq_none (Nat.le_of_not_lt hn)]
      cases hlast : n - t.clients.length with
      | zero => exact hcost
      | succ k => exact Nat.le_refl 9
  | advance m c =>
    cases hm : t.clients[m]? with
    | none =>
      have hnone : stride? n t (.advance m c) = none := by
        simp only [stride?]
        split
        · rename_i hmn
          rw [← hmn, hm, Option.bind_none]
        · rfl
      simp [step, advance, hm, hnone]
    | some client =>
      have hlt := (List.getElem?_eq_some_iff.1 hm).1
      rw [step, advance_of_found hm]
      by_cases hmn : m = n
      · subst hmn
        simp only [stride?, if_true, hm, Option.bind_some, remaining, List.getElem?_set_self hlt,
          Option.map_some, Option.getD_some]
        split
        · rename_i hidle
          rw [Service.step_of_idle hidle]
          exact Nat.le_of_eq (Nat.zero_add _)
        · rename_i hbusy
          simp only [Bool.not_eq_true, Bool.or_eq_false_iff] at hbusy
          have hcost := (t.service.moves_step c client.call).cost hbusy.1 hbusy.2
          simp only [Option.toList_some, List.length_singleton]
          omega
      · simp [stride?, hmn, remaining, List.getElem?_set_ne hmn]
  | switchStore available => exact Nat.le_of_eq (Nat.zero_add _)
  | work m c => exact Nat.le_of_eq (Nat.zero_add _)
  | ledger action => exact Nat.le_of_eq (Nat.zero_add _)

theorem strides_run (n : Nat) (t : Traffic) (events : List Event) :
    strides n t events + remaining n (t.run events) ≤ remaining n t := by
  induction events using List.reverseRecOn with
  | nil => exact Nat.le_of_eq (Nat.zero_add _)
  | append_singleton events e ih =>
    have hstep := remaining_step n (t.run events) e
    simp only [strides, observed_concat, List.length_append] at ih ⊢
    rw [run_concat]
    omega

end Traffic

/-- What a client wants, and what its write has come to. -/
def Client.outcome (c : Client) : Demand × Option Answer :=
  (c.demand, if c.demand.isWrite then c.call.outcome? else none)

theorem Client.outcome_of_standing (c : Client) :
    c.outcome = (c.standing.1, c.standing.2.bind Call.outcome?) := by
  simp only [outcome, standing]
  split <;> simp [Call.outcome?_standing]

theorem Ending.countP_failed (endings : List Ending) :
    endings.countP failed = endings.countP (fun e => e.failed && e.duty.effect = "ledger") +
      endings.countP (fun e => e.failed && e.duty.effect = "cache") +
      endings.countP (fun e => e.failed && e.duty.effect = "index") := by
  induction endings with
  | nil => rfl
  | cons e endings ih =>
    simp only [List.countP_cons, ih]
    cases e.failed with
    | false => simp
    | true =>
      cases e.duty <;> simp [Duty.effect] <;> omega

namespace Traffic

theorem outcomes_of_bare {t u : Traffic} (h : t.bare = u.bare) :
    t.service.store = u.service.store ∧
      t.clients.map Client.outcome = u.clients.map Client.outcome := by
  have hclients := congrArg Bare.clients h
  have houtcome (t : Traffic) : t.clients.map Client.outcome =
      (t.clients.map Client.standing).map fun s => (s.1, s.2.bind Call.outcome?) := by
    rw [List.map_map]
    exact List.map_congr_left fun client _ => client.outcome_of_standing
  rw [houtcome, houtcome]
  exact ⟨congrArg Bare.store h, congrArg _ hclients⟩

/-- What holds of two runs that ask the same of their stores. -/
structure Isolated (t₀ u₀ : Traffic) (xs ys : List Event) : Prop where
  /-- Whenever as much has been asked in the one as in the other, the stores are the same and every
  write has come to the same. -/
  same : ∀ m n, (asks t₀ (xs.take m)).length = (asks u₀ (ys.take n)).length →
    (t₀.run (xs.take m)).service.store = (u₀.run (ys.take n)).service.store ∧
    (t₀.run (xs.take m)).clients.map Client.outcome =
      (u₀.run (ys.take n)).clients.map Client.outcome
  /-- No failure keeps a call from its end: there are nine steps at most, without those that wait for
  a reply of the ledger. -/
  bounded : ∀ n, strides n u₀ ys ≤ 9
  /-- The counter of a kind of side effect counts those that failed. -/
  counted : ∀ effect, (u₀.run ys).service.metrics.degraded.count effect =
    (endings u₀ ys).countP fun e => e.failed && e.duty.effect = effect
  /-- There is a warning for each failure, and none besides. -/
  reported : (u₀.run ys).service.warnings = (endings u₀ ys).filterMap Ending.report?
  /-- So there are as many warnings as the counters say. -/
  warned : (u₀.run ys).service.audit.tally .warn =
    (u₀.run ys).service.metrics.degraded.count "ledger" +
      (u₀.run ys).service.metrics.degraded.count "cache" +
      (u₀.run ys).service.metrics.degraded.count "index"
  /-- Once every call is done and no task is left, every duty of a committed write has ended, and it
  has ended once. -/
  settled : (∀ client ∈ (u₀.run ys).clients, client.call.isDone = true) →
    (u₀.run ys).service.background = [] →
    ((endings u₀ ys).map Ending.duty).Perm (u₀.run ys).due

/-- Failures of the ledger, the cache and the index change neither the store nor what a write comes
to, whatever else differs in two services; each of them is counted and reported once. -/
theorem failures_isolated {settings settings' : Settings} (cache cache' : CacheConfig)
    (ledger ledger' : Ledger.Peer) {xs ys : List Event}
    (hpreflight : settings'.preflight = settings.preflight)
    (hasks : asks (start settings cache ledger) xs = asks (start settings' cache' ledger') ys) :
    Isolated (start settings cache ledger) (start settings' cache' ledger') xs ys := by
  have hreports := reports_run settings' cache' ledger' ys
  have hcounted (effect : String) :
      ((start settings' cache' ledger').run ys).service.metrics.degraded.count effect =
        (endings (start settings' cache' ledger') ys).countP
          fun e => e.failed && e.duty.effect = effect := by
    rw [hreports.counted, show Counter.count _ effect = 0 from rfl, Nat.zero_add]
  have hwarnings : ((start settings' cache' ledger').run ys).service.warnings =
      (endings (start settings' cache' ledger') ys).filterMap Ending.report? := hreports.warnings
  refine ⟨?_, ?_, hcounted, hwarnings, ?_, ?_⟩
  · intro m n hlength
    refine outcomes_of_bare ?_
    rw [bare_run, bare_run, asks_take _ xs, asks_take _ ys, hlength, hasks, hpreflight]
  · intro n
    have hstrides := strides_run n (start settings' cache' ledger') ys
    have hnine : remaining n (start settings' cache' ledger') = 9 := rfl
    omega
  · have hlength := congrArg List.length hwarnings
    rw [List.length_filterMap_eq_countP, Service.warnings,
      ← List.countP_eq_length_filter] at hlength
    simp only [Ending.report?, Option.isSome_map] at hlength
    rw [hcounted, hcounted, hcounted, ← Ending.countP_failed]
    exact hlength
  · intro hcalls htasks
    have hbooked := booked_run settings' cache' ledger' ys
    rwa [owed_of_quiescent hcalls htasks, List.nil_append] at hbooked

/-- A petition is created and voted on, and its document is indexed. -/
def petitioning (c : Conditions) : List Event :=
  let tomorrow := ((Date.of? 1970 1 2).bind (Instant.of? · 0 0 0 0)).getD default
  let petition := Uuid.ofNat 1
  .arrive (.create ⟨.ofNat 9, "Bike lanes", "Protected lanes downtown", 2, tomorrow⟩ petition)
      default :: List.replicate 5 (.advance 0 c) ++
    .arrive (.vote ⟨.ofNat 2, petition, "favor", .ofNat 12⟩) default ::
    List.replicate 8 (.advance 1 c) ++ [.work 0 c]

theorem failures_isolated_storm :
    let first : Ledger.Block :=
      ⟨0, default, ⟨.genesis, .null, default, "Genesis block"⟩, "", "", 0, 0⟩
    let ledger : Ledger.Writer := ⟨⟨first, []⟩, .zero, [], 16, .idle, true, 0, [], []⟩
    let t₀ := start .standard .standard (.live ledger)
    let calm := petitioning ⟨default, 0, 0, none, none, none, none⟩
    let u₀ := start { Settings.standard with appendMode := .inline } .standard .failing
    let storm := petitioning ⟨default, 0, 0, none, some (.unavailable "off"),
      some (.timeout ⟨2000⟩), none⟩
    asks t₀ calm = asks u₀ storm ∧ Isolated t₀ u₀ calm storm ∧
      (t₀.run calm).service.store = (u₀.run storm).service.store ∧
      (u₀.run storm).service.metrics.degraded.count "ledger" = 2 := by
  intro first ledger t₀ calm u₀ storm
  have hasks : asks t₀ calm = asks u₀ storm := by decide +kernel
  have h : Isolated t₀ u₀ calm storm := failures_isolated _ _ _ _ rfl hasks
  have hsame := h.same calm.length storm.length
  rw [List.take_length, List.take_length, hasks] at hsame
  exact ⟨hasks, h, (hsame rfl).1, (h.counted "ledger").trans (by decide +kernel)⟩

end Traffic

end AuditedPetitions
