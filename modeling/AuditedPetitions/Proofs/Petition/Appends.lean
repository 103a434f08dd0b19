import AuditedPetitions.Proofs.Ledger.Replies
import AuditedPetitions.Proofs.Petition.Duties

/-! Appends of the service. An event is submitted to the ledger once, by the call that committed it;
a request that the ledger takes is waited for by that call or by a task until its reply ends the wait.
So at every moment the events that have been submitted and those that calls are about to submit are
the events of the committed creations and votes, and the waits that are open and those that are over
are the requests that the ledger took. -/

namespace AuditedPetitions

theorem filterMap_cons_eq {α β : Type} (f : α → Option β) (a : α) (l : List α) :
    (a :: l).filterMap f = (f a).toList ++ l.filterMap f := by
  cases h : f a <;> simp [h]

/-- What a transaction says, whatever its time. -/
def Ledger.Transaction.draft (t : Transaction) : Draft := ⟨t.kind, t.payload, t.description⟩

theorem Petition.exists_event {p : Petition} {t : Ledger.Transaction} (h : p.draft = t.draft) :
    ∃ now, t = p.event now := ⟨t.timestamp, by rw [event, h]; rfl⟩

theorem Vote.exists_event {v : Vote} {t : Ledger.Transaction} (h : v.draft = t.draft) :
    ∃ now, t = v.event now := ⟨t.timestamp, by rw [event, h]; rfl⟩

@[simp] theorem Ledger.Draft.draft_stamp (d : Draft) (now : Instant) : (d.stamp now).draft = d := rfl

@[simp] theorem Ledger.Draft.description_stamp (d : Draft) (now : Instant) :
    (d.stamp now).description = d.description := rfl

/-- Submission of an event, and the ticket under which the ledger took it, if it did. -/
structure Append where
  client : Nat
  transaction : Ledger.Transaction
  ticket : Option Nat

/-- Request without a reply yet, and the words for the event behind it. -/
abbrev Wait := Ledger.Peer.Pending × String

namespace Append

def place? (a : Append) : Option Ledger.Request := a.ticket.map (.append · a.transaction)

def wait? (a : Append) : Option Wait := a.ticket.map fun k => (.ticket k, a.transaction.description)

/-- Words for an event that the ledger did not take. -/
def refused? (a : Append) : Option String :=
  if a.ticket.isNone then some a.transaction.description else none

end Append

/-- Words for an event whose request was answered with an error. -/
def failedWait? (r : Wait × Ledger.Reply) : Option String :=
  match r.2 with
  | .failed _ => some r.1.2
  | .sealed _ | .stopped => none

/-- Words for an event whose append ended with a failure. -/
def Ending.lost? (e : Ending) : Option String :=
  match e.duty with
  | .append description => e.fault.map fun _ => description
  | .petition _ | .listings | .index _ => none

namespace Effect

def record? : Effect → Option Ledger.Draft
  | .record d => some d
  | _ => none

def wait? : Effect → Option Wait
  | .awaitSeal pending description => some (pending, description)
  | _ => none

end Effect

def Task.wait? : Task → Option Wait
  | .seal pending description => some (pending, description)
  | .index _ => none

namespace Demand

/-- What the event of a committed write says. -/
def draft? : Demand → Reply → Option Ledger.Draft
  | .create .., .petition p => some p.draft
  | .vote _, .vote v => some v.draft
  | _, _ => none

theorem sequel_record (d : Demand) (reply : Reply) :
    (d.sequel reply).2.filterMap Effect.record? = (d.draft? reply).toList := by
  cases d <;> cases reply <;> rfl

theorem sequel_wait (d : Demand) (reply : Reply) :
    (d.sequel reply).1.filterMap Task.wait? = [] ∧
      (d.sequel reply).2.filterMap Effect.wait? = [] := by
  cases d <;> cases reply <;> exact ⟨rfl, rfl⟩

theorem draft?_of_read {d : Demand} (h : d.isWrite = false) (reply : Reply) :
    d.draft? reply = none := by
  cases d <;> first | rfl | cases h

end Demand

namespace Call

/-- Event that the next step submits. -/
def record? : Call → Option Ledger.Draft
  | .settle (.record d :: _) _ => some d
  | _ => none

/-- Request whose reply the next step looks for. -/
def wait? : Call → Option Wait
  | .settle (.awaitSeal pending description :: _) _ => some (pending, description)
  | _ => none

/-- Events that the call has yet to submit. -/
def records (call : Call) : List Ledger.Draft := call.effects.filterMap Effect.record?

/-- Requests that the call has yet to see answered. -/
def waitings (call : Call) : List Wait := call.effects.filterMap Effect.wait?

theorem mem_records {call : Call} {d : Ledger.Draft} (h : call.record? = some d) :
    d ∈ call.records := by
  unfold record? at h
  split at h
  · cases h
    exact List.mem_cons_self
  · cases h

theorem record?_settle (e : Effect) (effects : List Effect) (reply : Reply) :
    (settle (e :: effects) reply).record? = e.record? := by cases e <;> rfl

theorem wait?_settle (e : Effect) (effects : List Effect) (reply : Reply) :
    (settle (e :: effects) reply).wait? = e.wait? := by cases e <;> rfl

theorem record?_of_idle {call : Call} (h : call.effects = []) : call.record? = none := by
  cases call with
  | settle effects reply =>
    obtain rfl : effects = [] := h
    rfl
  | _ => rfl

theorem wait?_of_idle {call : Call} (h : call.effects = []) : call.wait? = none := by
  cases call with
  | settle effects reply =>
    obtain rfl : effects = [] := h
    rfl
  | _ => rfl

end Call

namespace Service

/-- Ticket under which the ledger takes an event, if it does. -/
def ticket? (s : Service) (c : Conditions) (d : Ledger.Draft) : Option Nat :=
  match c.ledger.elim (s.ledger.submit (d.stamp c.now)) .error with
  | .ok (.ticket k, _) => some k
  | _ => none

/-- Reply that ends a wait. -/
def answer? (s : Service) (wait : Wait) : Option (Wait × Ledger.Reply) :=
  (s.ledger.reply? wait.1).map (wait, ·)

/-- What the writer is asked to do for an event. -/
def submission? (c : Conditions) (d : Ledger.Draft) : Option Ledger.Writer.Action :=
  if c.ledger.isSome then none else some (.submit (d.stamp c.now))

variable {s s' : Service} {c : Conditions} {w : Ledger.Writer}

theorem ledger_noteReply (s : Service) (description : String) (r : Ledger.Reply) :
    (s.noteReply description r).ledger = s.ledger := by cases r <;> rfl

theorem ledger_runTask (s : Service) (c : Conditions) (task : Task) :
    (s.runTask c task).ledger = s.ledger := by
  match task with
  | .index d =>
    simp only [runTask]
    split <;> rfl
  | .seal pending description =>
    simp only [runTask]
    split
    · rfl
    · exact ledger_noteReply ..

/-- What submitting an event to a writer comes to: the answer, the ticket, what the writer does. -/
inductive Submitted (w : Ledger.Writer) (t : Ledger.Transaction) :
    Except Ledger.Error (Ledger.Peer.Pending × Ledger.Peer) → Option Nat →
      Option Ledger.Writer.Action → Prop
  | refused {e : Ledger.Error} {action? : Option Ledger.Writer.Action}
      (still : w.run action?.toList = w) (unposted : action?.bind w.posted? = none) :
      Submitted w t (.error e) none action?
  | taken (running : w.running = true) :
      Submitted w t (.ok (.ticket w.nextTicket, .live (w.step (.submit t)))) (some w.nextTicket)
        (some (.submit t))

theorem submitted (h : s.ledger = .live w) (c : Conditions) (d : Ledger.Draft) :
    Submitted w (d.stamp c.now) (c.ledger.elim (s.ledger.submit (d.stamp c.now)) .error)
      (s.ticket? c d) (submission? c d) := by
  simp only [ticket?, submission?, h, Ledger.Peer.submit, Ledger.Writer.submit]
  cases c.ledger with
  | some e => exact .refused rfl rfl
  | none =>
    cases hrun : w.running with
    | true => exact .taken hrun
    | false =>
      refine .refused ?_ ?_
      · simp [Ledger.Writer.run, Ledger.Writer.step, hrun]
      · simp [Ledger.Writer.posted?, hrun]

theorem place_of_ticket (h : s.ledger = .live w) (c : Conditions) (d : Ledger.Draft) :
    ((submission? c d).bind w.posted?).toList.filter Ledger.Request.isAppend =
      ((s.ticket? c d).map (.append · (d.stamp c.now))).toList := by
  have hsubmitted := submitted h c d
  generalize c.ledger.elim (s.ledger.submit (d.stamp c.now)) .error = answer at hsubmitted
  generalize s.ticket? c d = ticket at hsubmitted
  generalize submission? c d = action at hsubmitted
  cases hsubmitted with
  | refused still unposted => simp [unposted]
  | taken running => simp [Ledger.Writer.posted?, running, Ledger.Request.isAppend]

theorem record_live (h : s.ledger = .live w) (c : Conditions) (d : Ledger.Draft) :
    (s.record c d).1.ledger = .live (w.run (submission? c d).toList) ∧
      (s.record c d).2.filterMap Effect.record? = [] ∧
      ((s.record c d).2.filterMap Effect.wait? ++
          (s.record c d).1.background.filterMap Task.wait?).Perm
        (s.background.filterMap Task.wait? ++
          ((s.ticket? c d).map fun k => (.ticket k, d.description)).toList) := by
  have hsubmitted := submitted h c d
  simp only [record]
  generalize c.ledger.elim (s.ledger.submit (d.stamp c.now)) .error = answer at hsubmitted
  generalize s.ticket? c d = ticket at hsubmitted
  generalize submission? c d = action at hsubmitted
  cases hsubmitted with
  | refused still unposted =>
    refine ⟨?_, rfl, ?_⟩
    · rw [still]
      exact h
    · simp [degradeAppend, degrade, emit]
  | taken running =>
    dsimp only
    cases s.settings.appendMode with
    | inline =>
      refine ⟨rfl, rfl, ?_⟩
      exact List.perm_append_comm
    | background =>
      refine ⟨rfl, rfl, ?_⟩
      simp [spawn, Task.wait?]

theorem ledger_perform (h : s.ledger = .live w) (c : Conditions) (e : Effect) :
    (s.perform c e).1.ledger = .live (w.run (e.record?.bind (submission? c)).toList) := by
  cases e with
  | record d => exact (record_live h c d).1
  | awaitSeal pending description =>
    simp only [perform]
    split
    · exact h
    · exact (ledger_noteReply ..).trans h
  | dropPetition id =>
    simp only [perform]
    split <;> exact h
  | findListings =>
    simp only [perform]
    split <;> exact h
  | dropListings keys =>
    simp only [perform]
    split <;> exact h

theorem record_perform (h : s.ledger = .live w) (c : Conditions) (e : Effect) :
    (s.perform c e).2.filterMap Effect.record? = [] := by
  cases e with
  | record d => exact (record_live h c d).2.1
  | awaitSeal pending description =>
    simp only [perform]
    split <;> rfl
  | dropPetition id =>
    simp only [perform]
    split <;> rfl
  | findListings =>
    simp only [perform]
    split <;> rfl
  | dropListings keys =>
    simp only [perform]
    split <;> rfl

theorem wait_perform (h : s.ledger = .live w) (c : Conditions) (e : Effect) :
    ((s.perform c e).2.filterMap Effect.wait? ++
        (s.perform c e).1.background.filterMap Task.wait? ++
        (e.wait?.bind fun wait => s.answer? wait).toList.map Prod.fst).Perm
      (e.wait?.toList ++ s.background.filterMap Task.wait? ++
        (e.record?.bind fun d =>
          (s.ticket? c d).map fun k => (.ticket k, d.description)).toList) := by
  cases e with
  | record d => simpa [Effect.wait?, Effect.record?, perform] using (record_live h c d).2.2
  | awaitSeal pending description =>
    simp only [perform, Effect.wait?, Effect.record?, Option.bind_some, answer?]
    cases hr : s.ledger.reply? pending with
    | none => simp [Effect.wait?]
    | some r => simp [background_noteReply]
  | dropPetition id =>
    simp only [perform]
    split <;> simp [Effect.wait?, Effect.record?, degrade, emit]
  | findListings =>
    have hnone (keys : List String) : [Effect.dropListings keys].filterMap Effect.wait? = [] := rfl
    simp only [perform]
    split <;> simp [Effect.wait?, Effect.record?, degrade, emit, hnone]
  | dropListings keys =>
    simp only [perform]
    split <;> simp [Effect.wait?, Effect.record?, degrade, emit]

theorem lost_ending (h : s.ledger = .live w) (c : Conditions) (e : Effect) :
    (s.ending? c e).toList.filterMap Ending.lost? =
      (e.record?.bind fun d =>
          if (s.ticket? c d).isNone then some d.description else none).toList ++
        (e.wait?.bind fun wait => s.answer? wait).toList.filterMap failedWait? := by
  cases e with
  | record d =>
    have hsubmitted := submitted h c d
    simp only [ending?, Effect.record?, Effect.wait?, Option.bind_some]
    generalize c.ledger.elim (s.ledger.submit (d.stamp c.now)) .error = answer at hsubmitted
    generalize s.ticket? c d = ticket at hsubmitted
    generalize submission? c d = action at hsubmitted
    cases hsubmitted with
    | refused still unposted => rfl
    | taken running => rfl
  | awaitSeal pending description =>
    simp only [ending?, Effect.record?, Effect.wait?, Option.bind_some, answer?]
    cases s.ledger.reply? pending with
    | none => rfl
    | some r => cases r <;> rfl
  | dropPetition id => rfl
  | findListings =>
    simp only [ending?, Effect.record?, Effect.wait?]
    split <;> rfl
  | dropListings keys => rfl

theorem lost_taskEnding (s : Service) (c : Conditions) (task : Task) :
    (s.taskEnding? c task).toList.filterMap Ending.lost? =
      (task.wait?.bind fun wait => s.answer? wait).toList.filterMap failedWait? := by
  match task with
  | .index d => rfl
  | .seal pending description =>
    simp only [taskEnding?, Task.wait?, Option.bind_some, answer?]
    cases s.ledger.reply? pending with
    | none => rfl
    | some r => cases r <;> rfl

theorem wait_runTask (s : Service) (c : Conditions) (task : Task) :
    ((s.runTask c task).background.filterMap Task.wait? ++
        (task.wait?.bind fun wait => s.answer? wait).toList.map Prod.fst).Perm
      (task.wait?.toList ++ s.background.filterMap Task.wait?) := by
  match task with
  | .index d =>
    simp only [runTask]
    split <;> simp [Task.wait?, degrade, emit]
  | .seal pending description =>
    simp only [runTask, Task.wait?, Option.bind_some, answer?]
    cases s.ledger.reply? pending with
    | none => simp [spawn, Task.wait?]
    | some r => simp [background_noteReply]

end Service

namespace Service.Turn

variable {s s' : Service} {c : Conditions} {d : Demand} {call next : Call} {w : Ledger.Writer}

theorem ledger (h : Turn s c d call s' next) (hlive : s.ledger = .live w) :
    s'.ledger = .live (w.run (call.record?.bind (submission? c)).toList) := by
  cases h with
  | rest quiet follows idle still reply =>
    rw [Call.record?_of_idle idle, quiet.ledger]
    exact hlive
  | commit reply quiet yields idle fresh =>
    rw [Call.record?_of_idle idle, quiet.ledger]
    exact hlive
  | @perform e effects reply yields =>
    rw [ledger_perform hlive, Call.record?_settle]

theorem waits (h : Turn s c d call s' next) (hlive : s.ledger = .live w) :
    (next.waitings ++ s'.background.filterMap Task.wait? ++
        (call.wait?.bind fun wait => s.answer? wait).toList.map Prod.fst).Perm
      (call.waitings ++ s.background.filterMap Task.wait? ++
        (call.record?.bind fun d =>
          (s.ticket? c d).map fun k => (.ticket k, d.description)).toList) := by
  classical
  refine List.perm_iff_count.2 fun a => ?_
  cases h with
  | rest quiet follows idle still reply =>
    rw [Call.record?_of_idle idle, Call.wait?_of_idle idle, quiet.background]
    simp [Call.waitings, idle, still]
  | commit reply quiet yields idle fresh =>
    have hsequel := Demand.sequel_wait d reply
    rw [Call.record?_of_idle idle, Call.wait?_of_idle idle, quiet.background]
    simp [Call.waitings, idle, hsequel]
  | @perform e effects reply yields =>
    have hcount := (wait_perform hlive c e).count_eq a
    rw [Call.record?_settle, Call.wait?_settle]
    simp only [Call.waitings, Call.effects_settle, filterMap_cons_eq, List.filterMap_append,
      List.count_append] at hcount ⊢
    omega

theorem records (h : Turn s c d call s' next) (hlive : s.ledger = .live w)
    {past : List Ledger.Draft} (hpast : past ++ call.records = (call.reply?.bind d.draft?).toList) :
    past ++ call.record?.toList ++ next.records = (next.reply?.bind d.draft?).toList := by
  cases h with
  | rest quiet follows idle still reply =>
    have hdraft : next.reply?.bind d.draft? = call.reply?.bind d.draft? := by
      cases hwrite : d.isWrite with
      | true => rw [reply hwrite]
      | false => cases next.reply? <;> cases call.reply? <;> simp [Demand.draft?_of_read hwrite]
    rw [hdraft, ← hpast, Call.record?_of_idle idle]
    simp [Call.records, idle, still]
  | commit reply quiet yields idle fresh =>
    simp only [Call.records, idle, fresh, List.filterMap_nil, List.append_nil, Option.bind_none,
      Option.toList_none] at hpast
    simp [Call.record?_of_idle idle, hpast, Call.records, Demand.sequel_record]
  | @perform e effects reply yields =>
    simp only [Call.records, Call.effects_settle, Call.reply?_settle, Call.record?_settle,
      filterMap_cons_eq, List.filterMap_append, record_perform hlive, List.nil_append,
      Option.bind_some] at hpast ⊢
    rw [List.append_assoc, hpast]

end Service.Turn

theorem Service.lost_callEnding {s : Service} {w : Ledger.Writer} (h : s.ledger = .live w)
    (c : Conditions) (call : Call) :
    (s.callEnding? c call).toList.filterMap Ending.lost? =
      (call.record?.bind fun d =>
          if (s.ticket? c d).isNone then some d.description else none).toList ++
        (call.wait?.bind fun wait => s.answer? wait).toList.filterMap failedWait? := by
  cases call with
  | settle effects reply =>
    cases effects with
    | nil => rfl
    | cons e effects =>
      rw [Call.record?_settle, Call.wait?_settle]
      exact lost_ending h c e
  | _ => rfl

namespace Traffic

/-- Event that is submitted to the ledger. -/
def append? (t : Traffic) : Event → Option Append
  | .advance n c =>
    t.clients[n]?.bind fun client =>
      client.call.record?.map fun d => ⟨n, d.stamp c.now, t.service.ticket? c d⟩
  | .arrive .. | .switchStore _ | .work .. | .ledger _ => none

/-- Reply that ends a wait. -/
def replied? (t : Traffic) : Event → Option (Wait × Ledger.Reply)
  | .advance n _ =>
    t.clients[n]?.bind fun client => client.call.wait?.bind fun wait => t.service.answer? wait
  | .work n _ =>
    t.service.background[n]?.bind fun task => task.wait?.bind fun wait => t.service.answer? wait
  | .arrive .. | .switchStore _ | .ledger _ => none

/-- What the ledger's writer does, or is asked to do. -/
def action? (t : Traffic) : Event → Option Ledger.Writer.Action
  | .advance n c =>
    t.clients[n]?.bind fun client => client.call.record?.bind (Service.submission? c)
  | .ledger action => some action
  | .arrive .. | .switchStore _ | .work .. => none

/-- Whether the ledger is left to its writer, to the service and to whoever shuts it down. -/
def Event.isPrivate : Event → Bool
  | .ledger (.submit _) | .ledger (.forget _) => false
  | _ => true

/-- Waits that are open. -/
def waits (t : Traffic) : List Wait :=
  t.clients.flatMap (·.call.waitings) ++ t.service.background.filterMap Task.wait?

/-- What the events say that a client has submitted. -/
def draftsOf (appends : List Append) (n : Nat) : List Ledger.Draft :=
  (appends.filter (·.client = n)).map (·.transaction.draft)

theorem draftsOf_eq_nil {appends : List Append} {n k : Nat} (h : ∀ a ∈ appends, a.client < k)
    (hn : k ≤ n) : draftsOf appends n = [] := by
  rw [draftsOf, List.map_eq_nil_iff, List.filter_eq_nil_iff]
  intro a ha hsame
  have hlt := h a ha
  rw [of_decide_eq_true hsame] at hlt
  exact Nat.not_lt.2 hn hlt

theorem draftsOf_advance {t : Traffic} {m : Nat} {client : Client}
    (hm : t.clients[m]? = some client) (c : Conditions) (appends : List Append) (n : Nat) :
    draftsOf (appends ++ (append? t (.advance m c)).toList) n =
      draftsOf appends n ++ if m = n then client.call.record?.toList else [] := by
  simp only [draftsOf, append?, hm, Option.bind_some, List.filter_append, List.map_append]
  by_cases hmn : m = n
  · cases client.call.record? <;> simp [hmn]
  · cases client.call.record? <;> simp [hmn]

/-- How the service and its writer belong together. -/
structure Logged (w₀ : Ledger.Writer) (t : Traffic) (actions : List Ledger.Writer.Action)
    (appends : List Append) (replies : List (Wait × Ledger.Reply)) : Prop where
  ledger : t.service.ledger = .live (w₀.run actions)
  kept : ∀ a ∈ actions, a.forgets = false
  places : (w₀.queue actions).filter Ledger.Request.isAppend = appends.filterMap Append.place?
  waits : (t.waits ++ replies.map Prod.fst).Perm (appends.filterMap Append.wait?)
  answered : ∀ r ∈ replies, t.service.ledger.reply? r.1.1 = some r.2
  clients : ∀ a ∈ appends, a.client < t.clients.length
  drafts : ∀ n client, t.clients[n]? = some client →
    draftsOf appends n ++ client.call.records =
      (client.call.reply?.bind client.demand.draft?).toList

theorem eq_some_of_append {α : Type} {xs ys : List α} {o : Option α} (h : xs ++ ys = o.toList)
    {a : α} (ha : a ∈ xs) : o = some a ∧ ys = [] := by
  cases o with
  | none => simp_all
  | some b =>
    rw [Option.toList_some, List.append_eq_singleton_iff] at h
    rcases h with ⟨rfl, -⟩ | ⟨rfl, rfl⟩
    · cases ha
    · exact ⟨congrArg some (List.mem_singleton.1 ha).symm, rfl⟩

theorem Logged.submitted {w₀ : Ledger.Writer} {t : Traffic} {actions : List Ledger.Writer.Action}
    {appends : List Append} {replies : List (Wait × Ledger.Reply)}
    (h : Logged w₀ t actions appends replies) {a : Append} (ha : a ∈ appends) :
    ∃ client, t.clients[a.client]? = some client ∧ client.call.records = [] ∧
      client.call.reply?.bind client.demand.draft? = some a.transaction.draft := by
  have hn := List.getElem?_eq_getElem (h.clients a ha)
  have hmem : a.transaction.draft ∈ draftsOf appends a.client :=
    List.mem_map_of_mem (List.mem_filter.2 ⟨ha, by simp⟩)
  obtain ⟨hdraft, hrecords⟩ := eq_some_of_append (h.drafts a.client _ hn) hmem
  exact ⟨_, hn, hrecords, hdraft⟩

theorem ledger_step {t : Traffic} (h : t.Follows) {w : Ledger.Writer}
    (hlive : t.service.ledger = .live w) (e : Event) :
    (t.step e).service.ledger = .live (w.run (action? t e).toList) := by
  cases e with
  | arrive d now => exact hlive
  | advance n c =>
    cases hn : t.clients[n]? with
    | none =>
      simp only [step, advance, action?, hn, Option.bind_none]
      exact hlive
    | some client =>
      have hturn := (t.service.moves_step c client.call).turn (h client (List.mem_of_getElem? hn))
      simp only [step, advance_of_found hn, action?, hn, Option.bind_some]
      exact hturn.ledger hlive
  | switchStore available => exact hlive
  | work n c =>
    simp only [step, work, action?]
    split
    · exact hlive
    · exact (Service.ledger_runTask ..).trans hlive
  | ledger action =>
    simp only [step, hlive]
    rfl

theorem waits_step {t : Traffic} (h : t.Follows) {w : Ledger.Writer}
    (hlive : t.service.ledger = .live w) (e : Event) :
    ((t.step e).waits ++ (replied? t e).toList.map Prod.fst).Perm
      (t.waits ++ (append? t e).toList.filterMap Append.wait?) := by
  classical
  refine List.perm_iff_count.2 fun a => ?_
  cases e with
  | arrive d now =>
    have hfresh := d.start_fresh t.service now
    simp [step, waits, replied?, append?, Call.waitings, hfresh]
  | advance n c =>
    cases hn : t.clients[n]? with
    | none => simp [step, advance, replied?, append?, hn]
    | some client =>
      have hturn := (t.service.moves_step c client.call).turn (h client (List.mem_of_getElem? hn))
      have happend : (append? t (.advance n c)).toList.filterMap Append.wait? =
          (client.call.record?.bind fun d => (t.service.ticket? c d).map
            fun k => (.ticket k, d.description)).toList := by
        simp only [append?, hn, Option.bind_some]
        cases client.call.record? with
        | none => rfl
        | some d => cases h : t.service.ticket? c d <;> simp [Append.wait?, h]
      have hcount := (hturn.waits hlive).count_eq a
      obtain ⟨hlt, rfl⟩ := List.getElem?_eq_some_iff.1 hn
      have hset := count_flatMap_set (fun client : Client => client.call.waitings) hlt
        ⟨t.clients[n].demand, (t.service.step c t.clients[n].call).2⟩ a
      rw [happend, step, advance_of_found hn]
      simp only [waits, replied?, hn, Option.bind_some, List.count_append] at hcount hset ⊢
      omega
  | switchStore available => simp [step, waits, replied?, append?]
  | work n c =>
    cases hn : t.service.background[n]? with
    | none => simp [step, work, replied?, append?, hn]
    | some task =>
      have hcount := (Service.wait_runTask
        { t.service with background := t.service.background.eraseIdx n } c task).count_eq a
      obtain ⟨hlt, rfl⟩ := List.getElem?_eq_some_iff.1 hn
      have hperm := ((List.getElem_cons_eraseIdx_perm hlt).filterMap Task.wait?).count_eq a
      rw [filterMap_cons_eq] at hperm
      have hanswer (wait : Wait) : Service.answer?
          { t.service with background := t.service.background.eraseIdx n } wait =
            t.service.answer? wait := rfl
      simp only [step, work, waits, replied?, append?, hn, Option.bind_some, Option.toList_none,
        List.filterMap_nil, List.append_nil, List.count_append, hanswer] at hcount hperm ⊢
      omega
  | ledger action => simp [step, waits, replied?, append?]

theorem places_step {t : Traffic} {w : Ledger.Writer} (hlive : t.service.ledger = .live w)
    {e : Event} (hprivate : e.isPrivate = true) :
    ((action? t e).bind w.posted?).toList.filter Ledger.Request.isAppend =
      (append? t e).toList.filterMap Append.place? := by
  cases e with
  | advance n c =>
    simp only [action?, append?]
    cases t.clients[n]? with
    | none => rfl
    | some client =>
      simp only [Option.bind_some]
      cases client.call.record? with
      | none => rfl
      | some d =>
        rw [Option.bind_some, Service.place_of_ticket hlive]
        simp only [Option.map_some, Option.toList_some, Append.place?]
        cases t.service.ticket? c d <;> rfl
  | ledger action =>
    cases action with
    | submit event => cases hprivate
    | forget k => cases hprivate
    | shutdown =>
      simp only [action?, Option.bind_some, Ledger.Writer.posted?, append?]
      split <;> rfl
    | receive now => rfl
    | search aborted micros => rfl
    | push => rfl
  | arrive d now => rfl
  | switchStore available => rfl
  | work n c => rfl

theorem lost_step {t : Traffic} {w : Ledger.Writer} (hlive : t.service.ledger = .live w)
    (e : Event) :
    (ended? t e).toList.filterMap Ending.lost? =
      (append? t e).toList.filterMap Append.refused? ++
        (replied? t e).toList.filterMap failedWait? := by
  cases e with
  | advance n c =>
    simp only [ended?, append?, replied?]
    cases t.clients[n]? with
    | none => rfl
    | some client =>
      simp only [Option.bind_some]
      rw [Service.lost_callEnding hlive]
      congr 1
      cases client.call.record? with
      | none => rfl
      | some d =>
        simp only [Option.bind_some, Option.map_some, Option.toList_some, Append.refused?]
        cases t.service.ticket? c d <;> rfl
  | work n c =>
    simp only [ended?, append?, replied?]
    cases t.service.background[n]? with
    | none => rfl
    | some task =>
      simp only [Option.bind_some, Option.toList_none, List.filterMap_nil, List.nil_append]
      exact Service.lost_taskEnding t.service c task
  | arrive d now => rfl
  | switchStore available => rfl
  | ledger action => rfl

theorem drafts_step {t : Traffic} (h : t.Follows) {w : Ledger.Writer}
    (hlive : t.service.ledger = .live w) {appends : List Append}
    (hclients : ∀ a ∈ appends, a.client < t.clients.length)
    (hdrafts : ∀ n client, t.clients[n]? = some client →
      draftsOf appends n ++ client.call.records =
        (client.call.reply?.bind client.demand.draft?).toList) (e : Event) :
    ∀ n client, (t.step e).clients[n]? = some client →
      draftsOf (appends ++ (append? t e).toList) n ++ client.call.records =
        (client.call.reply?.bind client.demand.draft?).toList := by
  cases e with
  | arrive d now =>
    intro n client hn
    simp only [append?, Option.toList_none, List.append_nil]
    simp only [step, List.getElem?_append] at hn
    split at hn
    · exact hdrafts n client hn
    · rename_i hnew
      have hnone := draftsOf_eq_nil hclients (Nat.not_lt.1 hnew)
      obtain rfl := List.mem_singleton.1 (List.mem_of_getElem? hn)
      have hfresh := d.start_fresh t.service now
      simp [hnone, Call.records, hfresh]
  | advance m c =>
    cases hm : t.clients[m]? with
    | none => simpa [step, advance, append?, hm] using hdrafts
    | some old =>
      have hlt := (List.getElem?_eq_some_iff.1 hm).1
      have hturn := (t.service.moves_step c old.call).turn (h old (List.mem_of_getElem? hm))
      intro n client hn
      simp only [step, advance_of_found hm] at hn
      by_cases hmn : m = n
      · subst hmn
        rw [List.getElem?_set_self hlt, Option.some.injEq] at hn
        subst hn
        rw [draftsOf_advance hm, if_pos rfl]
        exact hturn.records hlive (hdrafts m old hm)
      · rw [List.getElem?_set_ne hmn] at hn
        rw [draftsOf_advance hm, if_neg hmn, List.append_nil]
        exact hdrafts n client hn
  | switchStore available => simpa [append?, step] using hdrafts
  | work m c => simpa [append?, step] using hdrafts
  | ledger action => simpa [append?, step] using hdrafts

theorem length_clients_step (t : Traffic) (e : Event) :
    t.clients.length ≤ (t.step e).clients.length := by
  cases e with
  | arrive d now => simp [step]
  | advance n c =>
    simp only [step, advance]
    split
    · exact Nat.le_refl _
    · simp
  | switchStore available => exact Nat.le_refl _
  | work n c => exact Nat.le_refl _
  | ledger action => exact Nat.le_refl _

theorem client_of_append {t : Traffic} {e : Event} {a : Append} (h : a ∈ (append? t e).toList) :
    a.client < t.clients.length := by
  cases e with
  | advance n c =>
    rw [Option.mem_toList, append?, Option.bind_eq_some_iff] at h
    obtain ⟨client, hn, h⟩ := h
    obtain ⟨d, -, rfl⟩ := Option.map_eq_some_iff.1 h
    exact (List.getElem?_eq_some_iff.1 hn).1
  | _ => cases h

theorem answered_of_replied {t : Traffic} {e : Event} {r : Wait × Ledger.Reply}
    (h : r ∈ (replied? t e).toList) : t.service.ledger.reply? r.1.1 = some r.2 := by
  have hanswer {wait : Wait} (h : t.service.answer? wait = some r) :
      t.service.ledger.reply? r.1.1 = some r.2 := by
    obtain ⟨reply, hreply, rfl⟩ := Option.map_eq_some_iff.1 h
    exact hreply
  rw [Option.mem_toList] at h
  cases e with
  | advance n c =>
    rw [replied?, Option.bind_eq_some_iff] at h
    obtain ⟨client, -, h⟩ := h
    obtain ⟨wait, -, h⟩ := Option.bind_eq_some_iff.1 h
    exact hanswer h
  | work n c =>
    rw [replied?, Option.bind_eq_some_iff] at h
    obtain ⟨task, -, h⟩ := h
    obtain ⟨wait, -, h⟩ := Option.bind_eq_some_iff.1 h
    exact hanswer h
  | _ => cases h

theorem kept_of_private {t : Traffic} {e : Event} (hprivate : e.isPrivate = true)
    {a : Ledger.Writer.Action} (h : a ∈ (action? t e).toList) : a.forgets = false := by
  rw [Option.mem_toList] at h
  cases e with
  | advance n c =>
    rw [action?, Option.bind_eq_some_iff] at h
    obtain ⟨client, -, h⟩ := h
    obtain ⟨d, -, h⟩ := Option.bind_eq_some_iff.1 h
    unfold Service.submission? at h
    split at h
    · cases h
    · cases h
      rfl
  | ledger action =>
    cases h
    cases a <;> first | rfl | cases hprivate
  | _ => cases h

section Started

variable {config : Ledger.Config} {time eventTime : Instant} {micros : Nat} {w₀ : Ledger.Writer}

theorem answer_stays (hstart : Ledger.Writer.start config time eventTime micros = .ok w₀)
    {actions : List Ledger.Writer.Action} {action? : Option Ledger.Writer.Action}
    (hkept : ∀ a ∈ action?.toList, a.forgets = false) {pending : Ledger.Peer.Pending}
    {r : Ledger.Reply} (h : (Ledger.Peer.live (w₀.run actions)).reply? pending = some r) :
    (Ledger.Peer.live (w₀.run (actions ++ action?.toList))).reply? pending = some r := by
  cases pending with
  | settled r => exact h
  | ticket k =>
    cases action? with
    | none => simpa using h
    | some a => exact Ledger.Writer.reply?_concat hstart (hkept a (by simp)) h

theorem Logged.start (w₀ : Ledger.Writer) (settings : Settings) (cache : CacheConfig) :
    Logged w₀ (start settings cache (.live w₀)) [] [] [] where
  ledger := rfl
  kept := List.forall_mem_nil _
  places := rfl
  waits := List.Perm.refl _
  answered := List.forall_mem_nil _
  clients := List.forall_mem_nil _
  drafts n client hn := by cases hn

theorem Logged.step (hstart : Ledger.Writer.start config time eventTime micros = .ok w₀)
    {t : Traffic} {actions : List Ledger.Writer.Action} {appends : List Append}
    {replies : List (Wait × Ledger.Reply)} (h : Logged w₀ t actions appends replies)
    (hfollows : t.Follows) {e : Event} (hprivate : e.isPrivate = true) :
    Logged w₀ (t.step e) (actions ++ (action? t e).toList) (appends ++ (append? t e).toList)
      (replies ++ (replied? t e).toList) where
  ledger := by
    rw [ledger_step hfollows h.ledger, Ledger.Writer.run_append]
  kept a ha := by
    rcases List.mem_append.1 ha with ha | ha
    · exact h.kept a ha
    · exact kept_of_private hprivate ha
  places := by
    have hqueue : w₀.queue (actions ++ (action? t e).toList) = w₀.queue actions ++
        ((action? t e).bind (w₀.run actions).posted?).toList := by
      rw [Ledger.Writer.queue, Ledger.Writer.observed_append, ← Ledger.Writer.queue]
      cases action? t e <;> simp [Ledger.Writer.observed]
    rw [hqueue, List.filter_append, h.places, places_step h.ledger hprivate, List.filterMap_append]
  waits := by
    classical
    refine List.perm_iff_count.2 fun a => ?_
    have hbefore := h.waits.count_eq a
    have hstep := (waits_step hfollows h.ledger e).count_eq a
    simp only [List.map_append, List.filterMap_append, List.count_append] at hbefore hstep ⊢
    omega
  answered r hr := by
    have hnow : t.service.ledger.reply? r.1.1 = some r.2 := by
      rcases List.mem_append.1 hr with hr | hr
      · exact h.answered r hr
      · exact answered_of_replied hr
    rw [h.ledger] at hnow
    rw [ledger_step hfollows h.ledger, ← Ledger.Writer.run_append]
    exact answer_stays hstart (fun a => kept_of_private hprivate) hnow
  clients a ha := by
    refine Nat.lt_of_lt_of_le ?_ (length_clients_step t e)
    rcases List.mem_append.1 ha with ha | ha
    · exact h.clients a ha
    · exact client_of_append ha
  drafts := drafts_step hfollows h.ledger h.clients h.drafts e

theorem logged_run (hstart : Ledger.Writer.start config time eventTime micros = .ok w₀)
    (settings : Settings) (cache : CacheConfig) {events : List Event}
    (hprivate : ∀ e ∈ events, e.isPrivate = true) :
    Logged w₀ ((start settings cache (.live w₀)).run events)
      (observed action? (start settings cache (.live w₀)) events)
      (observed append? (start settings cache (.live w₀)) events)
      (observed replied? (start settings cache (.live w₀)) events) := by
  induction events using List.reverseRecOn with
  | nil => exact Logged.start w₀ settings cache
  | append_singleton events e ih =>
    have hbefore := ih fun e he => hprivate e (List.mem_append_left _ he)
    have hstep := hbefore.step hstart (follows_run settings cache _ events)
      (hprivate e (by simp))
    simpa only [run_concat, observed_concat] using hstep

theorem lost_run (hstart : Ledger.Writer.start config time eventTime micros = .ok w₀)
    (settings : Settings) (cache : CacheConfig) {events : List Event}
    (hprivate : ∀ e ∈ events, e.isPrivate = true) :
    ((endings (start settings cache (.live w₀)) events).filterMap Ending.lost?).Perm
      ((observed append? (start settings cache (.live w₀)) events).filterMap Append.refused? ++
        (observed replied? (start settings cache (.live w₀)) events).filterMap failedWait?) := by
  refine List.perm_iff_count.2 fun a => ?_
  induction events using List.reverseRecOn with
  | nil => rfl
  | append_singleton events e ih =>
    have hearlier : ∀ e ∈ events, e.isPrivate = true :=
      fun e he => hprivate e (List.mem_append_left _ he)
    have hbefore := ih hearlier
    have hstep := congrArg (List.count a)
      (lost_step (logged_run hstart settings cache hearlier).ledger e)
    simp only [endings, observed_concat, List.filterMap_append,
      List.count_append] at hbefore hstep ⊢
    omega

end Started

end Traffic

end AuditedPetitions
