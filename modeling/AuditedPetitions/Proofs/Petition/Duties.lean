import AuditedPetitions.Proofs.Petition.Transparency

/-! Duties of a committed write: the ledger, the cache and the index are to learn of it. A duty is
owed by an effect of the call or by a task, until a collaborator's answer ends it. What a step of a
call does to duties is said once; from it follow the books of every run: what is owed and what has
ended is what the committed writes are due, and every failed end has its report. -/

namespace AuditedPetitions

/-- Something that a committed write leaves to be done. -/
inductive Duty
  | append (description : String)
  | petition (id : Uuid)
  | listings
  | index (id : Uuid)
  deriving DecidableEq

namespace Duty

/-- Kind of side effect under which a failure is counted. -/
def effect : Duty → String
  | .append _ => "ledger"
  | .petition _ | .listings => "cache"
  | .index _ => "index"

/-- Words in which a failure is reported, ahead of the error. -/
def failure : Duty → String
  | .append description => "ledger append for '" ++ description ++ "' failed: "
  | .petition id => "invalidating petition " ++ id.text ++ " failed: "
  | .listings => "invalidating listings failed: "
  | .index id => "indexing petition " ++ id.text ++ " failed: "

end Duty

/-- A duty that is over, and the message of the error that it failed with. -/
structure Ending where
  duty : Duty
  fault : Option String
  deriving DecidableEq

namespace Ending

def failed (e : Ending) : Bool := e.fault.isSome

/-- Warning that a failure leaves in the audit trail. -/
def report? (e : Ending) : Option AuditEntry :=
  e.fault.map fun message =>
    ⟨.warn, "degraded write (" ++ e.duty.effect ++ "): " ++ e.duty.failure ++ message⟩

end Ending

namespace Effect

def duty : Effect → Duty
  | .record d => .append d.description
  | .awaitSeal _ description => .append description
  | .dropPetition id => .petition id
  | .findListings | .dropListings _ => .listings

end Effect

namespace Task

def duty : Task → Duty
  | .index d => .index d.id
  | .seal _ description => .append description

end Task

/-- Message of an answer that is an error. -/
def fault? {ε α : Type} (message : ε → String) : Except ε α → Option String
  | .error e => some (message e)
  | .ok _ => none

def Ledger.Reply.fault? : Ledger.Reply → Option String
  | .failed e => some e.message
  | .sealed _ | .stopped => none

namespace Service

/-- How the collaborators answer an effect, if their answer ends its duty. A search that finds
listings, a transaction that is submitted and a missing block leave the duty to what follows. -/
def ending? (s : Service) (c : Conditions) : Effect → Option Ending
  | .record d =>
    (fault? Ledger.Error.message (c.ledger.elim (s.ledger.submit (d.stamp c.now)) .error)).map
      fun message => ⟨.append d.description, some message⟩
  | .awaitSeal pending description =>
    (s.ledger.reply? pending).map fun r => ⟨.append description, r.fault?⟩
  | .dropPetition id =>
    some ⟨.petition id,
      fault? Cache.Error.message (s.cache.remove c.backend [CacheKey.petition id]).1⟩
  | .findListings =>
    match (s.cache.find c.backend CacheKey.listing).1 with
    | .ok [] => some ⟨.listings, none⟩
    | .ok (_ :: _) => none
    | .error e => some ⟨.listings, some e.message⟩
  | .dropListings keys =>
    some ⟨.listings, fault? Cache.Error.message (s.cache.remove c.backend keys).1⟩

/-- How the collaborators answer a task, if their answer ends its duty. -/
def taskEnding? (s : Service) (c : Conditions) : Task → Option Ending
  | .index d => some ⟨.index d.id, c.index.map IndexError.message⟩
  | .seal pending description =>
    (s.ledger.reply? pending).map fun r => ⟨.append description, r.fault?⟩

theorem taskEnding?_tasks (s : Service) (tasks : List Task) (c : Conditions) (task : Task) :
    taskEnding? { s with background := tasks } c task = s.taskEnding? c task := by
  cases task <;> rfl

/-- Warnings of the audit trail. -/
def warnings (s : Service) : AuditTrail := s.audit.filter (·.level = .warn)

/-- The failed ones among some endings have been reported, each once, and nothing else. -/
structure Reports (s s' : Service) (endings : List Ending) : Prop where
  warnings : s'.warnings = s.warnings ++ endings.filterMap Ending.report?
  counted : ∀ effect, s'.metrics.degraded.count effect = s.metrics.degraded.count effect +
    endings.countP fun e => e.failed && e.duty.effect = effect
  total : s'.metrics.degraded.total = s.metrics.degraded.total + endings.countP Ending.failed

namespace Reports

variable {s s' s'' : Service} {xs ys : List Ending}

theorem of_same (hwarnings : s'.warnings = s.warnings)
    (hdegraded : s'.metrics.degraded = s.metrics.degraded) : Reports s s' [] where
  warnings := by simp [hwarnings]
  counted effect := by simp [hdegraded]
  total := by simp [hdegraded]

theorem trans (h : Reports s s' xs) (h' : Reports s' s'' ys) : Reports s s'' (xs ++ ys) where
  warnings := by rw [h'.warnings, h.warnings, List.filterMap_append, List.append_assoc]
  counted effect := by rw [h'.counted, h.counted, List.countP_append, Nat.add_assoc]
  total := by rw [h'.total, h.total, List.countP_append, Nat.add_assoc]

theorem well (h : Reports s s' []) (duty : Duty) : Reports s s' [⟨duty, none⟩] where
  warnings := h.warnings
  counted := h.counted
  total := h.total

theorem degrade {effect detail message : String} {duty : Duty} (haudit : s'.audit = s.audit)
    (hmetrics : s'.metrics = s.metrics) (heffect : effect = duty.effect)
    (hdetail : detail = duty.failure ++ message) :
    Reports s (s'.degrade effect detail) [⟨duty, some message⟩] where
  warnings := by
    simp [Service.warnings, Service.degrade, Service.emit, Ending.report?, List.filter_append,
      String.append_assoc, haudit, heffect, hdetail]
  counted k := by
    simp only [Service.degrade, Service.emit, ServiceMetrics.recordDegraded, Ending.failed,
      Option.isSome_some, Bool.true_and, List.countP_singleton, decide_eq_true_eq, hmetrics,
      heffect]
    split
    · rename_i hk
      rw [hk, Counter.count_bump_self]
    · rename_i hk
      rw [Counter.count_bump_of_ne _ (Ne.symm hk), Nat.add_zero]
  total := by
    rw [← hmetrics]
    exact Counter.total_bump _ _

end Reports

/-- What performing an effect comes to: its duty ends, or an effect or a task takes it over. -/
inductive Performed (s : Service) (duty : Duty) : Option Ending → Service → List Effect → Prop
  | ends {s' : Service} {ending : Ending} (same : ending.duty = duty)
      (reports : Reports s s' [ending]) (background : s'.background = s.background) :
      Performed s duty (some ending) s' []
  | goesOn {s' : Service} {e : Effect} (same : e.duty = duty) (reports : Reports s s' [])
      (background : s'.background = s.background) : Performed s duty none s' [e]
  | handsOver {s' : Service} (task : Task) (same : task.duty = duty) (reports : Reports s s' [])
      (background : s'.background = s.background ++ [task]) : Performed s duty none s' []

theorem reports_degradeAppend (s : Service) (description : String) (e : Ledger.Error) :
    Reports s (s.degradeAppend description e) [⟨.append description, some e.message⟩] :=
  Reports.degrade rfl rfl rfl rfl

theorem reports_noteReply (s : Service) (description : String) (r : Ledger.Reply) :
    Reports s (s.noteReply description r) [⟨.append description, r.fault?⟩] := by
  cases r with
  | failed e => exact reports_degradeAppend s description e
  | sealed b => exact (Reports.of_same rfl rfl).well _
  | stopped => exact (Reports.of_same rfl rfl).well _

theorem background_noteReply (s : Service) (description : String) (r : Ledger.Reply) :
    (s.noteReply description r).background = s.background := by cases r <;> rfl

theorem performed_record (s : Service) (c : Conditions) (d : Ledger.Draft) :
    Performed s (.append d.description) (s.ending? c (.record d)) (s.record c d).1
      (s.record c d).2 := by
  simp only [ending?, record]
  cases c.ledger.elim (s.ledger.submit (d.stamp c.now)) .error with
  | error e => exact .ends rfl (reports_degradeAppend s d.description e) rfl
  | ok submitted =>
    dsimp only
    cases s.settings.appendMode with
    | inline => exact .goesOn rfl (Reports.of_same rfl rfl) rfl
    | background =>
      exact .handsOver (.seal submitted.1 d.description) rfl (Reports.of_same rfl rfl) rfl

theorem performed (s : Service) (c : Conditions) (e : Effect) :
    Performed s e.duty (s.ending? c e) (s.perform c e).1 (s.perform c e).2 := by
  cases e with
  | record d => exact performed_record s c d
  | awaitSeal pending description =>
    simp only [ending?, perform]
    cases s.ledger.reply? pending with
    | none => exact .goesOn rfl (Reports.of_same rfl rfl) rfl
    | some r => exact .ends rfl (reports_noteReply s description r) (background_noteReply ..)
  | dropPetition id =>
    simp only [ending?, perform]
    rcases s.cache.remove c.backend [CacheKey.petition id] with ⟨e | n, cache⟩
    · exact .ends rfl (Reports.degrade rfl rfl rfl rfl) rfl
    · refine .ends rfl (Reports.well ?_ _) rfl
      exact Reports.of_same rfl rfl
  | findListings =>
    simp only [ending?, perform]
    rcases s.cache.find c.backend CacheKey.listing with ⟨e | _ | _, cache⟩
    · exact .ends rfl (Reports.degrade rfl rfl rfl rfl) rfl
    · refine .ends rfl (Reports.well ?_ _) rfl
      exact Reports.of_same rfl rfl
    · exact .goesOn rfl (Reports.of_same rfl rfl) rfl
  | dropListings keys =>
    simp only [ending?, perform]
    rcases s.cache.remove c.backend keys with ⟨e | n, cache⟩
    · exact .ends rfl (Reports.degrade rfl rfl rfl rfl) rfl
    · refine .ends rfl (Reports.well ?_ _) rfl
      exact Reports.of_same rfl rfl

theorem performed_runTask (s : Service) (c : Conditions) (task : Task) :
    Performed s task.duty (s.taskEnding? c task) (s.runTask c task) [] := by
  match task with
  | .index d =>
    simp only [taskEnding?, runTask]
    cases c.index with
    | none =>
      refine .ends rfl (Reports.well ?_ _) rfl
      exact Reports.of_same rfl rfl
    | some e => exact .ends rfl (Reports.degrade rfl rfl rfl rfl) rfl
  | .seal pending description =>
    simp only [taskEnding?, runTask]
    cases s.ledger.reply? pending with
    | none => exact .handsOver (.seal pending description) rfl (Reports.of_same rfl rfl) rfl
    | some r => exact .ends rfl (reports_noteReply s description r) (background_noteReply ..)

end Service

namespace Demand

/-- Whether a call is made to change the store. -/
def isWrite : Demand → Bool
  | .create .. | .vote _ | .delete _ => true
  | .get _ | .list .. => false

/-- Replies to a write that has been committed: they repeat what was asked for. -/
def Yields : Demand → Reply → Prop
  | .create request id, .petition p => ∃ now, p = .ofRequest request id now
  | .vote b, .vote v => v.id = b.id ∧ v.voterId = b.voter ∧ v.petitionId = b.petition ∧
      VoteType.ofText b.type = .ok v.voteType
  | .delete _, .deleted => True
  | _, _ => False

/-- Tasks and effects that follow a committed write. -/
def sequel : Demand → Reply → List Task × List Effect
  | .create .., .petition p => ([.index p.searchDocument], [.findListings, .record p.draft])
  | .vote _, .vote v => ([], [.record v.draft, .dropPetition v.petitionId, .findListings])
  | .delete id, .deleted => ([], [.dropPetition id, .findListings])
  | _, _ => ([], [])

/-- What a committed write is due. -/
def duties : Demand → Reply → List Duty
  | .create .., .petition p =>
    [.index p.id, .listings, .append ("Petition " ++ p.id.text ++ " created")]
  | .vote _, .vote v =>
    [.append (v.voteType.name ++ " vote on petition " ++ v.petitionId.text),
      .petition v.petitionId, .listings]
  | .delete id, .deleted => [.petition id, .listings]
  | _, _ => []

theorem duties_sequel (d : Demand) (reply : Reply) :
    (d.sequel reply).1.map Task.duty ++ (d.sequel reply).2.map Effect.duty = d.duties reply := by
  cases d <;> cases reply <;> rfl

theorem duties_of_read {d : Demand} (h : d.isWrite = false) (reply : Reply) :
    d.duties reply = [] := by
  cases d <;> first | rfl | cases h

end Demand

namespace Call

def effects : Call → List Effect
  | .settle effects _ => effects
  | _ => []

theorem effects_of_isDone {call : Call} (h : call.isDone = true) : call.effects = [] := by
  obtain ⟨answer, rfl⟩ := isDone_iff.1 h
  rfl

@[simp] theorem effects_settle (effects : List Effect) (reply : Reply) :
    (settle effects reply).effects = effects := rfl

/-- Reply that a call has come to, though it may not have returned it. -/
def reply? : Call → Option Reply
  | .settle _ reply | .done (.ok reply) => some reply
  | _ => none

@[simp] theorem reply?_settle (effects : List Effect) (reply : Reply) :
    (settle effects reply).reply? = some reply := rfl

/-- The call stands where its demand has brought it, and any reply to a write repeats the demand. -/
def Follows (d : Demand) : Call → Prop
  | .create request id => d = .create request id
  | .delete id => d = .delete id
  | .preflight b | .examine b => d = .vote b
  | .commit b type => d = .vote b ∧ VoteType.ofText b.type = .ok type
  | .settle _ reply => d.Yields reply
  | .look .. | .load .. | .fill .. => d.isWrite = false
  | .done (.ok reply) => d.isWrite = true → d.Yields reply
  | .done (.error _) => True

theorem follows_failed (d : Demand) (f : Failure StoreError) :
    (Call.done (Service.failed f)).Follows d := by cases f <;> trivial

theorem reply?_failed (f : Failure StoreError) :
    (Call.done (Service.failed f)).reply? = none := by cases f <;> rfl

end Call

theorem Petition.ofText_of_admit {p : Petition} {text : String} {now : Instant} {type : VoteType}
    (h : p.admit text now = .ok type) : VoteType.ofText text = .ok type := by
  unfold Petition.admit at h
  split at h
  · cases h
  · rename_i htype
    split at h
    · cases h
    · obtain ⟨reached, -, h⟩ := Outcome.bind_eq_ok.1 h
      cases reached
      · cases h
        exact htype
      · cases h

namespace Service

/-- Nothing has changed for the ledger, for the tasks and for what is reported. -/
structure Quiet (s s' : Service) : Prop where
  ledger : s'.ledger = s.ledger
  background : s'.background = s.background
  warnings : s'.warnings = s.warnings
  degraded : s'.metrics.degraded = s.metrics.degraded

theorem Quiet.refl (s : Service) : Quiet s s := ⟨rfl, rfl, rfl, rfl⟩

theorem warnings_emit {level : AuditLevel} (h : level ≠ .warn) (s : Service) (message : String) :
    (s.emit level message).warnings = s.warnings := by
  simp [warnings, emit, List.filter_append, h]

theorem quiet_closeVote (s : Service) (voter petition : Uuid)
    (result : Outcome PetitionError Vote) : Quiet s (s.closeVote voter petition result).1 := by
  unfold closeVote
  split
  · exact ⟨rfl, rfl, warnings_emit (by decide) _ _, rfl⟩
  · refine ⟨rfl, rfl, warnings_emit ?_ _ _, rfl⟩
    split <;> decide
  · exact Quiet.refl s

/-- What a step of a call is: rest for all but the store and the readers, a committed write with its
sequel, or an effect of one. -/
inductive Turn (s : Service) (c : Conditions) (d : Demand) : Call → Service → Call → Prop
  | rest {call next : Call} {s' : Service} (quiet : Quiet s s') (follows : next.Follows d)
      (idle : call.effects = []) (still : next.effects = [])
      (reply : d.isWrite = true → next.reply? = call.reply?) : Turn s c d call s' next
  | commit {call : Call} {s' : Service} (reply : Reply)
      (quiet : Quiet { s with background := s.background ++ (d.sequel reply).1 } s')
      (yields : d.Yields reply) (idle : call.effects = []) (fresh : call.reply? = none) :
      Turn s c d call s' (.settle (d.sequel reply).2 reply)
  | perform {e : Effect} {effects : List Effect} {reply : Reply} (yields : d.Yields reply) :
      Turn s c d (.settle (e :: effects) reply) (s.perform c e).1
        (.settle ((s.perform c e).2 ++ effects) reply)

variable {s s' : Service} {c : Conditions} {d : Demand} {call next : Call}

theorem Refuses.fresh {f : Failure StoreError} (h : s.Refuses c call f) :
    call.effects = [] ∧ call.reply? = none := by cases h <;> exact ⟨rfl, rfl⟩

theorem Takes.fresh {effects : List Effect} {reply : Reply}
    (h : s.Takes c call s' effects reply) : call.effects = [] ∧ call.reply? = none := by
  cases h <;> exact ⟨rfl, rfl⟩

theorem Takes.commit {effects : List Effect} {reply : Reply}
    (h : s.Takes c call s' effects reply) (hf : call.Follows d) :
    Turn s c d call s' (.settle effects reply) := by
  obtain ⟨idle, fresh⟩ := h.fresh
  cases h with
  | @create request id p store made answer =>
    subst hf made
    refine .commit (.petition (.ofRequest request id c.now)) ⟨rfl, rfl, ?_, rfl⟩ ⟨c.now, rfl⟩ idle
      fresh
    exact warnings_emit (by decide) _ _
  | @delete id store answer =>
    obtain rfl : d = .delete id := hf
    refine .commit .deleted ⟨rfl, (List.append_nil _).symm, ?_, rfl⟩ trivial idle fresh
    exact warnings_emit (by decide) _ _
  | @vote b type v store made answer =>
    obtain ⟨rfl, htype⟩ := hf
    subst made
    exact .commit (.vote ⟨b.id, b.voter, b.petition, type, c.now⟩)
      ⟨rfl, (List.append_nil _).symm, rfl, rfl⟩ ⟨rfl, rfl, rfl, htype⟩ idle fresh

theorem Ends.closes {voter petition : Uuid} {result : Outcome PetitionError Vote}
    (h : s.Ends c call voter petition result) (hf : call.Follows d) :
    (Call.done (result.map .vote)).Follows d ∧ call.effects = [] ∧
      (Call.done (result.map .vote)).reply? = call.reply? := by
  cases h with
  | settled => exact ⟨fun _ => hf, rfl, rfl⟩
  | voted | unfit => exact ⟨trivial, rfl, rfl⟩
  | _ =>
    rw [map_mapRefusal]
    exact ⟨Call.follows_failed d _, rfl, Call.reply?_failed _⟩

theorem Fetches.follows {cache : Cache Cache.ExpiringMap} (h : s.Fetches c call cache next)
    (hf : call.Follows d) :
    d.isWrite = false ∧ next.Follows d ∧ call.effects = [] ∧ next.effects = [] := by
  have hread : d.isWrite = false := by cases h <;> exact hf
  have hnone : ¬ d.isWrite = true := fun hwrite => by
    rw [hread] at hwrite
    cases hwrite
  cases h with
  | miss | keep => exact ⟨hread, hread, rfl, rfl⟩
  | overrun => exact ⟨hread, trivial, rfl, rfl⟩
  | _ => exact ⟨hread, fun hwrite => absurd hwrite hnone, rfl, rfl⟩

theorem Moves.turn (h : s.Moves c call s' next) (hf : call.Follows d) :
    Turn s c d call s' next := by
  cases h with
  | refused h =>
    obtain ⟨idle, fresh⟩ := h.fresh
    exact .rest (.refl s) (Call.follows_failed d _) idle rfl
      fun _ => (Call.reply?_failed _).trans fresh.symm
  | written h => exact h.commit hf
  | passed h =>
    cases h with
    | preflight answer => exact .rest (.refl s) hf rfl rfl fun _ => rfl
    | examine answer admits =>
      exact .rest (.refl s) ⟨hf, Petition.ofText_of_admit admits⟩ rfl rfl fun _ => rfl
  | ended h =>
    obtain ⟨follows, idle, reply⟩ := h.closes hf
    exact .rest (quiet_closeVote ..) follows idle rfl fun _ => reply
  | performed => exact .perform hf
  | replied h => exact .rest (.refl s) (fun _ => hf) rfl rfl fun _ => rfl
  | fetched h =>
    obtain ⟨hread, follows, idle, still⟩ := h.follows hf
    refine .rest ⟨rfl, rfl, rfl, rfl⟩ follows idle still fun hwrite => ?_
    exact absurd (hread.symm.trans hwrite) Bool.false_ne_true
  | rest => exact .rest (.refl s) hf rfl rfl fun _ => rfl

/-- How the collaborators answer a call that has effects left. -/
def callEnding? (s : Service) (c : Conditions) : Call → Option Ending
  | .settle (e :: _) _ => s.ending? c e
  | _ => none

theorem callEnding?_of_idle {s : Service} {c : Conditions} {call : Call}
    (h : call.effects = []) : s.callEnding? c call = none := by
  cases call with
  | settle effects reply =>
    obtain rfl : effects = [] := h
    rfl
  | _ => rfl

theorem Quiet.reports {s s' : Service} (h : Quiet s s') : Reports s s' [] :=
  .of_same h.warnings h.degraded

theorem Performed.reports {s s' : Service} {duty : Duty} {ending? : Option Ending}
    {more : List Effect} (h : Performed s duty ending? s' more) : Reports s s' ending?.toList := by
  cases h <;> assumption

theorem Performed.count {s s' : Service} {duty : Duty} {ending? : Option Ending}
    {more : List Effect} (h : Performed s duty ending? s' more) (a : Duty) :
    (more.map Effect.duty).count a + (s'.background.map Task.duty).count a +
        (ending?.toList.map Ending.duty).count a =
      [duty].count a + (s.background.map Task.duty).count a := by
  cases h with
  | ends same reports background => simp [same, background, Nat.add_comm]
  | goesOn same reports background => simp [same, background]
  | handsOver task same reports background =>
    simp only [background, List.map_append, List.count_append, List.map_cons, List.map_nil, same,
      Option.toList_none, List.count_nil]
    omega

end Service

/-- What the write of a client is due, once it has been committed. -/
def Client.duties (c : Client) : List Duty := c.call.reply?.elim [] c.demand.duties

namespace Service.Turn

variable {s s' : Service} {c : Conditions} {d : Demand} {call next : Call}

theorem follows (h : Turn s c d call s' next) : next.Follows d := by
  cases h <;> assumption

theorem reports (h : Turn s c d call s' next) : Reports s s' (s.callEnding? c call).toList := by
  cases h with
  | rest quiet follows idle still reply =>
    rw [callEnding?_of_idle idle]
    exact quiet.reports
  | commit reply quiet yields idle fresh =>
    rw [callEnding?_of_idle idle]
    exact .of_same quiet.warnings quiet.degraded
  | perform yields => exact (performed s c _).reports

/-- What a call owes, what the tasks owe, and what ends, is what is due. -/
theorem count (h : Turn s c d call s' next) (a : Duty) :
    (next.effects.map Effect.duty).count a + (s'.background.map Task.duty).count a +
        ((s.callEnding? c call).toList.map Ending.duty).count a +
        (call.reply?.elim [] d.duties).count a =
      (call.effects.map Effect.duty).count a + (s.background.map Task.duty).count a +
        (next.reply?.elim [] d.duties).count a := by
  cases h with
  | rest quiet follows idle still reply =>
    have hdue : next.reply?.elim [] d.duties = call.reply?.elim [] d.duties := by
      cases hwrite : d.isWrite with
      | true => rw [reply hwrite]
      | false => cases next.reply? <;> cases call.reply? <;> simp [Demand.duties_of_read hwrite]
    simp [callEnding?_of_idle idle, idle, still, quiet.background, hdue]
  | commit reply quiet yields idle fresh =>
    have hsequel := congrArg (List.count a) (Demand.duties_sequel d reply)
    simp only [List.count_append] at hsequel
    simp only [callEnding?_of_idle idle, idle, quiet.background, fresh, Call.effects_settle,
      Call.reply?_settle, List.map_append, List.count_append, Option.elim_none, Option.elim_some,
      Option.toList_none, List.map_nil, List.count_nil]
    omega
  | @perform e effects reply yields =>
    have hcount := (performed s c e).count a
    simp only [Call.effects_settle, Call.reply?_settle, callEnding?, List.map_append,
      List.count_append, List.map_cons, List.count_cons, List.count_nil] at hcount ⊢
    omega

end Service.Turn

namespace Demand

theorem start_follows (d : Demand) (s : Service) (now : Instant) : (d.start s now).Follows d := by
  cases d with
  | create request id =>
    simp only [start, Service.startCreate]
    split
    · trivial
    · rfl
  | vote b =>
    simp only [start, Service.startVote]
    split <;> rfl
  | delete id => rfl
  | get id => rfl
  | list limit offset =>
    simp only [start, Service.startList]
    split
    · trivial
    · split <;> rfl

theorem start_fresh (d : Demand) (s : Service) (now : Instant) :
    (d.start s now).reply? = none ∧ (d.start s now).effects = [] := by
  cases d with
  | create request id =>
    simp only [start, Service.startCreate]
    split <;> exact ⟨rfl, rfl⟩
  | vote b =>
    simp only [start, Service.startVote]
    split <;> exact ⟨rfl, rfl⟩
  | delete id => exact ⟨rfl, rfl⟩
  | get id => exact ⟨rfl, rfl⟩
  | list limit offset =>
    simp only [start, Service.startList]
    split
    · exact ⟨rfl, rfl⟩
    · split <;> exact ⟨rfl, rfl⟩

end Demand

theorem count_flatMap_set {α β : Type} [BEq β] (f : α → List β) {l : List α} {n : Nat}
    (h : n < l.length) (x : α) (b : β) :
    ((l.set n x).flatMap f).count b + (f l[n]).count b = (l.flatMap f).count b + (f x).count b := by
  have hset := ((List.set_perm_cons_eraseIdx h x).flatMap_right f).count_eq b
  have hget := ((List.getElem_cons_eraseIdx_perm h).flatMap_right f).count_eq b
  simp only [List.flatMap_cons, List.count_append] at hset hget
  omega

namespace Traffic

/-- What the events of a run are seen to do, in order. -/
def observed {α : Type} (see : Traffic → Event → Option α) : Traffic → List Event → List α
  | _, [] => []
  | t, e :: events => (see t e).toList ++ observed see (t.step e) events

theorem observed_append {α : Type} (see : Traffic → Event → Option α) (t : Traffic)
    (xs ys : List Event) :
    observed see t (xs ++ ys) = observed see t xs ++ observed see (t.run xs) ys := by
  induction xs generalizing t with
  | nil => rfl
  | cons e xs ih => simp [observed, ih, run]

theorem observed_concat {α : Type} (see : Traffic → Event → Option α) (t : Traffic)
    (xs : List Event) (e : Event) :
    observed see t (xs ++ [e]) = observed see t xs ++ (see (t.run xs) e).toList := by
  simp [observed_append, observed]

/-- Duty that ends with an event. -/
def ended? (t : Traffic) : Event → Option Ending
  | .advance n c => t.clients[n]?.bind fun client => t.service.callEnding? c client.call
  | .work n c => t.service.background[n]?.bind (t.service.taskEnding? c)
  | .arrive .. | .switchStore _ | .ledger _ => none

/-- Duties that end in a run, in order. -/
def endings (t : Traffic) (events : List Event) : List Ending := observed ended? t events

/-- Duties that calls and tasks have yet to do. -/
def owed (t : Traffic) : List Duty :=
  t.clients.flatMap (·.call.effects.map Effect.duty) ++ t.service.background.map Task.duty

/-- Duties of the writes that have been committed. -/
def due (t : Traffic) : List Duty := t.clients.flatMap Client.duties

/-- Every call stands where its demand has brought it. -/
def Follows (t : Traffic) : Prop := ∀ client ∈ t.clients, client.call.Follows client.demand

theorem Follows.step {t : Traffic} (h : t.Follows) (e : Event) : (t.step e).Follows := by
  cases e with
  | arrive d now =>
    intro client hclient
    rcases List.mem_append.1 hclient with hclient | hclient
    · exact h client hclient
    · rw [List.mem_singleton.1 hclient]
      exact d.start_follows t.service now
  | advance n c =>
    simp only [Traffic.step, advance]
    split
    · exact h
    · rename_i old hold
      intro client hclient
      rcases List.mem_or_eq_of_mem_set hclient with hclient | rfl
      · exact h client hclient
      · exact ((Service.moves_step ..).turn (h old (List.mem_of_getElem? hold))).follows
  | switchStore available => exact h
  | work n c => exact h
  | ledger action => exact h

theorem follows_run (settings : Settings) (cache : CacheConfig) (ledger : Ledger.Peer)
    (events : List Event) : ((start settings cache ledger).run events).Follows := by
  induction events using List.reverseRecOn with
  | nil => exact fun client hclient => absurd hclient List.not_mem_nil
  | append_singleton events e ih =>
    rw [run_concat]
    exact ih.step e

/-- What an event does to the books: what ends is reported, and is owed no longer. -/
structure Booked (t t' : Traffic) (ending? : Option Ending) : Prop where
  reports : t.service.Reports t'.service ending?.toList
  count : ∀ a, t'.owed.count a + (ending?.toList.map Ending.duty).count a + t.due.count a =
    t.owed.count a + t'.due.count a

theorem Booked.refl (t : Traffic) : Booked t t none := ⟨.of_same rfl rfl, fun a => by simp⟩

theorem booked_advance {t : Traffic} (h : t.Follows) (n : Nat) (c : Conditions) :
    Booked t (t.advance n c) (ended? t (.advance n c)) := by
  cases hn : t.clients[n]? with
  | none => simpa [advance, ended?, hn] using Booked.refl t
  | some client =>
    have hturn := (t.service.moves_step c client.call).turn (h client (List.mem_of_getElem? hn))
    obtain ⟨hlt, rfl⟩ := List.getElem?_eq_some_iff.1 hn
    simp only [advance_of_found hn, ended?, hn, Option.bind_some]
    refine ⟨hturn.reports, fun a => ?_⟩
    have hcount := hturn.count a
    have howed := count_flatMap_set (fun client : Client => client.call.effects.map Effect.duty)
      hlt ⟨t.clients[n].demand, (t.service.step c t.clients[n].call).2⟩ a
    have hdue := count_flatMap_set Client.duties hlt
      ⟨t.clients[n].demand, (t.service.step c t.clients[n].call).2⟩ a
    simp only [owed, due, Client.duties, List.count_append] at howed hdue ⊢
    omega

theorem booked_work (t : Traffic) (n : Nat) (c : Conditions) :
    Booked t (t.step (.work n c)) (ended? t (.work n c)) := by
  cases hn : t.service.background[n]? with
  | none => simpa [step, work, ended?, hn] using Booked.refl t
  | some task =>
    have hdone := Service.performed_runTask
      { t.service with background := t.service.background.eraseIdx n } c task
    obtain ⟨hlt, rfl⟩ := List.getElem?_eq_some_iff.1 hn
    simp only [step, work, ended?, hn, Option.bind_some]
    refine ⟨?_, fun a => ?_⟩
    · have hreports := hdone.reports
      exact ⟨hreports.warnings, hreports.counted, hreports.total⟩
    · have hcount := hdone.count a
      have hperm := ((List.getElem_cons_eraseIdx_perm hlt).map Task.duty).count_eq a
      simp only [owed, due, List.count_append, List.map_cons, List.map_nil, List.count_cons,
        List.count_nil, Service.taskEnding?_tasks] at hcount hperm ⊢
      omega

theorem booked_step {t : Traffic} (h : t.Follows) (e : Event) :
    Booked t (t.step e) (ended? t e) := by
  cases e with
  | arrive d now =>
    have hfresh := d.start_fresh t.service now
    refine ⟨.of_same rfl rfl, fun a => ?_⟩
    simp [step, owed, due, ended?, Client.duties, hfresh]
  | advance n c => exact booked_advance h n c
  | switchStore available => exact ⟨.of_same rfl rfl, (Booked.refl t).count⟩
  | work n c => exact booked_work t n c
  | ledger action => exact ⟨.of_same rfl rfl, (Booked.refl t).count⟩

theorem reports_run (settings : Settings) (cache : CacheConfig) (ledger : Ledger.Peer)
    (events : List Event) :
    (start settings cache ledger).service.Reports ((start settings cache ledger).run events).service
      (endings (start settings cache ledger) events) := by
  induction events using List.reverseRecOn with
  | nil => exact .of_same rfl rfl
  | append_singleton events e ih =>
    have hstep := (booked_step (follows_run settings cache ledger events) e).reports
    rw [run_concat, endings, observed_concat]
    exact ih.trans hstep

theorem booked_run (settings : Settings) (cache : CacheConfig) (ledger : Ledger.Peer)
    (events : List Event) :
    (((start settings cache ledger).run events).owed ++
        (endings (start settings cache ledger) events).map Ending.duty).Perm
      ((start settings cache ledger).run events).due := by
  refine List.perm_iff_count.2 fun a => ?_
  rw [List.count_append]
  induction events using List.reverseRecOn with
  | nil => rfl
  | append_singleton events e ih =>
    have hstep := (booked_step (follows_run settings cache ledger events) e).count a
    simp only [run_concat, endings, observed_concat, List.map_append, List.count_append] at ih ⊢
    omega

theorem owed_of_quiescent {t : Traffic} (hcalls : ∀ client ∈ t.clients, client.call.isDone = true)
    (htasks : t.service.background = []) : t.owed = [] := by
  have hcall : t.clients.flatMap (·.call.effects.map Effect.duty) = [] := by
    refine List.flatMap_eq_nil_iff.2 fun client hclient => ?_
    rw [Call.effects_of_isDone (hcalls client hclient), List.map_nil]
  rw [owed, hcall, htasks]
  rfl

end Traffic

end AuditedPetitions
