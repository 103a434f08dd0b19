import AuditedPetitions.Proofs.Petition.Isolation
import AuditedPetitions.Proofs.Petition.Preflight
import AuditedPetitions.Proofs.Petition.Regular

/-! Rejections. A write that ends with an error has touched nothing on its way: the first of its
steps that changes more than what is told of votes is its commit, and a call that has committed ends
with its reply. Votes are told of in the counters and in the audit trail: when a vote ends it is
counted once, under the one outcome that stands for its answer, and leaves one entry. Every call ends:
it takes nine steps at most, besides those in which it waits for the ledger. -/

namespace AuditedPetitions

/-- Nothing has changed but what is told of votes. -/
structure Service.Untouched (s s' : Service) : Prop where
  store : s'.store = s.store
  cache : s'.cache = s.cache
  ledger : s'.ledger = s.ledger
  documents : s'.documents = s.documents
  background : s'.background = s.background
  degraded : s'.metrics.degraded = s.metrics.degraded

namespace Service

theorem Untouched.of_core {s s' : Service} (h : s'.core = s.core) : Untouched s s' := by
  have hfield {α : Type} (field : Service → α) : field s'.core = field s.core := congrArg field h
  constructor
  case store => exact hfield Service.store
  case cache => exact hfield Service.cache
  case ledger => exact hfield Service.ledger
  case documents => exact hfield Service.documents
  case background => exact hfield Service.background
  case degraded => exact hfield (·.metrics.degraded)

theorem Moves.core_eq {s s' : Service} {c : Conditions} {d : Demand} {call next : Call}
    (h : s.Moves c call s' next) (hf : call.Follows d) (hwrite : d.isWrite = true)
    (hnone : next.reply? = none) : s'.core = s.core := by
  cases h with
  | written h => cases hnone
  | ended h => exact s.core_closeVote ..
  | performed => cases hnone
  | fetched h => exact absurd ((h.follows hf).1.symm.trans hwrite) Bool.false_ne_true
  | refused | passed | replied | rest => rfl

theorem Turn.reply?_eq {s s' : Service} {c : Conditions} {d : Demand} {call next : Call}
    {reply : Reply} (h : Turn s c d call s' next) (hwrite : d.isWrite = true)
    (hreply : call.reply? = some reply) : next.reply? = some reply := by
  cases h with
  | rest quiet follows idle still same => exact (same hwrite).trans hreply
  | commit reply quiet yields idle fresh => exact absurd (fresh.symm.trans hreply) nofun
  | perform yields => exact hreply

end Service

namespace Traffic

/-- The event is the arrival of a client, or a step of its call. -/
def Concerns (n : Nat) (t : Traffic) : Event → Prop
  | .arrive .. => n = t.clients.length
  | .advance m _ => n = m
  | .switchStore _ | .work .. | .ledger _ => False

variable {t : Traffic} {n : Nat} {client : Client} {reply : Reply}

theorem reply?_step (h : t.Follows) (hn : t.clients[n]? = some client)
    (hwrite : client.demand.isWrite = true) (hreply : client.call.reply? = some reply) (e : Event) :
    ∃ call, (t.step e).clients[n]? = some ⟨client.demand, call⟩ ∧ call.reply? = some reply := by
  cases e with
  | arrive d now =>
    refine ⟨client.call, ?_, hreply⟩
    exact (List.getElem?_append_left (List.getElem?_eq_some_iff.1 hn).1).trans hn
  | advance m c =>
    cases hm : t.clients[m]? with
    | none => exact ⟨client.call, by simpa only [step, advance, hm] using hn, hreply⟩
    | some other =>
      by_cases hmn : m = n
      · subst hmn
        have hturn := (t.service.moves_step c client.call).turn (h client (List.mem_of_getElem? hn))
        exact ⟨_, client_advance hn c, hturn.reply?_eq hwrite hreply⟩
      · rw [step, advance_of_found hm]
        exact ⟨client.call, (List.getElem?_set_ne hmn).trans hn, hreply⟩
  | switchStore available => exact ⟨client.call, hn, hreply⟩
  | work m c => exact ⟨client.call, hn, hreply⟩
  | ledger action => exact ⟨client.call, hn, hreply⟩

theorem reply?_run (h : t.Follows) (hn : t.clients[n]? = some client)
    (hwrite : client.demand.isWrite = true) (hreply : client.call.reply? = some reply)
    (events : List Event) :
    ∃ call, (t.run events).clients[n]? = some ⟨client.demand, call⟩ ∧
      call.reply? = some reply := by
  induction events generalizing t client with
  | nil => exact ⟨client.call, hn, hreply⟩
  | cons e events ih =>
    obtain ⟨call, hcall, hreply'⟩ := reply?_step h hn hwrite hreply e
    have hlater := ih (h.step e) hcall hwrite hreply'
    exact hlater

theorem demand_run (hn : t.clients[n]? = some client) (events : List Event) {last : Client}
    (hlast : (t.run events).clients[n]? = some last) : last.demand = client.demand := by
  have hdemands := congrArg (·[n]?) (demands_run t events)
  have hlt : n < (t.clients.map Client.demand).length := by
    rw [List.length_map]
    exact (List.getElem?_eq_some_iff.1 hn).1
  simp only [List.getElem?_append_left hlt, List.getElem?_map, hn, hlast, Option.map_some,
    Option.some_inj] at hdemands
  exact hdemands

theorem untouched_step (h : t.Follows) {e : Event} (he : t.Concerns n e) {events : List Event}
    {f : Failure PetitionError} (hn : ((t.step e).run events).clients[n]? = some client)
    (hwrite : client.demand.isWrite = true) (hcall : client.call = .done (.error f)) :
    t.service.Untouched (t.step e).service := by
  cases e with
  | arrive d now => exact .of_core rfl
  | advance m c =>
    obtain rfl : n = m := he
    cases hclient : t.clients[n]? with
    | none => exact .of_core (by simp only [step, advance, hclient])
    | some old =>
      have hdemand : client.demand = old.demand :=
        demand_run hclient (.advance n c :: events) hn
      have hwrite' : old.demand.isWrite = true := hdemand ▸ hwrite
      have hfollows := h old (List.mem_of_getElem? hclient)
      rw [step, service_advance hclient]
      refine .of_core ((t.service.moves_step c old.call).core_eq hfollows hwrite' ?_)
      cases hreply : (t.service.step c old.call).2.reply? with
      | none => rfl
      | some reply =>
        -- a reply would still be there at the end
        obtain ⟨call, hend, hkept⟩ := reply?_run (h.step (.advance n c))
          (client_advance hclient c) hwrite' hreply events
        obtain rfl := Option.some_inj.1 (hend.symm.trans hn)
        rw [show call = .done (.error f) from hcall] at hkept
        cases hkept
  | switchStore available => exact he.elim
  | work m c => exact he.elim
  | ledger action => exact he.elim

end Traffic

/-- Whether an outcome stands for an answer. -/
def VoteOutcome.fits : VoteOutcome → Answer → Bool
  | .accepted, .ok (.vote _) => true
  | .alreadyVoted, .error (.refused .alreadyVoted) => true
  | .votingClosed, .error (.refused .votingClosed) => true
  | .goalReached, .error (.refused .goalReached) => true
  | .notFound, .error (.refused .notFound) => true
  | .invalid, .error (.refused (.invalidVoteType _)) => true
  | .invalid, .error (.refused (.validation _)) => true
  | .storeFailure, .error (.refused (.store _)) => true
  | _, _ => false

namespace VoteOutcome

theorem fits_accepted (o : VoteOutcome) (v : Vote) :
    o.fits (.ok (.vote v)) = decide (o = accepted) := by cases o <;> rfl

theorem fits_refused (o : VoteOutcome) (e : PetitionError) :
    o.fits (refuse e) = decide (o = e.outcome) := by cases e <;> cases o <;> rfl

end VoteOutcome

/-- Whether an entry of the audit trail tells of a vote. -/
def AuditEntry.isVote (e : AuditEntry) : Bool := "vote ".toList.isPrefixOf e.message.toList

/-- Entry that a vote leaves with its answer. -/
def Ballot.note? (b : Ballot) : Answer → Option AuditEntry
  | .ok (.vote v) => some ⟨.info, "vote accepted: user " ++ b.voter.text ++ " voted " ++
      v.voteType.name ++ " on petition " ++ b.petition.text⟩
  | .error (.refused e) => some ⟨if e.kind = .internal then .error else .info,
      "vote rejected: user " ++ b.voter.text ++ " on petition " ++ b.petition.text ++ ": " ++
        e.message⟩
  | _ => none

def Demand.isVote : Demand → Bool
  | .vote _ => true
  | _ => false

namespace Client

/-- A vote and the answer with which it has ended. -/
def closed? (c : Client) : Option (Ballot × Answer) :=
  match c.demand, c.call with
  | .vote b, .done answer => some (b, answer)
  | _, _ => none

theorem closed?_eq_some {c : Client} {b : Ballot} {answer : Answer} :
    c.closed? = some (b, answer) ↔ c.demand = .vote b ∧ c.call = .done answer := by
  unfold closed?
  split
  · rename_i hdemand hcall
    simp [hdemand, hcall]
  · rename_i hother
    exact iff_of_false (fun h => nomatch h) fun h => hother _ _ h.1 h.2

theorem closed?_of_running {c : Client} (h : c.call.isDone = false) : c.closed? = none := by
  refine Option.eq_none_iff_forall_ne_some.2 fun x hx => ?_
  rw [(closed?_eq_some.1 hx).2] at h
  cases h

theorem closed?_of_not_vote {c : Client} (h : c.demand.isVote = false) : c.closed? = none := by
  refine Option.eq_none_iff_forall_ne_some.2 fun x hx => ?_
  rw [(closed?_eq_some.1 hx).1] at h
  cases h

end Client

namespace Service

def voteEntries (s : Service) : AuditTrail := s.audit.filter AuditEntry.isVote

/-- Some votes have been counted, each under its outcome, and told of, each by one entry. -/
structure Tells (s s' : Service) (closed : List (Ballot × Answer)) : Prop where
  counted : ∀ o, s'.metrics.votes.count o =
    s.metrics.votes.count o + closed.countP fun x => o.fits x.2
  total : s'.metrics.votes.total = s.metrics.votes.total + closed.length
  entries : (s'.voteEntries.map some).Perm
    (s.voteEntries.map some ++ closed.map fun x => x.1.note? x.2)

namespace Tells

variable {s s' s'' : Service} {xs ys : List (Ballot × Answer)}

theorem of_same (hentries : s'.voteEntries = s.voteEntries)
    (hvotes : s'.metrics.votes = s.metrics.votes) : Tells s s' [] where
  counted o := by simp [hvotes]
  total := by simp [hvotes]
  entries := by simp [hentries]

theorem trans (h : Tells s s' xs) (h' : Tells s' s'' ys) : Tells s s'' (xs ++ ys) where
  counted o := by rw [h'.counted, h.counted, List.countP_append, Nat.add_assoc]
  total := by rw [h'.total, h.total, List.length_append, Nat.add_assoc]
  entries := by
    rw [List.map_append, ← List.append_assoc]
    exact h'.entries.trans (h.entries.append_right _)

theorem perm (h : Tells s s' xs) (hp : xs.Perm ys) : Tells s s' ys where
  counted o := by rw [h.counted, hp.countP_eq]
  total := by rw [h.total, hp.length_eq]
  entries := h.entries.trans ((hp.map _).append_left _)

end Tells

variable {s : Service} {c : Conditions}

theorem voteEntries_emit {level : AuditLevel} {message : String}
    (h : AuditEntry.isVote ⟨level, message⟩ = false) :
    (s.emit level message).voteEntries = s.voteEntries := by
  simp [voteEntries, emit, List.filter_append, h]

theorem tells_degrade {s' : Service} (haudit : s'.audit = s.audit)
    (hmetrics : s'.metrics = s.metrics) (effect detail : String) :
    Tells s (s'.degrade effect detail) [] := by
  have hvotes : s'.metrics.votes = s.metrics.votes := congrArg ServiceMetrics.votes hmetrics
  refine .of_same ?_ hvotes
  rw [degrade, voteEntries_emit]
  · exact congrArg (List.filter AuditEntry.isVote) haudit
  · simp [AuditEntry.isVote, String.toList_append, List.isPrefixOf]

theorem tells_noteReply (s : Service) (description : String) (r : Ledger.Reply) :
    Tells s (s.noteReply description r) [] := by
  cases r with
  | failed e => exact tells_degrade (by rfl) (by rfl) _ _
  | sealed b => exact .of_same rfl rfl
  | stopped => exact .of_same rfl rfl

theorem tells_perform (s : Service) (c : Conditions) (e : Effect) :
    Tells s (s.perform c e).1 [] := by
  cases e with
  | record d =>
    simp only [perform, record]
    split
    · exact tells_degrade (by rfl) (by rfl) _ _
    · split <;> exact .of_same rfl rfl
  | awaitSeal pending description =>
    simp only [perform]
    split
    · exact .of_same rfl rfl
    · exact tells_noteReply ..
  | dropPetition id =>
    simp only [perform]
    split
    · exact .of_same rfl rfl
    · exact tells_degrade (by rfl) (by rfl) _ _
  | findListings =>
    simp only [perform]
    split
    · exact .of_same rfl rfl
    · exact .of_same rfl rfl
    · exact tells_degrade (by rfl) (by rfl) _ _
  | dropListings keys =>
    simp only [perform]
    split
    · exact .of_same rfl rfl
    · exact tells_degrade (by rfl) (by rfl) _ _

theorem tells_runTask (s : Service) (c : Conditions) (task : Task) :
    Tells s (s.runTask c task) [] := by
  match task with
  | .index d =>
    simp only [runTask]
    split
    · exact tells_degrade (by rfl) (by rfl) _ _
    · exact .of_same rfl rfl
  | .seal pending description =>
    simp only [runTask]
    split
    · exact .of_same rfl rfl
    · exact tells_noteReply ..

theorem isVote_of_note? {b : Ballot} {answer : Answer} {e : AuditEntry}
    (h : b.note? answer = some e) : e.isVote = true := by
  unfold Ballot.note? at h
  split at h
  · cases h
    simp [AuditEntry.isVote, String.toList_append, List.isPrefixOf]
  · cases h
    simp [AuditEntry.isVote, String.toList_append, List.isPrefixOf]
  · cases h

theorem tells_closeVote (s : Service) (b : Ballot) {result : Outcome PetitionError Vote}
    (hresult : ∀ fault, result ≠ .error (.arithmetic fault)) :
    Tells s (s.closeVote b.voter b.petition result).1 [(b, result.map .vote)] := by
  have htold {level : AuditLevel} {message : String} {answer : Answer} {o : VoteOutcome}
      (hentry : b.note? answer = some ⟨level, message⟩)
      (hfits : ∀ other : VoteOutcome, other.fits answer = decide (other = o)) :
      Tells s ({ s with metrics := s.metrics.recordVote o }.emit level message) [(b, answer)] := by
    refine ⟨fun other => ?_, Counter.total_bump _ _, ?_⟩
    · simp only [emit, ServiceMetrics.recordVote, List.countP_singleton, hfits, decide_eq_true_eq]
      split
      · rename_i heq
        rw [heq, Counter.count_bump_self]
      · rename_i hne
        rw [Counter.count_bump_of_ne _ hne, Nat.add_zero]
    · have hvote := isVote_of_note? hentry
      simp [voteEntries, emit, List.filter_append, hvote, hentry]
  cases result with
  | ok v => exact htold rfl fun o => o.fits_accepted v
  | error f =>
    cases f with
    | refused e => exact htold rfl fun o => o.fits_refused e
    | arithmetic fault => exact absurd rfl (hresult fault)

variable {s' : Service} {d : Demand} {call next : Call}

theorem Refuses.isVote {f : Failure StoreError} (h : s.Refuses c call f) (hf : call.Follows d) :
    d.isVote = false := by
  cases h with
  | create answer | delete answer =>
    cases hf
    rfl
  | load answer => cases d <;> first | rfl | cases hf

theorem Takes.tells {effects : List Effect} {reply : Reply} (h : s.Takes c call s' effects reply) :
    Tells s s' [] := by
  cases h with
  | create made answer =>
    refine .of_same ?_ rfl
    exact voteEntries_emit (by simp [AuditEntry.isVote, String.toList_append, List.isPrefixOf])
  | delete answer =>
    refine .of_same ?_ rfl
    exact voteEntries_emit (by simp [AuditEntry.isVote, String.toList_append, List.isPrefixOf])
  | vote made answer => exact .of_same rfl rfl

theorem Ends.ballot {voter petition : Uuid} {result : Outcome PetitionError Vote}
    (h : s.Ends c call voter petition result) (hf : call.Follows d) :
    ∃ b, d = .vote b ∧ voter = b.voter ∧ petition = b.petition := by
  cases h with
  | @settled v =>
    cases d with
    | vote b => exact ⟨b, rfl, hf.2.1, hf.2.2.1⟩
    | _ => exact hf.elim
  | unwritten answer => exact ⟨_, hf.1, rfl, rfl⟩
  | _ => exact ⟨_, hf, rfl, rfl⟩

theorem Moves.tells (h : s.Moves c call s' next) (hf : call.Follows d) (hserves : next.Serves d)
    (hdone : call.isDone = false) : Tells s s' (Client.closed? ⟨d, next⟩).toList := by
  cases h with
  | refused h =>
    rw [Client.closed?_of_not_vote (h.isVote hf)]
    exact .of_same rfl rfl
  | written h =>
    rw [Client.closed?_of_running rfl]
    exact h.tells
  | passed h =>
    rw [Client.closed?_of_running (by cases h <;> rfl)]
    exact .of_same rfl rfl
  | ended h =>
    obtain ⟨b, rfl, rfl, rfl⟩ := h.ballot hf
    refine tells_closeVote s b ?_
    -- no vote ends for want of a number
    rintro fault rfl
    exact hserves b rfl
  | performed =>
    rw [Client.closed?_of_running rfl]
    exact tells_perform ..
  | @replied reply hreply =>
    rw [Client.closed?_of_not_vote]
    · exact .of_same rfl rfl
    · cases d with
      | vote b =>
        cases reply with
        | vote v => exact absurd rfl (hreply v)
        | _ => exact hf.elim
      | _ => rfl
  | fetched h =>
    have hread := (h.follows hf).1
    rw [Client.closed?_of_not_vote (by cases d <;> first | rfl | cases hread)]
    exact .of_same rfl rfl
  | rest => cases hdone

end Service

namespace Client

/-- Whether a vote of the client has ended well. -/
def accepted (c : Client) : Bool := c.closed?.any fun x => VoteOutcome.accepted.fits x.2

theorem accepted_eq {c : Client} (h : c.call.Serves c.demand) :
    c.accepted = (c.call.castVote?.isSome && c.call.isDone) := by
  obtain ⟨d, call⟩ := c
  cases hdone : call.isDone with
  | false =>
    rw [accepted, closed?_of_running hdone, Bool.and_false]
    rfl
  | true =>
    obtain ⟨answer, rfl⟩ := Call.isDone_iff.1 hdone
    rcases answer with f | p | v | _ | ps
    · cases d <;> rfl
    · cases d <;> rfl
    · obtain ⟨b, rfl, -⟩ := h
      rfl
    · cases d <;> rfl
    · cases d <;> rfl

end Client

namespace Traffic

/-- Votes that have ended, with their answers. -/
def closed (t : Traffic) : List (Ballot × Answer) := t.clients.filterMap Client.closed?

variable {t : Traffic}

theorem closed_advance {n : Nat} {client : Client} (hn : t.clients[n]? = some client)
    (hdone : client.call.isDone = false) (c : Conditions) :
    (t.advance n c).closed.Perm
      (t.closed ++ (Client.closed? ⟨client.demand, (t.service.step c client.call).2⟩).toList) := by
  obtain ⟨hlt, rfl⟩ := List.getElem?_eq_some_iff.1 hn
  have hcons (x : Client) (clients : List Client) :
      (x :: clients).filterMap Client.closed? =
        x.closed?.toList ++ clients.filterMap Client.closed? := by
    rw [List.filterMap_cons]
    cases x.closed? <;> rfl
  have hbefore : t.closed.Perm ((t.clients.eraseIdx n).filterMap Client.closed?) := by
    have hperm := ((List.getElem_cons_eraseIdx_perm hlt).symm.filterMap Client.closed?)
    rwa [hcons, Client.closed?_of_running hdone] at hperm
  rw [advance_of_found hn]
  refine ((List.set_perm_cons_eraseIdx hlt _).filterMap _).trans ?_
  rw [hcons]
  exact (List.perm_append_comm).trans (hbefore.symm.append_right _)

theorem tells_step (hfollows : t.Follows) (hregular : t.Regular) (e : Event) :
    ∃ xs, t.service.Tells (t.step e).service xs ∧ (t.step e).closed.Perm (t.closed ++ xs) := by
  have hquiet {t' : Traffic} (htells : t.service.Tells t'.service [])
      (hclosed : t'.closed = t.closed) :
      ∃ xs, t.service.Tells t'.service xs ∧ t'.closed.Perm (t.closed ++ xs) := by
    refine ⟨[], htells, ?_⟩
    rw [hclosed, List.append_nil]
  cases e with
  | arrive d now =>
    have hnone : Client.closed? ⟨d, d.start t.service now⟩ = none := by
      cases d with
      | vote b =>
        refine Client.closed?_of_running ?_
        simp only [Demand.start, Service.startVote]
        split <;> rfl
      | _ => rfl
    refine hquiet (.of_same rfl rfl) ?_
    simp [closed, step, hnone]
  | advance n c =>
    cases hn : t.clients[n]? with
    | none =>
      have hsame : t.step (.advance n c) = t := by simp only [step, advance, hn]
      rw [hsame]
      exact hquiet (.of_same rfl rfl) rfl
    | some client =>
      cases hdone : client.call.isDone with
      | true =>
        have hsame : t.step (.advance n c) = t := advance_of_isDone hn hdone c
        rw [hsame]
        exact hquiet (.of_same rfl rfl) rfl
      | false =>
        have hmem := List.mem_of_getElem? hn
        have hmoves := t.service.moves_step c client.call
        have hserves := hmoves.serves hregular.withinGoals (hregular.serves client hmem)
        refine ⟨_, ?_, closed_advance hn hdone c⟩
        rw [step, advance_of_found hn]
        exact hmoves.tells (hfollows client hmem) hserves hdone
  | switchStore available => exact hquiet (.of_same rfl rfl) rfl
  | work n c =>
    refine hquiet ?_ rfl
    simp only [step, work]
    split
    · exact .of_same rfl rfl
    · have htells := Service.tells_runTask
        { t.service with background := t.service.background.eraseIdx n } c ‹_›
      exact ⟨htells.counted, htells.total, htells.entries⟩
  | ledger action => exact hquiet (.of_same rfl rfl) rfl

theorem tells_run (settings : Settings) (cache : CacheConfig) (ledger : Ledger.Peer)
    (events : List Event) :
    (start settings cache ledger).service.Tells ((start settings cache ledger).run events).service
      ((start settings cache ledger).run events).closed := by
  induction events using List.reverseRecOn with
  | nil => exact .of_same rfl rfl
  | append_singleton events e ih =>
    obtain ⟨xs, htells, hclosed⟩ := tells_step (follows_run settings cache ledger events)
      (regular_run settings cache ledger events) e
    rw [run_concat]
    exact (ih.trans htells).perm hclosed.symm

theorem existsUnique_fits (hfollows : t.Follows) (hregular : t.Regular) {x : Ballot × Answer}
    (hx : x ∈ t.closed) : ∃! o : VoteOutcome, o.fits x.2 = true := by
  obtain ⟨b, answer⟩ := x
  obtain ⟨⟨d, call⟩, hclient, hclosed⟩ := List.mem_filterMap.1 hx
  have hfollow := hfollows _ hclient
  have hserve := hregular.serves _ hclient
  obtain ⟨rfl, rfl⟩ : d = .vote b ∧ call = .done answer := Client.closed?_eq_some.1 hclosed
  rcases answer with f | p | v | _ | ps
  · cases f with
    | refused e =>
      refine ⟨e.outcome, ?_, fun o ho => ?_⟩
      · exact (VoteOutcome.fits_refused _ e).trans (decide_eq_true rfl)
      · exact of_decide_eq_true ((VoteOutcome.fits_refused o e).symm.trans ho)
    | arithmetic fault => exact absurd rfl (hserve b)
  · exact (hfollow rfl).elim
  · refine ⟨.accepted, rfl, fun o ho => ?_⟩
    exact of_decide_eq_true ((o.fits_accepted v).symm.trans ho)
  · exact (hfollow rfl).elim
  · exact (hfollow rfl).elim

theorem length_rows (h : t.Regular) : t.service.store.votes.rows.length =
    (t.closed.countP fun x => VoteOutcome.accepted.fits x.2) +
      t.clients.countP fun c => c.call.castVote?.isSome && !c.call.isDone := by
  have hrows : t.service.store.votes.rows.length =
      t.clients.countP fun c => c.call.castVote?.isSome := by
    rw [← h.cast.length_eq, castVotes, List.length_filterMap_eq_countP]
  have haccepted : (t.closed.countP fun x => VoteOutcome.accepted.fits x.2) =
      t.clients.countP fun c => c.call.castVote?.isSome && c.call.isDone := by
    rw [closed, List.countP_filterMap]
    refine List.countP_congr fun c hc => ?_
    rw [← Client.accepted_eq (h.serves c hc), Client.accepted]
    cases c.closed? <;> rfl
  rw [hrows, haccepted, List.countP_eq_countP_filter_add _ _ fun c => c.call.isDone,
    List.countP_filter, List.countP_filter]

theorem length_closed (hdone : ∀ c ∈ t.clients, c.demand.isVote = true → c.call.isDone = true) :
    t.closed.length = (t.clients.map Client.demand).countP Demand.isVote := by
  rw [closed, List.length_filterMap_eq_countP, List.countP_map]
  refine List.countP_congr fun c hc => ?_
  have hdone := hdone c hc
  obtain ⟨d, call⟩ := c
  cases d with
  | vote b =>
    obtain ⟨answer, rfl⟩ := Call.isDone_iff.1 (hdone rfl)
    exact Iff.rfl
  | _ => exact iff_of_false nofun nofun

theorem countP_settling (h : t.Regular)
    (hdone : ∀ c ∈ t.clients, c.demand.isVote = true → c.call.isDone = true) :
    (t.clients.countP fun c => c.call.castVote?.isSome && !c.call.isDone) = 0 := by
  refine List.countP_eq_zero.2 fun c hc hsettling => ?_
  obtain ⟨hcast, hrunning⟩ := Bool.and_eq_true_iff.1 hsettling
  obtain ⟨v, hv⟩ := Option.isSome_iff_exists.1 hcast
  obtain ⟨b, hd, -, -⟩ := voter_of_castVote? (h.serves c hc) hv
  have hvote : c.demand.isVote = true := by rw [hd]; rfl
  rw [hdone c hc hvote] at hrunning
  cases hrunning

/-- What is told of the votes of a run. -/
structure VotesTold (t : Traffic) (events : List Event) : Prop where
  /-- Every answer belongs to one outcome, -/
  single : ∀ x ∈ t.closed, ∃! o : VoteOutcome, o.fits x.2 = true
  /-- under which it is counted, -/
  counted : ∀ o, t.service.metrics.votes.count o = t.closed.countP fun x => o.fits x.2
  /-- and nothing else is; -/
  total : t.service.metrics.votes.total = t.closed.length
  /-- each leaves its entry, and there are no other entries of votes. -/
  entries : ((t.service.audit.filter AuditEntry.isVote).map some).Perm
    (t.closed.map fun x => x.1.note? x.2)
  /-- The store holds the accepted votes and those whose calls have yet to end. -/
  rows : t.service.store.votes.rows.length = t.service.metrics.votes.count .accepted +
    t.clients.countP fun c => c.call.castVote?.isSome && !c.call.isDone
  /-- When no vote is under way, all that were asked for have been counted, and the accepted ones
  are the rows of the store. -/
  settled : (∀ c ∈ t.clients, c.demand.isVote = true → c.call.isDone = true) →
    t.service.metrics.votes.total = (events.filterMap Event.demand?).countP Demand.isVote ∧
      t.service.metrics.votes.count .accepted = t.service.store.votes.rows.length

theorem isDone_of_strides {t₀ : Traffic} {events : List Event} (hfresh : t₀.clients = [])
    (h : strides n t₀ events = 9) :
    ∃ client, (t₀.run events).clients[n]? = some client ∧ client.call.isDone = true := by
  have hstrides := strides_run n t₀ events
  have hnine : remaining n t₀ = 9 := by rw [remaining, hfresh]; rfl
  have hspent : remaining n (t₀.run events) = 0 := by omega
  rw [remaining] at hspent
  cases hn : (t₀.run events).clients[n]? with
  | none =>
    rw [hn] at hspent
    cases hspent
  | some client =>
    rw [hn] at hspent
    exact ⟨client, rfl, Call.isDone_of_cost hspent⟩

/-- A write that ends with an error has touched nothing. Every call comes to an end: its ninth step at
the latest, without those in which it waits for the ledger, is its last. And of every vote that ends
it is told once how it did. -/
theorem rejections_traceless (settings : Settings) (cache : CacheConfig) (ledger : Ledger.Peer)
    (events : List Event) :
    let t₀ := start settings cache ledger
    (∀ (n : Nat) (client : Client) (f : Failure PetitionError),
      (t₀.run events).clients[n]? = some client → client.demand.isWrite = true →
      client.call = .done (.error f) →
      ∀ before e after, events = before ++ e :: after → (t₀.run before).Concerns n e →
        (t₀.run before).service.Untouched (t₀.run (before ++ [e])).service) ∧
    (∀ n, strides n t₀ events ≤ 9 ∧ (strides n t₀ events = 9 →
      ∃ client, (t₀.run events).clients[n]? = some client ∧ client.call.isDone = true)) ∧
    VotesTold (t₀.run events) events := by
  intro t₀
  have hfollows : (t₀.run events).Follows := follows_run settings cache ledger events
  have hregular : (t₀.run events).Regular := regular_run settings cache ledger events
  have htells : t₀.service.Tells (t₀.run events).service (t₀.run events).closed :=
    tells_run settings cache ledger events
  have hcounted (o : VoteOutcome) : (t₀.run events).service.metrics.votes.count o =
      (t₀.run events).closed.countP fun x => o.fits x.2 := (htells.counted o).trans (Nat.zero_add _)
  have htotal : (t₀.run events).service.metrics.votes.total = (t₀.run events).closed.length :=
    htells.total.trans (Nat.zero_add _)
  have hrows := length_rows hregular
  rw [← hcounted] at hrows
  refine ⟨?_, ?_, ?_⟩
  · intro n client f hn hwrite hcall before e after hevents he
    subst hevents
    rw [run_append] at hn
    rw [run_concat]
    exact untouched_step (follows_run settings cache ledger before) he hn hwrite hcall
  · intro n
    have hstrides := strides_run n t₀ events
    have hnine : remaining n t₀ = 9 := rfl
    exact ⟨by omega, isDone_of_strides rfl⟩
  · refine ⟨fun x hx => existsUnique_fits hfollows hregular hx, hcounted, htotal, htells.entries,
      hrows, fun hdone => ⟨?_, ?_⟩⟩
    · rw [htotal, length_closed hdone, demands_run]
      rfl
    · rw [hrows, countP_settling hregular hdone, Nat.add_zero]

/-- A petition is created and voted for, and its voter comes again. -/
def votedFor : List Event :=
  let tomorrow := ((Date.of? 1970 1 2).bind (Instant.of? · 0 0 0 0)).getD default
  let petition := Uuid.ofNat 1
  visit 0 4 (.create ⟨.ofNat 9, "Bike lanes", "Protected lanes downtown", 2, tomorrow⟩ petition) ++
    visit 1 7 (.vote ⟨.ofNat 2, petition, "favor", .ofNat 11⟩) ++
      visit 2 0 (.vote ⟨.ofNat 2, petition, "against", .ofNat 12⟩)

/-- The check that finds the first vote. -/
def recheck : Event := .advance 2 ⟨default, 2, 0, none, none, none, none⟩

theorem rejections_traceless_secondVote :
    let t₀ := start .standard .standard .closed
    let t := t₀.run (votedFor ++ [recheck])
    (∀ client ∈ t.clients, client.call.isDone = true) ∧
      t.closed.map (fun x => (VoteOutcome.accepted.fits x.2, VoteOutcome.alreadyVoted.fits x.2)) =
        [(true, false), (false, true)] ∧
      (t₀.run votedFor).service.Untouched t.service ∧
      strides 1 t₀ (votedFor ++ [recheck]) = 7 ∧ strides 1 t₀ (votedFor ++ [recheck]) ≤ 9 ∧
      t.service.metrics.votes.total = 2 ∧ t.service.metrics.votes.count .accepted = 1 ∧
      t.service.store.votes.rows.length = 1 ∧ t.service.metrics.votes.count .alreadyVoted = 1 := by
  intro t₀ t
  have h := rejections_traceless .standard .standard .closed (votedFor ++ [recheck])
  have htold : VotesTold t (votedFor ++ [recheck]) := h.2.2
  have hdone : ∀ client ∈ t.clients, client.call.isDone = true :=
    List.all_eq_true.1 (by decide +kernel : t.clients.all (·.call.isDone) = true)
  have hclosed : t.closed.map
      (fun x => (VoteOutcome.accepted.fits x.2, VoteOutcome.alreadyVoted.fits x.2)) =
        [(true, false), (false, true)] := by decide +kernel
  have hfitting : t.closed.countP (fun x => VoteOutcome.accepted.fits x.2) = 1 ∧
      t.closed.countP (fun x => VoteOutcome.alreadyVoted.fits x.2) = 1 := by decide +kernel
  have haccepted := (htold.counted .accepted).trans hfitting.1
  have hrefused := (htold.counted .alreadyVoted).trans hfitting.2
  have hasked : ((votedFor ++ [recheck]).filterMap Event.demand?).countP Demand.isVote = 2 := by
    decide +kernel
  obtain ⟨htotal, hrows⟩ := htold.settled fun client hclient _ => hdone client hclient
  have hthird : (t.clients[2]?.bind Client.closed?).any (!·.2.isOk) = true := by decide +kernel
  obtain ⟨⟨b, answer⟩, hthird, hrefusal⟩ := (Option.any_eq_true ..).1 hthird
  obtain ⟨client, hclient, hended⟩ := Option.bind_eq_some_iff.1 hthird
  obtain ⟨hdemand, hcall⟩ := Client.closed?_eq_some.1 hended
  cases answer with
  | ok reply => cases hrefusal
  | error f =>
    have hkept := h.1 2 client f hclient (by rw [hdemand]; rfl) hcall votedFor recheck [] rfl rfl
    exact ⟨hdone, hclosed, hkept, by decide +kernel, (h.2.1 1).1, htotal.trans hasked, haccepted,
      hrows.symm.trans haccepted, hrefused⟩

end Traffic

end AuditedPetitions
