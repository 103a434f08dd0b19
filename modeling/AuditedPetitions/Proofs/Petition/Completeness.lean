import AuditedPetitions.Proofs.Petition.Commitments

/-! Completeness of the audit ledger. When all calls are done and no task is left, the blocks behind
the first one carry the events of the committed creations and votes, each once, but for those whose
append failed; and these have been reported. So the committed writes are as many as these blocks and
the degraded ledger writes together, and without such a write the blocks tell the tallies. -/

namespace AuditedPetitions

open Ledger (Writer)

/-- Blocks behind the first one. -/
def Ledger.Snapshot.later (s : Ledger.Snapshot) : List Ledger.Block := s.blocks.tail

namespace Append

/-- Block that an append was answered with. -/
def block? (w : Writer) (a : Append) : Option Ledger.Block := a.ticket.bind fun k => w.sealed? k

def isSealed (w : Writer) (a : Append) : Bool := (a.block? w).isSome

/-- What an append has come to when nobody waits for it any more. -/
inductive Settled (w : Writer) (a : Append) : Prop
  | refused (ticket : a.ticket = none)
  | recorded {k : Nat} {b : Ledger.Block} (ticket : a.ticket = some k)
      (reply : w.reply? k = some (.sealed b)) (carried : b.transaction = a.transaction)
  | failed {k : Nat} {e : Ledger.Error} (ticket : a.ticket = some k)
      (reply : w.reply? k = some (.failed e))

/-- Words for an event whose wait ended with an error. -/
def failure? (w : Writer) (wait : Wait) : Option String :=
  ((Ledger.Peer.live w).reply? wait.1).bind fun r => failedWait? (wait, r)

variable {w : Writer} {a : Append}

theorem Settled.carried (h : a.Settled w) {b : Ledger.Block} (hb : a.block? w = some b) :
    b.transaction = a.transaction := by
  cases h with
  | refused ticket => simp [block?, ticket] at hb
  | recorded ticket reply carried =>
    simp only [block?, ticket, Option.bind_some, Writer.sealed?_eq_some, reply, Option.some.injEq,
      Ledger.Reply.sealed.injEq] at hb
    exact hb ▸ carried
  | failed ticket reply => simp [block?, ticket, Writer.sealed?_eq_some, reply] at hb

theorem Settled.lost (h : a.Settled w) :
    a.refused?.toList ++ (a.wait?.bind (failure? w)).toList =
      if a.isSealed w then [] else [a.transaction.description] := by
  cases h with
  | refused ticket => simp [refused?, wait?, isSealed, block?, ticket]
  | recorded ticket reply carried =>
    simp [refused?, wait?, isSealed, block?, ticket, failure?, Ledger.Peer.reply?, reply,
      Writer.sealed?_eq_some.2 reply, failedWait?]
  | @failed k e ticket reply =>
    have hnone : w.sealed? k = none := by simp [Writer.sealed?, reply]
    simp [refused?, wait?, isSealed, block?, ticket, failure?, Ledger.Peer.reply?, reply, hnone,
      failedWait?]

theorem lost_perm {w : Writer} {appends : List Append} (h : ∀ a ∈ appends, a.Settled w) :
    (appends.filterMap refused? ++ (appends.filterMap wait?).filterMap (failure? w)).Perm
      ((appends.filter (!·.isSealed w)).map (·.transaction.description)) := by
  have hpointwise : (appends.flatMap fun a =>
      a.refused?.toList ++ (a.wait?.bind (failure? w)).toList) =
        (appends.filter (!·.isSealed w)).map (·.transaction.description) := by
    induction appends with
    | nil => rfl
    | cons a appends ih =>
      rw [List.flatMap_cons, (h a List.mem_cons_self).lost,
        ih fun b hb => h b (List.mem_cons_of_mem _ hb)]
      cases ha : a.isSealed w <;> simp [ha]
  rw [← hpointwise, List.filterMap_filterMap, List.filterMap_eq_flatMap_toList,
    List.filterMap_eq_flatMap_toList]
  exact List.flatMap_append_perm _ _ _

theorem carried_eq {w : Writer} {appends : List Append} (h : ∀ a ∈ appends, a.Settled w) :
    (appends.filterMap (block? w)).map Ledger.Block.transaction =
      (appends.filter (isSealed w)).map Append.transaction := by
  induction appends with
  | nil => rfl
  | cons a appends ih =>
    have hrest := ih fun b hb => h b (List.mem_cons_of_mem _ hb)
    cases hb : a.block? w with
    | none => simpa [isSealed, hb] using hrest
    | some b => simpa [isSealed, hb, (h a List.mem_cons_self).carried hb] using hrest

end Append

theorem Ending.length_lost (endings : List Ending) :
    (endings.filterMap lost?).length =
      endings.countP fun e => e.failed && e.duty.effect = "ledger" := by
  rw [List.length_filterMap_eq_countP]
  refine List.countP_congr fun e _ => ?_
  obtain ⟨duty, fault⟩ := e
  cases duty <;> simp [lost?, failed, Duty.effect]

namespace Traffic

namespace Logged

variable {config : Ledger.Config} {time eventTime : Instant} {micros : Nat} {w₀ : Writer}
  {t : Traffic} {actions : List Writer.Action} {appends : List Append}
  {replies : List (Wait × Ledger.Reply)}

theorem settled (h : Logged w₀ t actions appends replies)
    (hstart : Writer.start config time eventTime micros = .ok w₀) (hwaits : t.waits = []) :
    ∀ a ∈ appends, a.Settled (w₀.run actions) := by
  intro a ha
  cases hk : a.ticket with
  | none => exact .refused hk
  | some k =>
    have hplace : .append k a.transaction ∈ w₀.queue actions := by
      have hmem : .append k a.transaction ∈ appends.filterMap Append.place? :=
        List.mem_filterMap.2 ⟨a, ha, by simp [Append.place?, hk]⟩
      rw [← h.places] at hmem
      exact (List.mem_filter.1 hmem).1
    have hwait : (.ticket k, a.transaction.description) ∈ replies.map Prod.fst := by
      have hperm := h.waits
      rw [hwaits, List.nil_append] at hperm
      exact hperm.mem_iff.2 (List.mem_filterMap.2 ⟨a, ha, by simp [Append.wait?, hk]⟩)
    obtain ⟨⟨wait, r⟩, hr, rfl⟩ := List.mem_map.1 hwait
    have hreply := h.answered _ hr
    rw [h.ledger] at hreply
    rcases Writer.reply_of_append hstart h.kept hplace hreply with ⟨b, rfl, hb⟩ | ⟨e, rfl⟩
    · exact .recorded hk hreply hb
    · exact .failed hk hreply

theorem later_eq (h : Logged w₀ t actions appends replies)
    (hstart : Writer.start config time eventTime micros = .ok w₀) :
    (w₀.run actions).chain.later = appends.filterMap (Append.block? (w₀.run actions)) := by
  rw [Writer.later_eq hstart h.kept, h.places, List.filterMap_filterMap]
  refine List.filterMap_congr fun a _ => ?_
  rw [Append.place?, Option.bind_map]
  rfl

theorem clients_perm (h : Logged w₀ t actions appends replies)
    (hcalls : ∀ client ∈ t.clients, client.call.isDone = true) :
    (appends.map Append.client).Perm t.committed := by
  refine List.perm_iff_count.2 fun n => ?_
  have hcount : (appends.map Append.client).count n = (draftsOf appends n).length := by
    rw [List.count, List.countP_map, draftsOf, List.length_map, ← List.countP_eq_length_filter]
    exact List.countP_congr fun a _ => by simp
  rw [hcount, t.nodup_committed.count]
  cases hn : t.clients[n]? with
  | none =>
    have hnot : n ∉ t.committed := by simp [mem_committed, hn]
    rw [draftsOf_eq_nil h.clients (List.getElem?_eq_none_iff.1 hn), if_neg hnot]
    rfl
  | some client =>
    have hdrafts := h.drafts n client hn
    have hdone := hcalls client (List.mem_of_getElem? hn)
    rw [Call.records, Call.effects_of_isDone hdone, List.filterMap_nil, List.append_nil] at hdrafts
    rw [hdrafts, Option.length_toList, ← Client.hasEvent_eq]
    simp [mem_committed, hn]

theorem isEvent (h : Logged w₀ t actions appends replies) (hfollows : t.Follows)
    (hcalls : ∀ client ∈ t.clients, client.call.isDone = true) :
    ∀ a ∈ appends, t.IsEvent a.client a.transaction := by
  intro a ha
  obtain ⟨client, hn, -, hdraft⟩ := h.submitted ha
  exact isEvent_of_event hfollows hn (hcalls _ (List.mem_of_getElem? hn)) hdraft

theorem lost_perm (h : Logged w₀ t actions appends replies)
    (hstart : Writer.start config time eventTime micros = .ok w₀) (hwaits : t.waits = []) :
    (appends.filterMap Append.refused? ++ replies.filterMap failedWait?).Perm
      ((appends.filter (!·.isSealed (w₀.run actions))).map (·.transaction.description)) := by
  have hreplies : replies.filterMap failedWait? =
      (replies.map Prod.fst).filterMap (Append.failure? (w₀.run actions)) := by
    rw [List.filterMap_map]
    refine List.filterMap_congr fun r hr => ?_
    have hreply := h.answered r hr
    rw [h.ledger] at hreply
    simp [Append.failure?, hreply]
  have hperm := h.waits
  rw [hwaits, List.nil_append] at hperm
  rw [hreplies]
  exact ((hperm.filterMap _).append_left _).trans (Append.lost_perm (h.settled hstart hwaits))

end Logged

theorem waits_of_quiescent {t : Traffic} (hcalls : ∀ client ∈ t.clients, client.call.isDone = true)
    (htasks : t.service.background = []) : t.waits = [] := by
  have hcall : t.clients.flatMap (·.call.waitings) = [] := by
    refine List.flatMap_eq_nil_iff.2 fun client hclient => ?_
    rw [Call.waitings, Call.effects_of_isDone (hcalls client hclient), List.filterMap_nil]
  rw [waits, hcall, htasks]
  rfl

/-- What the ledger holds of a service once every call is done and no task is left. -/
structure Audited (s₀ : Service) (t : Traffic) (endings : List Ending)
    (recorded lost : List (Nat × Ledger.Transaction)) : Prop where
  /-- The blocks behind the first one carry the recorded events, in order. -/
  carried : t.service.snapshot.later.map Ledger.Block.transaction = recorded.map Prod.snd
  /-- Each committed creation and vote has one event, and no other call has one. -/
  once : ((recorded ++ lost).map Prod.fst).Perm t.committed
  told : ∀ e ∈ recorded ++ lost, t.IsEvent e.1 e.2
  /-- The lost events are those of the appends that failed. -/
  failed : (lost.map (·.2.description)).Perm (endings.filterMap Ending.lost?)
  /-- Each failure has been reported. -/
  reports : s₀.Reports t.service endings
  counted : lost.length = t.service.metrics.degraded.count "ledger"
  balance : t.committed.length + 1 =
    t.service.snapshot.size + t.service.metrics.degraded.count "ledger"

/-- What the ledger says about the store, if no identifier has been drawn twice. -/
structure Mirrored (t : Traffic) : Prop where
  created : (createdIds t.clients).Perm t.service.store.ids
  voted : (castVotes t.clients).Perm t.service.store.votes.rows
  stored : t.service.store.petitions.rows.length + t.service.store.votes.rows.length + 1 =
    t.service.snapshot.size + t.service.metrics.degraded.count "ledger"
  /-- Without a degraded ledger write the tallies count the blocks of votes. -/
  tallied : t.service.metrics.degraded.count "ledger" = 0 → ∀ p ∈ t.service.store.petitions.rows,
    ∀ type, (p.tally type).toInt =
      t.service.snapshot.later.countP fun b => b.transaction.casts p.id type

theorem Logged.audited {config : Ledger.Config} {time eventTime : Instant} {micros : Nat}
    {w₀ : Writer} {t : Traffic} {actions : List Writer.Action} {appends : List Append}
    {replies : List (Wait × Ledger.Reply)} (h : Logged w₀ t actions appends replies)
    (hstart : Writer.start config time eventTime micros = .ok w₀) (hfollows : t.Follows)
    (hcalls : ∀ client ∈ t.clients, client.call.isDone = true)
    (htasks : t.service.background = []) {s₀ : Service} {endings : List Ending}
    (hreports : s₀.Reports t.service endings) (hzero : s₀.metrics.degraded.count "ledger" = 0)
    (hlost : (endings.filterMap Ending.lost?).Perm
      (appends.filterMap Append.refused? ++ replies.filterMap failedWait?)) :
    ∃ recorded lost, Audited s₀ t endings recorded lost := by
  have hwaits := waits_of_quiescent hcalls htasks
  let w := w₀.run actions
  let event (a : Append) : Nat × Ledger.Transaction := (a.client, a.transaction)
  let recorded := (appends.filter (Append.isSealed w)).map event
  let lost := (appends.filter (!·.isSealed w)).map event
  have hall : (recorded ++ lost).Perm (appends.map event) := by
    rw [← List.map_append]
    exact (List.filter_append_perm _ _).map event
  have hlater : t.service.snapshot.later = appends.filterMap (Append.block? w) := by
    rw [← h.later_eq hstart, Service.snapshot, h.ledger]
    rfl
  have hfailed : (lost.map (·.2.description)).Perm (endings.filterMap Ending.lost?) := by
    have hperm := (hlost.trans (h.lost_perm hstart hwaits)).symm
    rwa [List.map_map]
  have honce : ((recorded ++ lost).map Prod.fst).Perm t.committed := by
    have hclients := h.clients_perm hcalls
    have hfst : (appends.map event).map Prod.fst = appends.map Append.client := List.map_map ..
    rw [← hfst] at hclients
    exact (hall.map Prod.fst).trans hclients
  have hcounted : lost.length = t.service.metrics.degraded.count "ledger" := by
    have hlength : (lost.map (·.2.description)).length = lost.length := List.length_map _
    rw [hreports.counted, hzero, Nat.zero_add, ← Ending.length_lost, ← hfailed.length_eq, hlength]
  have hcarried : t.service.snapshot.later.map Ledger.Block.transaction =
      recorded.map Prod.snd := by
    rw [hlater, Append.carried_eq (h.settled hstart hwaits), List.map_map]
    rfl
  refine ⟨recorded, lost, hcarried, honce, ?_, hfailed, hreports, hcounted, ?_⟩
  · intro e he
    obtain ⟨a, ha, rfl⟩ := List.mem_map.1 (hall.mem_iff.1 he)
    exact h.isEvent hfollows hcalls a ha
  · have hsize : t.service.snapshot.size = t.service.snapshot.later.length + 1 := by
      rw [Service.snapshot, h.ledger]
      rfl
    have hblocks := congrArg List.length hcarried
    have hcommitted := honce.length_eq
    simp only [List.length_map, List.length_append] at hblocks hcommitted
    omega

theorem Audited.countP_casts {s₀ : Service} {t : Traffic} {endings : List Ending}
    {recorded lost : List (Nat × Ledger.Transaction)} (h : Audited s₀ t endings recorded lost)
    (hserves : ∀ c ∈ t.clients, c.call.Serves c.demand)
    (hzero : t.service.metrics.degraded.count "ledger" = 0) (petition : Uuid) (type : VoteType) :
    (t.service.snapshot.later.countP fun b => b.transaction.casts petition type) =
      (castVotes t.clients).countP fun v => v.petitionId = petition ∧ v.voteType = type := by
  obtain rfl : lost = [] := List.length_eq_zero_iff.1 (h.counted.trans hzero)
  have honce := h.once
  have htold := h.told
  rw [List.append_nil] at honce htold
  have hclient {c : Client} (hc : c ∈ t.clients) :
      (c.casts petition type && c.hasEvent) = c.casts petition type := by
    cases hv : c.call.castVote? with
    | none => simp [Client.casts, hv]
    | some v => rw [(Client.hasEvent_of_castVote? (hserves c hc) hv).1, Bool.and_true]
  calc (t.service.snapshot.later.countP fun b => b.transaction.casts petition type)
      = (t.service.snapshot.later.map Ledger.Block.transaction).countP
          fun e => e.casts petition type := by rw [List.countP_map]; rfl
    _ = recorded.countP fun e => e.2.casts petition type := by
        rw [h.carried, List.countP_map]; rfl
    _ = recorded.countP fun e => t.clients[e.1]?.any (Client.casts petition type) :=
        List.countP_congr fun e he => by rw [(htold e he).casts_eq]
    _ = (recorded.map Prod.fst).countP fun n => t.clients[n]?.any (Client.casts petition type) := by
        rw [List.countP_map]; rfl
    _ = t.committed.countP fun n => t.clients[n]?.any (Client.casts petition type) :=
        honce.countP_eq _
    _ = t.clients.countP (Client.casts petition type) := by
        rw [committed, List.countP_filter, ← countP_range t.clients (Client.casts petition type)]
        refine List.countP_congr fun n hn => ?_
        have hlt := List.mem_range.1 hn
        rw [List.getElem?_eq_getElem hlt, Option.any_some, Option.any_some,
          hclient (List.getElem_mem hlt)]
    _ = (castVotes t.clients).countP fun v => v.petitionId = petition ∧ v.voteType = type := by
        rw [castVotes, List.countP_filterMap]
        refine List.countP_congr fun c _ => ?_
        rw [Client.casts]
        cases c.call.castVote? <;> rfl

theorem Audited.mirrored {s₀ : Service} {t : Traffic} {endings : List Ending}
    {recorded lost : List (Nat × Ledger.Transaction)} (h : Audited s₀ t endings recorded lost)
    (hbalanced : Balanced t.service.store t.clients)
    (hcreated : (createdIds t.clients).Perm t.service.store.ids) : Mirrored t where
  created := hcreated
  voted := hbalanced.cast
  stored := by
    have hcommitted := t.length_committed.trans (countP_hasEvent hbalanced.serves)
    have hpetitions := hcreated.length_eq
    have hvotes := hbalanced.cast.length_eq
    have hbalance := h.balance
    rw [Store.ids, List.length_map] at hpetitions
    omega
  tallied hzero p hp type := by
    rw [(hbalanced.tallied p hp).counts, h.countP_casts hbalanced.serves hzero,
      hbalanced.cast.countP_eq]

/-- Once every call is done and no task is left, each committed creation and each committed vote has
its event in one block, or its append was reported as a degraded write; no other block is there, so
the tallies can be read off a ledger without such a write. -/
theorem audit_complete {config : Ledger.Config} {time eventTime : Instant} {micros : Nat}
    {w₀ : Writer} (hstart : Writer.start config time eventTime micros = .ok w₀)
    (settings : Settings) (cache : CacheConfig) {events : List Event}
    (hprivate : ∀ e ∈ events, e.isPrivate = true) :
    let t₀ := start settings cache (.live w₀)
    let t := t₀.run events
    (∀ client ∈ t.clients, client.call.isDone = true) → t.service.background = [] →
      (∃ recorded lost, Audited t₀.service t (endings t₀ events) recorded lost) ∧
        ((drawn events).Nodup → Mirrored t) := by
  intro t₀ t hcalls htasks
  have h := logged_run hstart settings cache hprivate
  obtain ⟨recorded, lost, haudited⟩ := h.audited hstart
    (follows_run settings cache (.live w₀) events) hcalls htasks
    (reports_run settings cache (.live w₀) events) rfl (lost_run hstart settings cache hprivate)
  refine ⟨⟨recorded, lost, haudited⟩, fun fresh => haudited.mirrored ?_ ?_⟩
  · exact balanced_run settings cache (.live w₀) events fresh
  · exact created_run settings cache (.live w₀) fresh

theorem run_ledger {t : Traffic} {w : Writer} (h : t.service.ledger = .live w)
    (actions : List Writer.Action) : t.run (actions.map .ledger) =
      { t with service := { t.service with ledger := .live (w.run actions) } } := by
  induction actions generalizing t w with
  | nil =>
    rw [Writer.run, List.foldl_nil, ← h]
    rfl
  | cons a actions ih =>
    have hstep : (t.step (.ledger a)).service.ledger = .live (w.step a) := by
      simp only [step, h, Ledger.Peer.act]
    exact ih hstep

def bikeLanes : NewPetition :=
  let tomorrow := ((Date.of? 1970 1 2).bind (Instant.of? · 0 0 0 0)).getD default
  ⟨.ofNat 9, "Bike lanes", "Protected lanes downtown", 3, tomorrow⟩

/-- Nothing fails on its own account. -/
def calm : Conditions := ⟨default, 0, 0, none, none, none, none⟩

def founding : List Event :=
  .arrive (.create bikeLanes (.ofNat 1)) default :: List.replicate 4 (.advance 0 calm)

/-- The call of a voter, and so many steps of it. -/
def voting (client voter steps : Nat) : List Event :=
  .arrive (.vote ⟨.ofNat voter, .ofNat 1, "favor", .ofNat (10 + client)⟩) default ::
    List.replicate steps (.advance client calm)

/-- A vote whose search is broken off, one that finds the ledger shut down, and one too many. -/
def polling : List Event :=
  let breakdown : List Writer.Action :=
    [.receive default, .search true 0, .shutdown, .receive default]
  voting 1 2 7 ++ breakdown.map .ledger ++ voting 2 3 7 ++ voting 3 3 1 ++
    List.replicate 3 (.work 0 calm)

theorem audit_complete_storm :
    ∃ w₀, Writer.start ⟨0, 16, "Genesis block"⟩ default default 0 = .ok w₀ ∧
      let t₀ := start .standard .standard (.live w₀)
      let storm := founding ++ [.receive default, .search false 0, .push].map .ledger ++ polling
      let t := t₀.run storm
      (∀ e ∈ storm, e.isPrivate = true) ∧ (∀ client ∈ t.clients, client.call.isDone = true) ∧
        t.service.background = [] ∧ (drawn storm).Nodup ∧ t.committed = [0, 1, 2] ∧
        t.service.snapshot.size = 2 ∧ t.service.metrics.degraded.count "ledger" = 2 ∧
        (∃ recorded lost, Audited t₀.service t (endings t₀ storm) recorded lost) ∧ Mirrored t := by
  let first := (Ledger.Template.genesis 0 "Genesis block" default default).proved 0
  let w₀ : Writer := ⟨⟨first, []⟩, Ledger.Metrics.zero.recordSealed (UInt64.ofNat 1) 0, [], 16,
    .idle, true, 0, [], []⟩
  have hstart : Writer.start ⟨0, 16, "Genesis block"⟩ default default 0 = .ok w₀ :=
    Writer.start_zero "Genesis block" default default 0 (by decide) (by decide)
  refine ⟨w₀, hstart, ?_⟩
  intro t₀ storm t
  let e := (Petition.ofRequest bikeLanes (.ofNat 1) default).event default
  let w : Writer := { w₀ with mailbox := [.append 0 e], nextTicket := 1 }
  have hfounded : (t₀.run founding).service.ledger = .live w := by with_unfolding_all rfl
  have hseal := Writer.run_seal (w := w) (k := 0) (t := e) rfl rfl rfl List.not_mem_nil rfl
    (by decide) default 0
  -- no digest is computed from here on: the block that has been sealed stands as it is
  have hrun : t = Traffic.run { t₀.run founding with
      service := { (t₀.run founding).service with
        ledger := .live (w.run [.receive default, .search false 0, .push]) } } polling := by
    rw [← run_ledger hfounded, ← run_append, ← run_append, ← List.append_assoc]
  rw [hseal] at hrun
  have hend : t.clients.all (·.call.isDone) = true ∧ t.service.background.length = 0 ∧
      t.committed = [0, 1, 2] ∧ t.service.snapshot.size = 2 ∧
      t.service.metrics.degraded.count "ledger" = 2 := by
    rw [hrun]
    decide +kernel
  obtain ⟨hdone, hlength, hcommitted, hsize, hdegraded⟩ := hend
  have hprivate : ∀ e ∈ storm, e.isPrivate = true := by decide
  have hcalls : ∀ client ∈ t.clients, client.call.isDone = true := List.all_eq_true.1 hdone
  have htasks : t.service.background = [] := List.length_eq_zero_iff.1 hlength
  have hfresh : (drawn storm).Nodup := by decide
  obtain ⟨haudited, hmirrored⟩ :=
    audit_complete hstart .standard .standard hprivate hcalls htasks
  exact ⟨hprivate, hcalls, htasks, hfresh, hcommitted, hsize, hdegraded, haudited,
    hmirrored hfresh⟩

end Traffic

end AuditedPetitions
