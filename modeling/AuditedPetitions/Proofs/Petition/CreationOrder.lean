import AuditedPetitions.Proofs.Ledger.LiveChain
import AuditedPetitions.Proofs.Petition.Completeness

/-! Creations and votes in the order of the chain. A ledger without failures seals the events in the
order in which the calls submit them. A call that has created a petition drops the cached listings
before it submits its event, and the store shows the petition as soon as it is written; so between
these two steps a vote on the petition can be committed and submitted by someone else, and its block
then comes first. It never does when no such call is on its way, as when the vote was made after the
creation had returned. -/

namespace AuditedPetitions

open Ledger (Writer)

namespace Ledger

/-- Whether the event is of this kind and about a petition. -/
def Transaction.concerns (t : Transaction) (kind : EventKind) (petition : Uuid) : Bool :=
  t.kind = kind && t.text? "petition_id" = some petition.text

namespace Writer

variable {config : Config} {now eventTime : Instant} {micros : Nat} {w₀ : Writer}

theorem transactions_eq {done : List Processed}
    (hcarry : ∀ p ∈ done, ∀ b, p.sealing = .ok b → b.transaction = p.transaction)
    (hsealed : ∀ p ∈ done, ∃ b, p.sealing = .ok b) :
    (done.filterMap Processed.entry?).map (·.2.transaction) =
      done.map Processed.transaction := by
  induction done with
  | nil => rfl
  | cons p done ih =>
    obtain ⟨b, hb⟩ := hsealed p List.mem_cons_self
    have hrest := ih (fun q hq => hcarry q (List.mem_cons_of_mem _ hq))
      fun q hq => hsealed q (List.mem_cons_of_mem _ hq)
    have hentry : p.entry? = some (p.ticket, b) := by simp [Processed.entry?, hb, Except.toOption]
    rw [List.filterMap_cons_some hentry, List.map_cons, List.map_cons, hrest,
      hcarry p List.mem_cons_self b hb]

theorem carried_in_order (h : start config now eventTime micros = .ok w₀) {actions : List Action}
    (hsealed : ∀ p ∈ w₀.processed actions, ∃ b, p.sealing = .ok b) :
    (w₀.run actions).chain.later.map Block.transaction <+:
      (w₀.queue actions).filterMap Request.transaction? := by
  obtain ⟨hl, answers, ho⟩ := exists_orderly h actions
  have hdone : (w₀.processed actions).map Processed.transaction =
      ((w₀.processed actions).map Processed.request).filterMap Request.transaction? := by
    rw [List.filterMap_map]
    exact (congrFun List.filterMap_eq_map _).symm
  have hahead : (w₀.processed actions).map Processed.request <+: w₀.queue actions :=
    ho.ahead.trans (List.takeWhile_prefix _)
  have hlater : (w₀.run actions).chain.later.map Block.transaction <+:
      ((w₀.processed actions).filterMap Processed.entry?).map (·.2.transaction) := by
    rw [hl.later_eq, List.map_map, entries]
    exact (List.take_prefix _ _).map _
  rw [transactions_eq hl.transaction_eq hsealed, hdone] at hlater
  exact hlater.trans (hahead.filterMap _)

theorem sealed_of_processed {w : Writer}
    (hzero : ∀ k template, w.work = .searching k template → template.difficulty = 0) {a : Action}
    (hkept : ∀ m, a ≠ .search true m) {p : Processed} (hp : processed? w a = some p) :
    ∃ b, p.sealing = .ok b := by
  cases a with
  | search aborted m =>
    cases aborted with
    | true => exact absurd rfl (hkept m)
    | false =>
      simp only [processed?] at hp
      split at hp
      · rename_i k template hwork
        simp [searched, Template.findSeal_zero (hzero k template hwork)] at hp
      · cases hp
  | push =>
    simp only [processed?] at hp
    split at hp
    · cases hp
      exact ⟨_, rfl⟩
    · cases hp
  | submit t | forget k | receive time => cases hp
  | shutdown => cases hp

theorem sealed_of_zero (h : start config now eventTime micros = .ok w₀)
    (hzero : config.difficulty = 0) {actions : List Action}
    (hkept : ∀ m, .search true m ∉ actions) :
    ∀ p ∈ w₀.processed actions, ∃ b, p.sealing = .ok b := by
  induction actions using List.reverseRecOn with
  | nil => exact List.forall_mem_nil _
  | append_singleton actions a ih =>
    intro p hp
    rw [processed, observed_append, List.mem_append] at hp
    rcases hp with hp | hp
    · exact ih (fun m hm => hkept m (List.mem_append_left _ hm)) p hp
    · have hp : processed? (w₀.run actions) a = some p := by simpa [observed] using hp
      refine sealed_of_processed ?_ (fun m ha => hkept m (by simp [ha])) hp
      intro k template hwork
      obtain ⟨hl, -⟩ := exists_orderly h actions
      obtain ⟨t, time, rfl⟩ := hl.searching k template hwork
      rw [← hzero]
      exact difficulty_run h actions _ List.mem_cons_self

end Writer

end Ledger

theorem Petition.concerns_event (p : Petition) (now : Instant) (kind : Ledger.EventKind)
    (id : Uuid) :
    (p.event now).concerns kind id = true ↔ kind = .petitionCreated ∧ p.id = id := by
  have htext : (p.event now).text? "petition_id" = some p.id.text :=
    (p.event_tells now).text?_eq (by simp [Json.ofUuid])
  rw [Ledger.Transaction.concerns, Bool.and_eq_true, decide_eq_true_iff, decide_eq_true_iff, htext,
    Option.some_inj]
  apply and_congr
  · exact eq_comm
  · exact ⟨fun h => Uuid.text_injective h, congrArg Uuid.text⟩

theorem Vote.concerns_event (v : Vote) (now : Instant) (kind : Ledger.EventKind) (id : Uuid) :
    (v.event now).concerns kind id = true ↔ kind = .voteCast ∧ v.petitionId = id := by
  have htext : (v.event now).text? "petition_id" = some v.petitionId.text :=
    (v.event_tells now).text?_eq (by simp [Json.ofUuid])
  rw [Ledger.Transaction.concerns, Bool.and_eq_true, decide_eq_true_iff, decide_eq_true_iff, htext,
    Option.some_inj]
  apply and_congr
  · exact eq_comm
  · exact ⟨fun h => Uuid.text_injective h, congrArg Uuid.text⟩

namespace Client

variable {client : Client} {e : Ledger.Transaction} {id : Uuid}

theorem created_iff (he : client.call.reply?.bind client.demand.draft? = some e.draft) :
    e.concerns .petitionCreated id = true ↔ client.createdId? = some id := by
  obtain ⟨reply, hreply, he⟩ := Option.bind_eq_some_iff.1 he
  obtain ⟨d, call⟩ := client
  cases d with
  | create request i =>
    cases reply with
    | petition p =>
      obtain ⟨now, rfl⟩ := Petition.exists_event (Option.some.inj he)
      simp [createdId?, show call.reply? = _ from hreply, Petition.concerns_event]
    | _ => cases he
  | vote b =>
    cases reply with
    | vote v =>
      obtain ⟨now, rfl⟩ := Vote.exists_event (Option.some.inj he)
      simp [createdId?, Vote.concerns_event]
    | _ => cases he
  | _ => cases he

theorem cast_of_concerns (he : client.call.reply?.bind client.demand.draft? = some e.draft)
    (hid : e.concerns .voteCast id = true) :
    ∃ v, client.call.castVote? = some v ∧ v.petitionId = id := by
  obtain ⟨reply, hreply, he⟩ := Option.bind_eq_some_iff.1 he
  obtain ⟨d, call⟩ := client
  cases d with
  | create request i =>
    cases reply with
    | petition p =>
      obtain ⟨now, rfl⟩ := Petition.exists_event (Option.some.inj he)
      cases ((p.concerns_event now .voteCast id).1 hid).1
    | _ => cases he
  | vote b =>
    cases reply with
    | vote v =>
      obtain ⟨now, rfl⟩ := Vote.exists_event (Option.some.inj he)
      exact ⟨v, Call.castVote?_eq_some.2 hreply, ((v.concerns_event now .voteCast id).1 hid).2⟩
    | _ => cases he
  | _ => cases he

theorem draft_of_created (h : client.createdId? = some id) :
    ∃ p : Petition, p.id = id ∧ client.call.reply?.bind client.demand.draft? = some p.draft := by
  obtain ⟨d, call⟩ := client
  unfold createdId? at h
  split at h
  · rename_i request i p hd hreply
    cases h
    refine ⟨p, rfl, ?_⟩
    simp [show d = _ from hd, show call.reply? = _ from hreply, Demand.draft?]
  · cases h

end Client

namespace Traffic

/-- Whether a call that has created this petition still has the event to submit. -/
def announcing (t : Traffic) (id : Uuid) : Bool :=
  t.clients.any fun client => client.createdId? = some id && !client.call.records.isEmpty

theorem exists_split {α : Type} (see : Traffic → Event → Option α) (t : Traffic)
    {events : List Event} {j : Nat} {x : α} (h : (observed see t events)[j]? = some x) :
    ∃ xs e ys, events = xs ++ e :: ys ∧ (observed see t xs).length = j ∧
      see (t.run xs) e = some x := by
  induction events using List.reverseRecOn with
  | nil => cases h
  | append_singleton events e ih =>
    rw [observed_concat, List.getElem?_append] at h
    split at h
    · obtain ⟨xs, e', ys, rfl, hlength, hsee⟩ := ih h
      exact ⟨xs, e', ys ++ [e], by simp, hlength, hsee⟩
    · rename_i hlast
      have hmem := List.mem_of_getElem? h
      have hzero := (List.getElem?_eq_some_iff.1 h).1
      have hone : (see (t.run events) e).toList.length ≤ 1 := by
        cases see (t.run events) e <;> simp
      exact ⟨events, e, [], rfl, by omega, Option.mem_toList.1 hmem⟩

theorem eq_of_nodup_filterMap {α β : Type} {f : α → Option β} {l : List α}
    (h : (l.filterMap f).Nodup) {a b : α} (ha : a ∈ l) (hb : b ∈ l) {x : β} (hx : f a = some x)
    (hy : f b = some x) : a = b := by
  have hpairwise : l.Pairwise fun a b => ∀ x, f a = some x → f b = some x → a = b := by
    rw [List.Nodup, List.pairwise_filterMap] at h
    exact h.imp fun hne x hx hy => absurd rfl (hne x hx x hy)
  have hsymm : Std.Symm fun a b => ∀ x, f a = some x → f b = some x → a = b :=
    ⟨fun a b hab x hx hy => (hab x hy hx).symm⟩
  exact hpairwise.forall_of_forall (fun a _ _ _ _ => rfl) ha hb x hx hy

theorem exists_iff_of_map_eq {α β γ : Type} {f : α → γ} {g : β → γ} {l : List α} {m : List β}
    (h : l.map f = m.map g) (P : γ → Prop) : (∃ a ∈ l, P (f a)) ↔ ∃ b ∈ m, P (g b) := by
  have hmem := congrArg (fun l => ∃ c ∈ l, P c) h
  simpa using hmem

namespace Logged

variable {w₀ : Writer} {t : Traffic} {actions : List Writer.Action} {appends : List Append}
  {replies : List (Wait × Ledger.Reply)} {id : Uuid}

theorem announced_iff (h : Logged w₀ t actions appends replies)
    (hdistinct : (createdIds t.clients).Nodup) (hid : id ∈ createdIds t.clients) :
    (∃ a ∈ appends, a.transaction.concerns .petitionCreated id = true) ↔
      t.announcing id = false := by
  constructor
  · rintro ⟨a, ha, hconcerns⟩
    obtain ⟨client, hn, hrecords, hdraft⟩ := h.submitted ha
    have hcreated := (Client.created_iff hdraft).1 hconcerns
    simp only [announcing, List.any_eq_false]
    intro other hother
    have hsame (hcreates : other.createdId? = some id) : other.call.records = [] := by
      rw [← eq_of_nodup_filterMap hdistinct (List.mem_of_getElem? hn) hother hcreated hcreates,
        hrecords]
    simpa using hsame
  · intro hquiet
    obtain ⟨client, hclient, hcreated⟩ := List.mem_filterMap.1 hid
    obtain ⟨n, hn⟩ := List.getElem?_of_mem hclient
    obtain ⟨p, rfl, hdraft⟩ := Client.draft_of_created hcreated
    have hdrafts := h.drafts n client hn
    have hrecords : client.call.records = [] := by
      have hnot := List.any_eq_false.1 hquiet client hclient
      simpa [hcreated] using hnot
    rw [hrecords, List.append_nil, hdraft] at hdrafts
    have hmem : p.draft ∈ draftsOf appends n := by simp [hdrafts]
    obtain ⟨a, ha, hsame⟩ := List.mem_map.1 hmem
    refine ⟨a, (List.mem_filter.1 ha).1, ?_⟩
    obtain ⟨now, hevent⟩ := Petition.exists_event hsame.symm
    rw [hevent]
    exact (p.concerns_event now .petitionCreated p.id).2 ⟨rfl, rfl⟩

theorem carried_in_order {config : Ledger.Config} {time eventTime : Instant} {micros : Nat}
    (h : Logged w₀ t actions appends replies)
    (hstart : Writer.start config time eventTime micros = .ok w₀)
    (htaken : ∀ a ∈ appends, a.ticket.isSome = true)
    (hsealed : ∀ p ∈ w₀.processed actions, ∃ b, p.sealing = .ok b) :
    t.service.snapshot.later.map Ledger.Block.transaction <+:
      appends.map Append.transaction := by
  have hqueue : (w₀.queue actions).filterMap Ledger.Request.transaction? =
      ((w₀.queue actions).filter Ledger.Request.isAppend).filterMap
        Ledger.Request.transaction? := by
    rw [List.filterMap_filter]
    refine List.filterMap_congr fun r _ => ?_
    cases r <;> rfl
  have hplaces : (appends.filterMap Append.place?).filterMap Ledger.Request.transaction? =
      appends.map Append.transaction := by
    rw [List.filterMap_filterMap, ← List.filterMap_eq_map]
    refine List.filterMap_congr fun a ha => ?_
    obtain ⟨k, hk⟩ := Option.isSome_iff_exists.1 (htaken a ha)
    simp [Append.place?, hk, Ledger.Request.transaction?]
  have hcarried := Writer.carried_in_order hstart hsealed
  rw [hqueue, h.places, hplaces] at hcarried
  rw [Service.snapshot, h.ledger]
  exact hcarried

end Logged

/-- Whether a call that has created this petition is done. -/
def Returned (t : Traffic) (id : Uuid) : Prop :=
  ∃ client ∈ t.clients, client.createdId? = some id ∧ client.call.isDone = true

theorem announcing_of_returned {t : Traffic} {id : Uuid} (hdistinct : (createdIds t.clients).Nodup)
    (h : t.Returned id) : t.announcing id = false := by
  obtain ⟨client, hclient, hcreated, hdone⟩ := h
  simp only [announcing, List.any_eq_false]
  intro other hother
  have hsame (hcreates : other.createdId? = some id) : other.call.records = [] := by
    rw [← eq_of_nodup_filterMap hdistinct hclient hother hcreated hcreates, Call.records,
      Call.effects_of_isDone hdone, List.filterMap_nil]
  simpa using hsame

theorem done_step {t : Traffic} {n : Nat} {client : Client} (hn : t.clients[n]? = some client)
    (hdone : client.call.isDone = true) (e : Event) : (t.step e).clients[n]? = some client := by
  have hlt := (List.getElem?_eq_some_iff.1 hn).1
  cases e with
  | arrive d now => simpa [step, List.getElem?_append_left hlt] using hn
  | advance m c =>
    by_cases hmn : m = n
    · rw [hmn, step, advance_of_isDone hn hdone]
      exact hn
    · cases hm : t.clients[m]? with
      | none => simpa [step, advance, hm] using hn
      | some other => simpa [step, advance_of_found hm, List.getElem?_set_ne hmn] using hn
  | switchStore available => exact hn
  | work m c => exact hn
  | ledger action => exact hn

theorem Returned.run {t : Traffic} {id : Uuid} (h : t.Returned id) (events : List Event) :
    (t.run events).Returned id := by
  obtain ⟨client, hclient, hcreated, hdone⟩ := h
  obtain ⟨n, hn⟩ := List.getElem?_of_mem hclient
  have hstays : (t.run events).clients[n]? = some client := by
    induction events using List.reverseRecOn with
    | nil => exact hn
    | append_singleton events e ih =>
      rw [run_concat]
      exact done_step ih hdone e
  exact ⟨client, List.mem_of_getElem? hstays, hcreated, hdone⟩

theorem draft_of_append {w₀ : Writer} {t : Traffic} {actions : List Writer.Action}
    {appends : List Append} {replies : List (Wait × Ledger.Reply)}
    (h : Logged w₀ t actions appends replies) {e : Event} {a : Append}
    (ha : append? t e = some a) :
    ∃ client ∈ t.clients,
      client.call.reply?.bind client.demand.draft? = some a.transaction.draft := by
  cases e with
  | advance n c =>
    obtain ⟨client, hn, ha⟩ := Option.bind_eq_some_iff.1 ha
    obtain ⟨d, hrecord, rfl⟩ := Option.map_eq_some_iff.1 ha
    have hmem : d ∈ client.call.records := Call.mem_records hrecord
    refine ⟨client, List.mem_of_getElem? hn, Option.mem_toList.1 ?_⟩
    rw [← h.drafts n client hn]
    exact List.mem_append_right _ hmem
  | _ => cases ha

section Started

variable {config : Ledger.Config} {time eventTime : Instant} {micros : Nat} {w₀ : Writer}
  {settings : Settings} {cache : CacheConfig} {events : List Event}

theorem nodup_createdIds (ledger : Ledger.Peer) (hfresh : (drawn events).Nodup) :
    (createdIds ((start settings cache ledger).run events).clients).Nodup := by
  have hbalanced := balanced_run settings cache ledger events hfresh
  rw [(created_run settings cache ledger hfresh).nodup_iff]
  exact (List.nodup_append.1 hbalanced.distinct).2.1

theorem created_of_submitted (hstart : Writer.start config time eventTime micros = .ok w₀)
    (hprivate : ∀ e ∈ events, e.isPrivate = true) (hfresh : (drawn events).Nodup) {id : Uuid}
    {e : Event} {a : Append}
    (ha : append? ((start settings cache (.live w₀)).run events) e = some a)
    (hid : a.transaction.concerns .voteCast id = true) :
    id ∈ createdIds ((start settings cache (.live w₀)).run events).clients ∧
      ∃ b now, b.petition = id ∧ .arrive (.vote b) now ∈ events := by
  have hbalanced := balanced_run settings cache (.live w₀) events hfresh
  have hcreated := created_run settings cache (.live w₀) hfresh
  obtain ⟨client, hclient, hdraft⟩ :=
    draft_of_append (logged_run hstart settings cache hprivate) ha
  obtain ⟨v, hv, rfl⟩ := Client.cast_of_concerns hdraft hid
  obtain ⟨b, hdemand, -, hpetition⟩ := voter_of_castVote? (hbalanced.serves client hclient) hv
  have hrow := hbalanced.cast.mem_iff.1 (List.mem_filterMap.2 ⟨client, hclient, hv⟩)
  have hasked := List.mem_map_of_mem (f := Client.demand) hclient
  rw [demands_run, hdemand] at hasked
  obtain ⟨e, he, hvote⟩ := List.mem_filterMap.1 (by simpa [start] using hasked)
  refine ⟨hcreated.mem_iff.2 (hbalanced.known v hrow), b, ?_⟩
  cases e with
  | arrive d time =>
    cases hvote
    exact ⟨time, hpetition.symm, he⟩
  | _ => cases hvote

theorem announced_at (hstart : Writer.start config time eventTime micros = .ok w₀)
    (hprivate : ∀ e ∈ events, e.isPrivate = true) (hfresh : (drawn events).Nodup) {id : Uuid}
    {e : Event} {a : Append}
    (ha : append? ((start settings cache (.live w₀)).run events) e = some a)
    (hid : a.transaction.concerns .voteCast id = true) :
    (∃ c ∈ observed append? (start settings cache (.live w₀)) events,
        c.transaction.concerns .petitionCreated id = true) ↔
      ((start settings cache (.live w₀)).run events).announcing id = false :=
  (logged_run hstart settings cache hprivate).announced_iff (nodup_createdIds (.live w₀) hfresh)
    (created_of_submitted hstart hprivate hfresh ha hid).1

theorem announcing_of_waited (hstart : Writer.start config time eventTime micros = .ok w₀)
    (hprivate : ∀ e ∈ events, e.isPrivate = true) (hfresh : (drawn events).Nodup) {id : Uuid}
    {e : Event} {a : Append}
    (ha : append? ((start settings cache (.live w₀)).run events) e = some a)
    (hid : a.transaction.concerns .voteCast id = true)
    (hwaited : ∀ xs ballot now ys, events = xs ++ .arrive (.vote ballot) now :: ys →
      ballot.petition = id → ((start settings cache (.live w₀)).run xs).Returned id) :
    ((start settings cache (.live w₀)).run events).announcing id = false := by
  obtain ⟨-, b, now, hpetition, harrived⟩ := created_of_submitted hstart hprivate hfresh ha hid
  obtain ⟨xs, ys, hsplit⟩ := List.append_of_mem harrived
  have hreturned := (hwaited xs b now ys hsplit hpetition).run (.arrive (.vote b) now :: ys)
  rw [← run_append, ← hsplit] at hreturned
  exact announcing_of_returned (nodup_createdIds (.live w₀) hfresh) hreturned

end Started

/-- The ledger takes every event, and no search fails. -/
structure Sound (w₀ : Writer) (t₀ : Traffic) (events : List Event) : Prop where
  taken : ∀ a ∈ observed append? t₀ events, a.ticket.isSome = true
  sealed : ∀ p ∈ w₀.processed (observed action? t₀ events), ∃ b, p.sealing = .ok b

/-- Whether a search is broken off. -/
def Event.breaksOff : Event → Bool
  | .ledger (.search aborted _) => aborted
  | _ => false

theorem search_of_observed {t : Traffic} {events : List Event} {aborted : Bool} {m : Nat}
    (h : .search aborted m ∈ observed action? t events) :
    .ledger (.search aborted m) ∈ events := by
  induction events generalizing t with
  | nil => cases h
  | cons e events ih =>
    rw [observed, List.mem_append] at h
    rcases h with h | h
    · rw [Option.mem_toList] at h
      cases e with
      | advance n c =>
        obtain ⟨client, -, h⟩ := Option.bind_eq_some_iff.1 h
        obtain ⟨event, -, h⟩ := Option.bind_eq_some_iff.1 h
        unfold Service.submission? at h
        split at h <;> cases h
      | ledger action =>
        cases h
        exact List.mem_cons_self
      | _ => cases h
    · exact List.mem_cons_of_mem _ (ih h)

theorem Sound.of_zero {config : Ledger.Config} {time eventTime : Instant} {micros : Nat}
    {w₀ : Writer} (hstart : Writer.start config time eventTime micros = .ok w₀)
    (hzero : config.difficulty = 0) {t₀ : Traffic} {events : List Event}
    (hkept : ∀ e ∈ events, e.breaksOff = false)
    (htaken : ∀ a ∈ observed append? t₀ events, a.ticket.isSome = true) : Sound w₀ t₀ events where
  taken := htaken
  sealed := Writer.sealed_of_zero hstart hzero fun m hm =>
    absurd (hkept _ (search_of_observed hm)) (by simp [Event.breaksOff])

/-- Where the creations and the votes stand on the chain of a run. -/
structure CreationOrder (t₀ : Traffic) (events : List Event) : Prop where
  /-- The blocks behind the first one carry the events in the order of submission. -/
  carried : (t₀.run events).service.snapshot.later.map Ledger.Block.transaction <+:
    (observed append? t₀ events).map Append.transaction
  /-- A vote has the creation of its petition ahead of it exactly if no call that had created the
  petition still had the event to submit when the vote was submitted. -/
  ahead : ∀ j b id, (t₀.run events).service.snapshot.later[j]? = some b →
    b.transaction.concerns .voteCast id = true →
    ∃ xs e ys, events = xs ++ e :: ys ∧ (observed append? t₀ xs).length = j ∧
      (append? (t₀.run xs) e).map Append.transaction = some b.transaction ∧
      ((∃ a ∈ (t₀.run events).service.snapshot.later.take j,
          a.transaction.concerns .petitionCreated id = true) ↔
        (t₀.run xs).announcing id = false)
  /-- So it has, if the petition is only voted on when its creation has returned. -/
  returned : ∀ j b id, (t₀.run events).service.snapshot.later[j]? = some b →
    b.transaction.concerns .voteCast id = true →
    (∀ xs ballot now ys, events = xs ++ .arrive (.vote ballot) now :: ys → ballot.petition = id →
      (t₀.run xs).Returned id) →
    ∃ a ∈ (t₀.run events).service.snapshot.later.take j,
      a.transaction.concerns .petitionCreated id = true

theorem exists_submission {t₀ : Traffic} {events : List Event} {blocks : List Ledger.Block}
    (h : blocks.map Ledger.Block.transaction <+:
      (observed append? t₀ events).map Append.transaction)
    {j : Nat} {b : Ledger.Block} (hj : blocks[j]? = some b) :
    ∃ xs e ys a, events = xs ++ e :: ys ∧ (observed append? t₀ xs).length = j ∧
      append? (t₀.run xs) e = some a ∧ a.transaction = b.transaction ∧
      (blocks.take j).map Ledger.Block.transaction =
        (observed append? t₀ xs).map Append.transaction := by
  have hlt := (List.getElem?_eq_some_iff.1 hj).1
  obtain ⟨rest, hrest⟩ := h
  have hsubmitted : ((observed append? t₀ events).map Append.transaction)[j]? =
      some b.transaction := by
    rw [← hrest, List.getElem?_append_left (by simpa using hlt), List.getElem?_map, hj,
      Option.map_some]
  rw [List.getElem?_map, Option.map_eq_some_iff] at hsubmitted
  obtain ⟨a, ha, hsame⟩ := hsubmitted
  obtain ⟨xs, e, ys, rfl, hlength, happend⟩ := exists_split append? t₀ ha
  refine ⟨xs, e, ys, a, rfl, hlength, happend, hsame, ?_⟩
  have htake := congrArg (List.take j) hrest
  rw [List.take_append_of_le_length (by simpa using Nat.le_of_lt hlt), observed_append,
    List.map_append, List.take_append_of_le_length (by simp [hlength])] at htake
  rw [List.map_take, htake]
  exact List.take_of_length_le (by simp [hlength])

section Started

variable {config : Ledger.Config} {time eventTime : Instant} {micros : Nat} {w₀ : Writer}
  {settings : Settings} {cache : CacheConfig} {events : List Event}

/-- What led to the submission of a vote whose block stands at a place of the chain: by then the
creation of its petition had been submitted, or the call that had created it was on its way. -/
theorem exists_vote (hstart : Writer.start config time eventTime micros = .ok w₀)
    (hprivate : ∀ e ∈ events, e.isPrivate = true) (hfresh : (drawn events).Nodup)
    {blocks : List Ledger.Block} (hcarried : blocks.map Ledger.Block.transaction <+:
      (observed append? (start settings cache (.live w₀)) events).map Append.transaction)
    {j : Nat} {b : Ledger.Block} {id : Uuid} (hj : blocks[j]? = some b)
    (hid : b.transaction.concerns .voteCast id = true) :
    ∃ xs e ys a, events = xs ++ e :: ys ∧ (∀ e ∈ xs, e.isPrivate = true) ∧ (drawn xs).Nodup ∧
      (observed append? (start settings cache (.live w₀)) xs).length = j ∧
      append? ((start settings cache (.live w₀)).run xs) e = some a ∧
      a.transaction = b.transaction ∧
      ((∃ c ∈ blocks.take j, c.transaction.concerns .petitionCreated id = true) ↔
        ((start settings cache (.live w₀)).run xs).announcing id = false) := by
  obtain ⟨xs, e, ys, a, rfl, hlength, happend, htransaction, hbefore⟩ :=
    exists_submission hcarried hj
  have hxs : ∀ e ∈ xs, e.isPrivate = true :=
    fun e he => hprivate e (List.mem_append_left _ he)
  rw [drawn, List.filterMap_append, List.filterMap_append] at hfresh
  have hdrawn : (drawn xs).Nodup := (List.nodup_append.1 hfresh).1
  refine ⟨xs, e, ys, a, rfl, hxs, hdrawn, hlength, happend, htransaction, ?_⟩
  rw [← announced_at hstart hxs hdrawn happend (htransaction ▸ hid)]
  exact exists_iff_of_map_eq hbefore (·.concerns .petitionCreated id = true)

end Started

/-- A healthy ledger has the events in the order in which the calls submit them, whether a call waits
for its block or leaves that to a task. So a vote can come before the creation of its petition, but
only if it is submitted while the call that has created the petition is on its way to do so. -/
theorem creation_order {config : Ledger.Config} {time eventTime : Instant} {micros : Nat}
    {w₀ : Writer} (hstart : Writer.start config time eventTime micros = .ok w₀)
    (settings : Settings) (cache : CacheConfig) {events : List Event}
    (hprivate : ∀ e ∈ events, e.isPrivate = true) (hfresh : (drawn events).Nodup)
    (hsound : Sound w₀ (start settings cache (.live w₀)) events) :
    CreationOrder (start settings cache (.live w₀)) events := by
  have hcarried := (logged_run hstart settings cache hprivate).carried_in_order hstart hsound.taken
    hsound.sealed
  refine ⟨hcarried, fun j b id hj hid => ?_, fun j b id hj hid hwaited => ?_⟩
  · obtain ⟨xs, e, ys, a, hsplit, -, -, hlength, happend, htransaction, hiff⟩ :=
      exists_vote hstart hprivate hfresh hcarried hj hid
    exact ⟨xs, e, ys, hsplit, hlength, by simp [happend, htransaction], hiff⟩
  · obtain ⟨xs, e, ys, a, hsplit, hxs, hdrawn, -, happend, htransaction, hiff⟩ :=
      exists_vote hstart hprivate hfresh hcarried hj hid
    apply hiff.2
    refine announcing_of_waited hstart hxs hdrawn happend (htransaction ▸ hid)
      fun xs' ballot now ys' h => ?_
    exact hwaited xs' ballot now (ys' ++ e :: ys) (by simp [hsplit, h])

theorem later_run_ledger {t : Traffic} {w : Writer} (h : t.service.ledger = .live w)
    (actions : List Writer.Action) :
    (t.run (actions.map .ledger)).service.snapshot.later = (w.run actions).chain.later := by
  rw [run_ledger h]
  rfl

/-- A petition that is voted on between the write of its creation and the end of that call. -/
def overtaking : List Event :=
  .arrive (.create bikeLanes (.ofNat 1)) default :: .advance 0 calm :: voting 1 2 4 ++
    List.replicate 2 (.advance 0 calm)

/-- The writer takes its two requests and answers them. -/
def sealing : List Writer.Action :=
  (List.replicate 2 [.receive default, .search false 0, .push]).flatten

theorem creation_order_overtaking :
    ∃ w₀, Writer.start ⟨0, 16, "Genesis block"⟩ default default 0 = .ok w₀ ∧
      let t₀ := start .standard .standard (.live w₀)
      let events := overtaking ++ sealing.map .ledger
      let t := t₀.run events
      (∀ e ∈ events, e.isPrivate = true) ∧ (drawn events).Nodup ∧ Sound w₀ t₀ events ∧
        (t.service.snapshot.later.map fun b => (b.transaction.concerns .voteCast (.ofNat 1),
          b.transaction.concerns .petitionCreated (.ofNat 1))) = [(true, false), (false, true)] ∧
        CreationOrder t₀ events := by
  let first := (Ledger.Template.genesis 0 "Genesis block" default default).proved 0
  let w₀ : Writer := ⟨⟨first, []⟩, Ledger.Metrics.zero.recordSealed (UInt64.ofNat 1) 0, [], 16,
    .idle, true, 0, [], []⟩
  have hstart : Writer.start ⟨0, 16, "Genesis block"⟩ default default 0 = .ok w₀ :=
    Writer.start_zero "Genesis block" default default 0 (by decide) (by decide)
  refine ⟨w₀, hstart, ?_⟩
  intro t₀ events t
  have hprivate : ∀ e ∈ events, e.isPrivate = true := by decide
  have hfresh : (drawn events).Nodup := by decide
  have hearlier : ∀ e ∈ overtaking, e.isPrivate = true :=
    fun e he => hprivate e (List.mem_append_left _ he)
  have hlogged : Logged w₀ (t₀.run overtaking) (observed action? t₀ overtaking)
      (observed append? t₀ overtaking) (observed replied? t₀ overtaking) :=
    logged_run hstart .standard .standard hearlier
  -- no digest is computed from here on: the blocks carry what waits in the mailbox
  have hwaiting : let w := w₀.run (observed action? t₀ overtaking)
      w.running = true ∧ w.work.requests.length = 0 ∧
      w.mailbox.all Ledger.Request.isAppend = true ∧ w.mailbox.length = 2 ∧ w.forgotten = [] ∧
      w.chain.later.length = 0 ∧ w.chain.difficulty = 0 ∧ w.chain.tail.index = 0 ∧
      ((w.mailbox.filterMap Ledger.Request.transaction?).map fun e =>
        (e.concerns .voteCast (.ofNat 1), e.concerns .petitionCreated (.ofNat 1))) =
          [(true, false), (false, true)] := by
    decide +kernel
  have hledger := hlogged.ledger
  generalize w₀.run (observed action? t₀ overtaking) = w at hledger hwaiting
  obtain ⟨hrunning, hwork, happends, hlength, hkept, hnone, hzero, hindex, hconcerns⟩ := hwaiting
  have hlater : t.service.snapshot.later.map Ledger.Block.transaction =
      w.mailbox.filterMap Ledger.Request.transaction? := by
    have hidle : w.work = .idle := Ledger.Work.idle_of_requests (List.length_eq_zero_iff.1 hwork)
    have hseals := Writer.run_seals hrunning hidle rfl (List.all_eq_true.1 happends) hkept hzero
      (by rw [hindex, hlength]; decide) default 0
    have hrun : t = (t₀.run overtaking).run (sealing.map .ledger) := run_append ..
    rw [hlength, List.length_eq_zero_iff.1 hnone, List.map_nil, List.nil_append] at hseals
    rw [hrun, later_run_ledger hledger]
    exact hseals
  have hsound : Sound w₀ t₀ events := by
    have htaken : (observed append? t₀ events).all (·.ticket.isSome) = true := by decide +kernel
    exact Sound.of_zero hstart rfl (by decide) (List.all_eq_true.1 htaken)
  refine ⟨hprivate, hfresh, hsound, ?_,
    creation_order hstart .standard .standard hprivate hfresh hsound⟩
  rw [← hconcerns, ← hlater, List.map_map]
  rfl

end Traffic

end AuditedPetitions
