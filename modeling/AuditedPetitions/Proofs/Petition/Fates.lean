import AuditedPetitions.Proofs.Petition.Completeness

/-! Fates of the events that calls submit. The ledger refuses an event at once, answers it with an
error later, or seals it. When nobody waits any more, the reports of failed appends and the blocks
behind the first one are told by the submitted events and their fates alone, whenever the answers
came and whoever waited for them. Calls that follow each other submit their events in their own
order. -/

namespace AuditedPetitions

open Ledger (Writer)

/-- Error in a reply. -/
def Ledger.Reply.error? : Ledger.Reply → Option Ledger.Error
  | .failed e => some e
  | .sealed _ | .stopped => none

theorem Ledger.Reply.fault?_eq (r : Ledger.Reply) : r.fault? = r.error?.map Ledger.Error.message := by
  cases r <;> rfl

/-- Submission of an event, with the error of a ledger that refused it. -/
structure Attempt extends Append where
  refusal : Option Ledger.Error

/-- Submitted event, and the error that it ended with, if it did. -/
structure Verdict where
  client : Nat
  event : Ledger.Transaction
  fate : Option Ledger.Error

namespace Verdict

def ending (v : Verdict) : Ending :=
  ⟨.append v.event.description, v.fate.map Ledger.Error.message⟩

def isSealed (v : Verdict) : Bool := v.fate.isNone

end Verdict

/-- How the end of a wait ends the duty behind it. -/
def answeredEnding (r : Wait × Ledger.Reply) : Ending := ⟨.append r.1.2, r.2.fault?⟩

def Ending.isAppend (e : Ending) : Bool := e.duty.effect = "ledger"

namespace Attempt

/-- How a refusal ends the duty behind it. -/
def refused? (a : Attempt) : Option Ending :=
  a.refusal.map fun e => ⟨.append a.transaction.description, some e.message⟩

/-- What the ledger has made of the event. -/
def verdict (ledger : Ledger.Peer) (a : Attempt) : Verdict where
  client := a.client
  event := a.transaction
  fate := a.refusal.or (a.ticket.bind fun k => (ledger.reply? (.ticket k)).bind Ledger.Reply.error?)

end Attempt

namespace Service

variable {s : Service} {w : Writer}

/-- Error with which the ledger refuses an event. -/
def refusal? (s : Service) (c : Conditions) (d : Ledger.Draft) : Option Ledger.Error :=
  match c.ledger.elim (s.ledger.submit (d.stamp c.now)) .error with
  | .error e => some e
  | .ok _ => none

theorem refusal?_isSome (h : s.ledger = .live w) (c : Conditions) (d : Ledger.Draft) :
    (s.refusal? c d).isSome = (s.ticket? c d).isNone := by
  have hsubmitted := submitted h c d
  simp only [refusal?]
  generalize c.ledger.elim (s.ledger.submit (d.stamp c.now)) .error = answer at hsubmitted
  generalize s.ticket? c d = ticket at hsubmitted
  generalize submission? c d = action at hsubmitted
  cases hsubmitted <;> rfl

theorem append_ending (s : Service) (c : Conditions) (e : Effect) :
    (s.ending? c e).toList.filter Ending.isAppend =
      (e.record?.bind fun d => (s.refusal? c d).map fun f =>
          ⟨.append d.description, some f.message⟩).toList ++
        (e.wait?.bind fun wait => s.answer? wait).toList.map answeredEnding := by
  cases e with
  | record d =>
    simp only [ending?, refusal?, Effect.record?, Effect.wait?, Option.bind_some]
    cases c.ledger.elim (s.ledger.submit (d.stamp c.now)) .error <;> rfl
  | awaitSeal pending description =>
    simp only [ending?, Effect.record?, Effect.wait?, Option.bind_some, answer?]
    cases s.ledger.reply? pending <;> rfl
  | dropPetition id => rfl
  | findListings =>
    simp only [ending?, Effect.record?, Effect.wait?]
    split <;> rfl
  | dropListings keys => rfl

theorem append_taskEnding (s : Service) (c : Conditions) (task : Task) :
    (s.taskEnding? c task).toList.filter Ending.isAppend =
      (task.wait?.bind fun wait => s.answer? wait).toList.map answeredEnding := by
  match task with
  | .index d => rfl
  | .seal pending description =>
    simp only [taskEnding?, Task.wait?, Option.bind_some, answer?]
    cases s.ledger.reply? pending <;> rfl

end Service

theorem Service.append_callEnding (s : Service) (c : Conditions) (call : Call) :
    (s.callEnding? c call).toList.filter Ending.isAppend =
      (call.record?.bind fun d => (s.refusal? c d).map fun f =>
          ⟨.append d.description, some f.message⟩).toList ++
        (call.wait?.bind fun wait => s.answer? wait).toList.map answeredEnding := by
  cases call with
  | settle effects reply =>
    cases effects with
    | nil => rfl
    | cons e effects =>
      rw [Call.record?_settle, Call.wait?_settle]
      exact s.append_ending c e
  | _ => rfl

namespace Traffic

/-- Event that is submitted to the ledger, and the refusal. -/
def attempt? (t : Traffic) : Event → Option Attempt
  | .advance n c =>
    t.clients[n]?.bind fun client => client.call.record?.map fun d =>
      ⟨⟨n, d.stamp c.now, t.service.ticket? c d⟩, t.service.refusal? c d⟩
  | .arrive .. | .switchStore _ | .work .. | .ledger _ => none

theorem append?_eq (t : Traffic) (e : Event) : append? t e = (attempt? t e).map Attempt.toAppend := by
  cases e with
  | advance n c =>
    simp only [append?, attempt?]
    cases t.clients[n]? with
    | none => rfl
    | some client => cases h : client.call.record? <;> simp [h]
  | _ => rfl

theorem observed_map {α β : Type} {see : Traffic → Event → Option α}
    {see' : Traffic → Event → Option β} {f : α → β} (h : ∀ t e, see' t e = (see t e).map f)
    (t : Traffic) (events : List Event) :
    observed see' t events = (observed see t events).map f := by
  induction events generalizing t with
  | nil => rfl
  | cons e events ih =>
    simp only [observed, List.map_append, ih, h]
    cases see t e <;> rfl

/-- Attempts to submit an event, in order. -/
def attempts (t : Traffic) (events : List Event) : List Attempt := observed attempt? t events

/-- Events that were submitted in a run, and what the ledger has made of them. -/
def verdicts (t : Traffic) (events : List Event) : List Verdict :=
  (attempts t events).map (Attempt.verdict (t.run events).service.ledger)

theorem append_ended (t : Traffic) (e : Event) :
    (ended? t e).toList.filter Ending.isAppend =
      ((attempt? t e).bind Attempt.refused?).toList ++ (replied? t e).toList.map answeredEnding := by
  cases e with
  | advance n c =>
    simp only [ended?, attempt?, replied?]
    cases t.clients[n]? with
    | none => rfl
    | some client =>
      simp only [Option.bind_some]
      rw [Service.append_callEnding]
      cases client.call.record? <;> rfl
  | work n c =>
    simp only [ended?, attempt?, replied?]
    cases t.service.background[n]? with
    | none => rfl
    | some task => exact Service.append_taskEnding t.service c task
  | arrive d now => rfl
  | switchStore available => rfl
  | ledger action => rfl

theorem append_endings (t : Traffic) (events : List Event) :
    ((endings t events).filter Ending.isAppend).Perm
      ((attempts t events).filterMap Attempt.refused? ++
        (observed replied? t events).map answeredEnding) := by
  refine List.perm_iff_count.2 fun a => ?_
  induction events using List.reverseRecOn with
  | nil => rfl
  | append_singleton events e ih =>
    have hstep := congrArg (List.count a) (append_ended (t.run events) e)
    have hrefused : (attempt? (t.run events) e).toList.filterMap Attempt.refused? =
        ((attempt? (t.run events) e).bind Attempt.refused?).toList := by
      cases attempt? (t.run events) e with
      | none => rfl
      | some b => cases h : b.refused? <;> simp [h]
    simp only [endings, attempts, observed_concat, List.filter_append, List.filterMap_append,
      List.map_append, List.count_append, hrefused] at ih hstep ⊢
    omega

section Started

variable {config : Ledger.Config} {time eventTime : Instant} {micros : Nat} {w₀ : Writer}

theorem refusal_of_attempt (hstart : Writer.start config time eventTime micros = .ok w₀)
    (settings : Settings) (cache : CacheConfig) {events : List Event}
    (hprivate : ∀ e ∈ events, e.isPrivate = true) :
    ∀ a ∈ attempts (start settings cache (.live w₀)) events,
      a.refusal.isSome = a.ticket.isNone := by
  induction events using List.reverseRecOn with
  | nil => exact List.forall_mem_nil _
  | append_singleton events e ih =>
    have hearlier : ∀ e ∈ events, e.isPrivate = true :=
      fun e he => hprivate e (List.mem_append_left _ he)
    have hledger := (logged_run hstart settings cache hearlier).ledger
    intro a ha
    rw [attempts, observed_concat, List.mem_append, Option.mem_toList] at ha
    rcases ha with ha | ha
    · exact ih hearlier a ha
    · cases e with
      | advance n c =>
        obtain ⟨client, -, ha⟩ := Option.bind_eq_some_iff.1 ha
        obtain ⟨event, -, rfl⟩ := Option.map_eq_some_iff.1 ha
        exact Service.refusal?_isSome hledger c event
      | _ => cases ha

end Started

end Traffic

namespace Attempt

variable {ledger : Ledger.Peer} {a : Attempt}

/-- How a wait ends, by the reply that is there. -/
def waitedEnding (ledger : Ledger.Peer) (wait : Wait) : Ending :=
  ⟨.append wait.2, (ledger.reply? wait.1).bind Ledger.Reply.fault?⟩

theorem verdict_ending (h : a.refusal.isSome = a.ticket.isNone) :
    a.refused?.toList ++ (a.wait?.map (waitedEnding ledger)).toList =
      [(a.verdict ledger).ending] := by
  obtain ⟨⟨n, event, ticket⟩, refusal⟩ := a
  cases refusal with
  | none =>
    cases ticket with
    | none => cases h
    | some k =>
      have hfault : (ledger.reply? (.ticket k)).bind Ledger.Reply.fault? =
          ((ledger.reply? (.ticket k)).bind Ledger.Reply.error?).map Ledger.Error.message := by
        cases ledger.reply? (.ticket k) with
        | none => rfl
        | some r => exact r.fault?_eq
      simp [refused?, Append.wait?, waitedEnding, verdict, Verdict.ending, hfault]
  | some e =>
    cases ticket with
    | none => rfl
    | some k => cases h

theorem verdicts_perm {attempts : List Attempt}
    (h : ∀ a ∈ attempts, a.refusal.isSome = a.ticket.isNone) :
    (attempts.filterMap refused? ++
        ((attempts.map toAppend).filterMap Append.wait?).map (waitedEnding ledger)).Perm
      ((attempts.map (verdict ledger)).map Verdict.ending) := by
  have hpointwise : (attempts.flatMap fun a =>
      a.refused?.toList ++ (a.wait?.map (waitedEnding ledger)).toList) =
        (attempts.map (verdict ledger)).map Verdict.ending := by
    induction attempts with
    | nil => rfl
    | cons a attempts ih =>
      rw [List.flatMap_cons, verdict_ending (h a List.mem_cons_self),
        ih fun b hb => h b (List.mem_cons_of_mem _ hb)]
      rfl
  rw [← hpointwise, List.map_filterMap, List.filterMap_map, List.filterMap_eq_flatMap_toList,
    List.filterMap_eq_flatMap_toList]
  exact List.flatMap_append_perm _ _ _

theorem isSealed_verdict {w : Writer} (h : a.refusal.isSome = a.ticket.isNone)
    (hsettled : a.toAppend.Settled w) :
    (a.verdict (.live w)).isSealed = a.toAppend.isSealed w := by
  obtain ⟨⟨n, event, ticket⟩, refusal⟩ := a
  cases hsettled with
  | refused hticket =>
    obtain rfl : ticket = none := hticket
    obtain ⟨e, rfl⟩ := Option.isSome_iff_exists.1 h
    rfl
  | @recorded k b hticket reply carried =>
    obtain rfl : ticket = some k := hticket
    obtain rfl : refusal = none := Option.isSome_eq_false_iff.1 h |> Option.isNone_iff_eq_none.1
    simp [verdict, Verdict.isSealed, Append.isSealed, Append.block?, Ledger.Peer.reply?, reply,
      Ledger.Reply.error?, Writer.sealed?_eq_some.2 reply]
  | @failed k e hticket reply =>
    obtain rfl : ticket = some k := hticket
    have hnone : w.sealed? k = none := by simp [Writer.sealed?, reply]
    simp [verdict, Verdict.isSealed, Append.isSealed, Append.block?, Ledger.Peer.reply?, reply,
      Ledger.Reply.error?, hnone]

end Attempt

namespace Traffic

section Started

variable {config : Ledger.Config} {time eventTime : Instant} {micros : Nat} {w₀ : Writer}
  {settings : Settings} {cache : CacheConfig} {events : List Event}

theorem appends_eq (t : Traffic) (events : List Event) :
    observed append? t events = (attempts t events).map Attempt.toAppend :=
  observed_map append?_eq t events

theorem verdicts_endings (hstart : Writer.start config time eventTime micros = .ok w₀)
    (hprivate : ∀ e ∈ events, e.isPrivate = true)
    (hwaits : ((start settings cache (.live w₀)).run events).waits = []) :
    ((endings (start settings cache (.live w₀)) events).filter Ending.isAppend).Perm
      ((verdicts (start settings cache (.live w₀)) events).map Verdict.ending) := by
  have h := logged_run hstart settings cache hprivate
  have hperm := h.waits
  rw [hwaits, List.nil_append, appends_eq] at hperm
  have hreplies : (observed replied? (start settings cache (.live w₀)) events).map answeredEnding =
      ((observed replied? (start settings cache (.live w₀)) events).map Prod.fst).map
        (Attempt.waitedEnding ((start settings cache (.live w₀)).run events).service.ledger) := by
    rw [List.map_map]
    refine List.map_congr_left fun r hr => ?_
    simp [answeredEnding, Attempt.waitedEnding, h.answered r hr]
  refine (append_endings _ events).trans ?_
  rw [hreplies]
  refine ((hperm.map _).append_left _).trans ?_
  exact Attempt.verdicts_perm (refusal_of_attempt hstart settings cache hprivate)

theorem verdicts_carried (hstart : Writer.start config time eventTime micros = .ok w₀)
    (hprivate : ∀ e ∈ events, e.isPrivate = true)
    (hwaits : ((start settings cache (.live w₀)).run events).waits = []) :
    ((start settings cache (.live w₀)).run events).service.snapshot.later.map
        Ledger.Block.transaction =
      ((verdicts (start settings cache (.live w₀)) events).filter Verdict.isSealed).map
        Verdict.event := by
  have h := logged_run hstart settings cache hprivate
  have hsettled := h.settled hstart hwaits
  have hcarried := Append.carried_eq hsettled
  rw [← h.later_eq hstart, appends_eq, List.filter_map, List.map_map] at hcarried
  rw [Service.snapshot, verdicts, h.ledger, List.filter_map, List.map_map]
  refine hcarried.trans ?_
  rw [appends_eq] at hsettled
  have hsame : (attempts (start settings cache (.live w₀)) events).filter
      (Append.isSealed (w₀.run (observed action? (start settings cache (.live w₀)) events)) ∘
        Attempt.toAppend) =
      (attempts (start settings cache (.live w₀)) events).filter (Verdict.isSealed ∘
        Attempt.verdict
          (.live (w₀.run (observed action? (start settings cache (.live w₀)) events)))) := by
    refine List.filter_congr fun a ha => ?_
    exact (Attempt.isSealed_verdict (refusal_of_attempt hstart settings cache hprivate a ha)
      (hsettled _ (List.mem_map_of_mem ha))).symm
  rw [hsame]
  rfl

end Started

/-- Nobody makes a call before the earlier ones are done. -/
def InTurn (t : Traffic) : Event → Prop
  | .arrive .. => ∀ client ∈ t.clients, client.call.isDone = true
  | .advance .. | .switchStore _ | .work .. | .ledger _ => True

instance (t : Traffic) : ∀ e, Decidable (InTurn t e)
  | .arrive .. => inferInstanceAs (Decidable (∀ client ∈ t.clients, client.call.isDone = true))
  | .advance .. | .switchStore _ | .work .. | .ledger _ => .isTrue trivial

/-- The last call alone is under way. -/
def LastBusy (t : Traffic) : Prop :=
  ∀ n client, t.clients[n]? = some client → client.call.isDone = false → n + 1 = t.clients.length

theorem LastBusy.step {t : Traffic} (h : t.LastBusy) {e : Event} (hturn : InTurn t e) :
    (t.step e).LastBusy := by
  intro n client hn hbusy
  cases e with
  | arrive d now =>
    rw [Traffic.step, List.getElem?_append] at hn
    split at hn
    · have hdone := hturn client (List.mem_of_getElem? hn)
      exact absurd (hdone.symm.trans hbusy) (by decide)
    · have hzero := (List.getElem?_eq_some_iff.1 hn).1
      rw [List.length_singleton] at hzero
      simp only [Traffic.step, List.length_append, List.length_singleton]
      omega
  | advance m c =>
    cases hm : t.clients[m]? with
    | none =>
      simp only [Traffic.step, advance, hm] at hn ⊢
      exact h n client hn hbusy
    | some old =>
      have hlt := (List.getElem?_eq_some_iff.1 hm).1
      rw [Traffic.step, advance_of_found hm] at hn ⊢
      rw [List.length_set]
      by_cases hmn : m = n
      · subst hmn
        rw [List.getElem?_set_self hlt, Option.some.injEq] at hn
        refine h m old hm ?_
        cases hdone : old.call.isDone with
        | false => rfl
        | true =>
          obtain ⟨answer, hanswer⟩ := Call.isDone_iff.1 hdone
          rw [← hn, hanswer] at hbusy
          cases hbusy
      · rw [List.getElem?_set_ne hmn] at hn
        exact h n client hn hbusy
  | switchStore available => exact h n client hn hbusy
  | work m c => exact h n client hn hbusy
  | ledger action => exact h n client hn hbusy

theorem LastBusy.run {t : Traffic} (h : t.LastBusy) {events : List Event}
    (hturn : Along InTurn t events) : (t.run events).LastBusy := by
  induction events generalizing t with
  | nil => exact h
  | cons e events ih => exact ih (h.step hturn.1) hturn.2

theorem LastBusy.start (settings : Settings) (cache : CacheConfig) (ledger : Ledger.Peer) :
    (start settings cache ledger).LastBusy := by
  intro n client hn
  cases hn

theorem client_lt_of_attempt {w₀ : Writer} {t : Traffic} {actions : List Writer.Action}
    {appends : List Append} {replies : List (Wait × Ledger.Reply)}
    (h : Logged w₀ t actions appends replies) (hlast : t.LastBusy) {e : Event} {a : Attempt}
    (ha : attempt? t e = some a) {b : Append} (hb : b ∈ appends) : b.client < a.client := by
  cases e with
  | advance n c =>
    obtain ⟨client, hclient, ha⟩ := Option.bind_eq_some_iff.1 ha
    obtain ⟨d, hrecord, rfl⟩ := Option.map_eq_some_iff.1 ha
    have hrecords := List.ne_nil_of_mem (Call.mem_records hrecord)
    have hbusy : client.call.isDone = false := by
      by_contra hdone
      rw [Bool.not_eq_false] at hdone
      simp [Call.records, Call.effects_of_isDone hdone] at hrecords
    have hlength := hlast n client hclient hbusy
    have hlt := h.clients b hb
    have hne : b.client ≠ n := by
      obtain ⟨other, hother, hnone, -⟩ := h.submitted hb
      rintro rfl
      rw [hclient, Option.some.injEq] at hother
      exact hrecords (hother ▸ hnone)
    dsimp only
    omega
  | _ => cases ha

theorem attempts_in_turn {config : Ledger.Config} {time eventTime : Instant} {micros : Nat}
    {w₀ : Writer} (hstart : Writer.start config time eventTime micros = .ok w₀)
    (settings : Settings) (cache : CacheConfig) {events : List Event}
    (hprivate : ∀ e ∈ events, e.isPrivate = true)
    (hturn : Along InTurn (start settings cache (.live w₀)) events) :
    ((attempts (start settings cache (.live w₀)) events).map (·.client)).Pairwise (· < ·) := by
  induction events using List.reverseRecOn with
  | nil => exact List.Pairwise.nil
  | append_singleton events e ih =>
    rw [along_append] at hturn
    have hearlier : ∀ e ∈ events, e.isPrivate = true :=
      fun e he => hprivate e (List.mem_append_left _ he)
    have hlogged := logged_run hstart settings cache hearlier
    have hlast := (LastBusy.start settings cache (.live w₀)).run hturn.1
    rw [attempts, observed_concat, List.map_append, List.pairwise_append]
    refine ⟨ih hearlier hturn.1, ?_, ?_⟩
    · cases attempt? ((start settings cache (.live w₀)).run events) e with
      | none => exact List.Pairwise.nil
      | some a => exact List.pairwise_singleton _ _
    · intro k hk n hn
      obtain ⟨b, hb, rfl⟩ := List.mem_map.1 hk
      obtain ⟨a, ha, rfl⟩ := List.mem_map.1 hn
      refine client_lt_of_attempt hlogged hlast (Option.mem_toList.1 ha) (b := b.toAppend) ?_
      rw [appends_eq]
      exact List.mem_map_of_mem hb

theorem recorded_in_turn {config : Ledger.Config} {time eventTime : Instant} {micros : Nat}
    {w₀ : Writer} (hstart : Writer.start config time eventTime micros = .ok w₀)
    {settings : Settings} {cache : CacheConfig} {events : List Event}
    (hprivate : ∀ e ∈ events, e.isPrivate = true)
    (hcalls : ∀ client ∈ ((start settings cache (.live w₀)).run events).clients,
      client.call.isDone = true)
    (hwaits : ((start settings cache (.live w₀)).run events).waits = [])
    (hturn : Along InTurn (start settings cache (.live w₀)) events) :
    ∃ recorded : List (Nat × Ledger.Transaction),
      ((start settings cache (.live w₀)).run events).service.snapshot.later.map
          Ledger.Block.transaction = recorded.map Prod.snd ∧
        (recorded.map Prod.fst).Pairwise (· < ·) ∧
        ∀ e ∈ recorded, ((start settings cache (.live w₀)).run events).IsEvent e.1 e.2 := by
  have h := logged_run hstart settings cache hprivate
  have hevents := h.isEvent (follows_run settings cache (.live w₀) events) hcalls
  let kept := (verdicts (start settings cache (.live w₀)) events).filter Verdict.isSealed
  refine ⟨kept.map fun v => (v.client, v.event), ?_, ?_, ?_⟩
  · rw [verdicts_carried hstart hprivate hwaits, List.map_map]
    rfl
  · have hascending := attempts_in_turn hstart settings cache hprivate hturn
    have hsame : (verdicts (start settings cache (.live w₀)) events).map Verdict.client =
        (attempts (start settings cache (.live w₀)) events).map (·.client) := by
      rw [verdicts, List.map_map]
      rfl
    rw [← hsame] at hascending
    rw [List.map_map]
    exact hascending.sublist (List.filter_sublist.map Verdict.client)
  · intro e he
    obtain ⟨v, hv, rfl⟩ := List.mem_map.1 he
    obtain ⟨a, ha, rfl⟩ := List.mem_map.1 (List.mem_filter.1 hv).1
    refine hevents a.toAppend ?_
    rw [appends_eq]
    exact List.mem_map_of_mem ha

end Traffic

end AuditedPetitions
