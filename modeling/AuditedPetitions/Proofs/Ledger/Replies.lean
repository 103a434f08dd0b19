import AuditedPetitions.Proofs.Ledger.Mailbox

/-! Replies to clients that never give up. As long as no wait is given up, the reply to a request is
there to stay, an append is answered with a block or with an error, and the blocks behind the first
one are those in the replies to the appends, in mailbox order. -/

namespace AuditedPetitions.Ledger

def Request.transaction? : Request → Option Transaction
  | .append _ t => some t
  | .shutdown _ => none

theorem Work.idle_of_requests {work : Work} (h : work.requests = []) : work = .idle := by
  cases work with
  | idle => rfl
  | searching k template => cases h
  | found k result micros => cases h

namespace Writer

/-- Whether a wait is given up. -/
def Action.forgets : Action → Bool
  | .forget _ => true
  | _ => false

/-- Block in the reply to a request. -/
def sealed? (w : Writer) (k : Nat) : Option Block :=
  match w.reply? k with
  | some (.sealed b) => some b
  | _ => none

theorem sealed?_eq_some {w : Writer} {k : Nat} {b : Block} :
    w.sealed? k = some b ↔ w.reply? k = some (.sealed b) := by
  unfold sealed?
  split
  · rename_i c hc
    simp [hc]
  · rename_i hne
    refine iff_of_false (by simp) fun hb => hne b hb

/-- Tickets of the requests that the writer has yet to answer. -/
def pending (w : Writer) : List Nat := (w.work.requests ++ w.mailbox).map Request.ticket

theorem reply?_answer_of_ne {w : Writer} {k j : Nat} (h : k ≠ j) (r : Reply) :
    (w.answer j r).reply? k = w.reply? k := by
  unfold answer
  split
  · rfl
  · simp [reply?, Ne.symm h]

theorem reply?_dropAll {rs : List Request} {w : Writer} {k : Nat}
    (h : k ∉ rs.map Request.ticket) : (dropAll rs w).reply? k = w.reply? k := by
  induction rs generalizing w with
  | nil => rfl
  | cons r rs ih =>
    rw [List.map_cons, List.mem_cons, not_or] at h
    rw [dropAll, ih h.2, reply?_answer_of_ne h.1]

theorem reply?_step {w : Writer} {k : Nat} (hk : k ∉ w.pending) {a : Action}
    (ha : a.forgets = false) : (w.step a).reply? k = w.reply? k := by
  cases a with
  | submit t =>
    simp only [step]
    split <;> rfl
  | shutdown =>
    simp only [step]
    split <;> rfl
  | forget j => cases ha
  | receive now =>
    simp only [step, receive]
    split
    · rfl
    · rename_i j behind hrun hidle hmailbox
      simp only [pending, hidle, hmailbox, Work.requests, List.nil_append, List.map_cons,
        List.mem_cons, not_or] at hk
      rw [reply?_dropAll hk.2]
      exact reply?_answer_of_ne hk.1 .stopped
    · rfl
  | search aborted micros =>
    simp only [step, search]
    split
    · rename_i j template hwork
      simp only [pending, hwork, Work.requests, List.singleton_append, List.map_cons,
        List.mem_cons, not_or] at hk
      split
      · rfl
      · exact reply?_answer_of_ne hk.1 _
    · rfl
  | push =>
    simp only [step, push]
    split
    · rename_i j result micros hwork
      simp only [pending, hwork, Work.requests, List.singleton_append, List.map_cons,
        List.mem_cons, not_or] at hk
      split
      · exact reply?_answer_of_ne hk.1 _
      · exact reply?_answer_of_ne hk.1 _
    · rfl

theorem forgotten_dropAll (rs : List Request) (w : Writer) :
    (dropAll rs w).forgotten = w.forgotten := by
  induction rs generalizing w with
  | nil => rfl
  | cons r rs ih => rw [dropAll, ih, forgotten_answer]

theorem forgotten_step (w : Writer) {a : Action} (ha : a.forgets = false) :
    (w.step a).forgotten = w.forgotten := by
  cases a with
  | submit t =>
    simp only [step]
    split <;> rfl
  | shutdown =>
    simp only [step]
    split <;> rfl
  | forget j => cases ha
  | receive now =>
    simp only [step, receive]
    split
    · rfl
    · rw [forgotten_dropAll, forgotten_answer]
    · rfl
  | search aborted micros =>
    simp only [step, search]
    split
    · split <;> simp
    · rfl
  | push =>
    simp only [step, push]
    split
    · split <;> simp
    · rfl

theorem mem_replies {w : Writer} {k : Nat} {r : Reply} (h : w.reply? k = some r) :
    (k, r) ∈ w.replies := by
  obtain ⟨entry, hentry, rfl⟩ := Option.map_eq_some_iff.1 h
  have hkey : entry.1 = k := by simpa using List.find?_some hentry
  rw [← hkey]
  exact List.mem_of_find?_eq_some hentry

namespace Orderly

variable {w : Writer} {places : List Request} {done : List Processed} {answers : List (Nat × Reply)}

theorem not_pending (h : Orderly w places done answers) {k : Nat} {r : Reply}
    (hr : w.reply? k = some r) : k ∉ w.pending := by
  cases hrun : w.running with
  | true =>
    obtain ⟨hplaces, hleft⟩ := h.open_places hrun
    have hanswer : (k, r) ∈ answers := (List.mem_filter.1 (hleft ▸ mem_replies hr)).1
    have hdone : k ∈ (done.map Processed.request).map Request.ticket := by
      have hfst := List.mem_map_of_mem (f := Prod.fst) hanswer
      rw [h.answered, List.mem_reverse] at hfst
      simpa [Processed.request, Request.ticket] using hfst
    have hnodup := List.nodup_range (n := w.nextTicket)
    rw [← h.tickets, hplaces, List.map_append] at hnodup
    exact fun hpending => (List.nodup_append.1 hnodup).2.2 k hdone k hpending rfl
  | false =>
    obtain ⟨hwork, hmailbox, -⟩ := h.closed_places hrun
    simp [pending, hwork, hmailbox, Work.requests]

theorem shutdown_of_stopped (h : Orderly w places done answers) {k : Nat}
    (hr : w.reply? k = some .stopped) : .shutdown k ∈ places := by
  have hreply := mem_replies hr
  cases hrun : w.running with
  | true =>
    obtain ⟨-, hleft⟩ := h.open_places hrun
    exact absurd (List.mem_filter.1 (hleft ▸ hreply)).1 (h.unstopped k)
  | false =>
    obtain ⟨-, -, j, behind, hplaces, hleft⟩ := h.closed_places hrun
    have hanswer := (List.mem_filter.1 (hleft ▸ hreply)).1
    rcases List.mem_append.1 hanswer with hdrop | hrest
    · simp [drops] at hdrop
    · rcases List.mem_cons.1 hrest with hstop | hrest
      · obtain rfl : k = j := congrArg Prod.fst hstop
        rw [hplaces]
        simp
      · exact absurd hrest (h.unstopped k)

theorem place_unique (h : Orderly w places done answers) {r s : Request} (hr : r ∈ places)
    (hs : s ∈ places) (hsame : r.ticket = s.ticket) : r = s := by
  have hnodup := List.nodup_range (n := w.nextTicket)
  rw [← h.tickets] at hnodup
  exact List.inj_on_of_nodup_map hnodup hr hs hsame

end Orderly

section Started

variable {config : Config} {now eventTime : Instant} {micros : Nat} {w₀ : Writer}

theorem exists_orderly (h : start config now eventTime micros = .ok w₀) (actions : List Action) :
    Linked w₀.chain.genesis (w₀.run actions).chain (w₀.run actions).work (processed w₀ actions) ∧
      ∃ answers, Orderly (w₀.run actions) (queue w₀ actions) (processed w₀ actions) answers := by
  obtain ⟨hl, ho⟩ := orderly_start h
  simpa only [List.nil_append] using orderly_run hl ho actions

theorem forgotten_run (h : start config now eventTime micros = .ok w₀) {actions : List Action}
    (hforgets : ∀ a ∈ actions, a.forgets = false) : (w₀.run actions).forgotten = [] := by
  induction actions using List.reverseRecOn with
  | nil =>
    obtain ⟨first, metrics, rfl, -⟩ := start_eq_ok h
    rfl
  | append_singleton actions a ih =>
    have hlast := hforgets a (by simp)
    rw [run_append]
    exact (forgotten_step _ hlast).trans (ih fun b hb => hforgets b (List.mem_append_left _ hb))

theorem reply?_concat (h : start config now eventTime micros = .ok w₀) {actions : List Action}
    {a : Action} (ha : a.forgets = false) {k : Nat} {r : Reply}
    (hr : (w₀.run actions).reply? k = some r) :
    (w₀.run (actions ++ [a])).reply? k = some r := by
  obtain ⟨-, answers, ho⟩ := exists_orderly h actions
  rw [run_append]
  exact (reply?_step (ho.not_pending hr) ha).trans hr

theorem reply?_sealed_iff (h : start config now eventTime micros = .ok w₀) {actions : List Action}
    (hforgets : ∀ a ∈ actions, a.forgets = false) (k : Nat) (b : Block) :
    (w₀.run actions).reply? k = some (.sealed b) ↔ (k, b) ∈ entries (processed w₀ actions) := by
  obtain ⟨-, answers, ho⟩ := exists_orderly h actions
  obtain ⟨all, hleft, hnodup, hsealed, -⟩ := ho.exists_left
  rw [reply?_iff hleft hnodup, hsealed, forgotten_run h hforgets]
  simp

theorem place_of_entry (h : start config now eventTime micros = .ok w₀) {actions : List Action}
    {k : Nat} {b : Block} (hb : (k, b) ∈ entries (processed w₀ actions)) :
    .append k b.transaction ∈ queue w₀ actions := by
  obtain ⟨hl, answers, ho⟩ := exists_orderly h actions
  obtain ⟨p, hp, hentry⟩ := List.mem_filterMap.1 (List.mem_of_mem_take hb)
  obtain ⟨c, hc, hpair⟩ := Option.map_eq_some_iff.1 hentry
  obtain ⟨rfl, rfl⟩ := Prod.ext_iff.1 hpair
  have hsealing : p.sealing = .ok c := by
    cases hs : p.sealing with
    | error e => simp [hs, Except.toOption] at hc
    | ok d => simpa [hs, Except.toOption] using hc
  have hplace := (ho.ahead.trans (List.takeWhile_prefix _)).subset
    (List.mem_map_of_mem (f := Processed.request) hp)
  rwa [Processed.request, ← hl.transaction_eq p hp c hsealing] at hplace

theorem reply_of_append (h : start config now eventTime micros = .ok w₀) {actions : List Action}
    (hforgets : ∀ a ∈ actions, a.forgets = false) {k : Nat} {t : Transaction}
    (hk : .append k t ∈ queue w₀ actions) {r : Reply}
    (hr : (w₀.run actions).reply? k = some r) :
    (∃ b, r = .sealed b ∧ b.transaction = t) ∨ ∃ e, r = .failed e := by
  obtain ⟨-, answers, ho⟩ := exists_orderly h actions
  cases r with
  | failed e => exact .inr ⟨e, rfl⟩
  | sealed b =>
    have hplace := place_of_entry h ((reply?_sealed_iff h hforgets k b).1 hr)
    have hsame := ho.place_unique hplace hk rfl
    exact .inl ⟨b, rfl, (Request.append.inj hsame).2⟩
  | stopped =>
    have hsame := ho.place_unique (ho.shutdown_of_stopped hr) hk rfl
    cases hsame

theorem eq_of_ascending {xs ys : List (Nat × Block)} (hx : (xs.map Prod.fst).Pairwise (· < ·))
    (hy : (ys.map Prod.fst).Pairwise (· < ·)) (hmem : ∀ e, e ∈ xs ↔ e ∈ ys) : xs = ys := by
  rw [List.pairwise_map] at hx hy
  have antisymm : Std.Antisymm fun a b : Nat × Block => a.1 < b.1 :=
    ⟨fun _ _ hab hba => absurd hab (Nat.lt_asymm hba)⟩
  have irrefl : Std.Irrefl fun a b : Nat × Block => a.1 < b.1 := ⟨fun _ => Nat.lt_irrefl _⟩
  exact List.Pairwise.eq_of_mem_iff hx hy hmem

theorem sublist_keys {α : Type} (key : α → Nat) (see : α → Option Block) (l : List α) :
    ((l.filterMap fun a => (see a).map (key a, ·)).map Prod.fst).Sublist (l.map key) := by
  induction l with
  | nil => exact .slnil
  | cons a l ih =>
    cases ha : see a with
    | none => simpa [ha] using ih.cons (key a)
    | some b => simpa [ha] using ih.cons_cons (key a)

theorem later_eq (h : start config now eventTime micros = .ok w₀) {actions : List Action}
    (hforgets : ∀ a ∈ actions, a.forgets = false) :
    (w₀.run actions).chain.later = ((queue w₀ actions).filter Request.isAppend).filterMap
      fun r => (w₀.run actions).sealed? r.ticket := by
  obtain ⟨hl, answers, ho⟩ := exists_orderly h actions
  have hrange : ((queue w₀ actions).map Request.ticket).Pairwise (· < ·) := by
    rw [ho.tickets]
    exact List.pairwise_lt_range
  have hentries : entries (processed w₀ actions) =
      ((queue w₀ actions).filter Request.isAppend).filterMap
        fun r => ((w₀.run actions).sealed? r.ticket).map (r.ticket, ·) := by
    refine eq_of_ascending ?_ ?_ fun e => ?_
    · have hdone : (processed w₀ actions).map Processed.ticket =
          ((processed w₀ actions).map Processed.request).map Request.ticket := by
        simp [Processed.request, Request.ticket]
      have hplaces := (ho.ahead.trans (List.takeWhile_prefix _)).sublist.map Request.ticket
      rw [← hdone] at hplaces
      refine hrange.sublist (List.Sublist.trans ?_ hplaces)
      exact ((List.take_sublist _ _).map _).trans
        (sublist_keys Processed.ticket (·.sealing.toOption) _)
    · exact hrange.sublist ((sublist_keys _ _ _).trans (List.filter_sublist.map _))
    · obtain ⟨k, b⟩ := e
      rw [← reply?_sealed_iff h hforgets, ← sealed?_eq_some]
      constructor
      · intro hb
        have hentry := (reply?_sealed_iff h hforgets k b).1 (sealed?_eq_some.1 hb)
        have hplace := place_of_entry h hentry
        refine List.mem_filterMap.2 ⟨_, List.mem_filter.2 ⟨hplace, rfl⟩, ?_⟩
        simp [Request.ticket, hb]
      · intro hb
        obtain ⟨r, -, hr⟩ := List.mem_filterMap.1 hb
        obtain ⟨c, hc, hpair⟩ := Option.map_eq_some_iff.1 hr
        obtain ⟨rfl, rfl⟩ := Prod.ext_iff.1 hpair
        exact hc
  rw [hl.later_eq, hentries, List.map_filterMap]
  simp [Function.comp_def]

end Started

theorem run_seal {w : Writer} {k : Nat} {t : Transaction} {rest : List Request}
    (hrun : w.running = true) (hidle : w.work = .idle) (hmailbox : w.mailbox = .append k t :: rest)
    (hkept : k ∉ w.forgotten) (hzero : w.chain.difficulty = 0)
    (hroom : w.chain.tail.index.toNat + 1 < UInt64.size) (now : Instant) (micros : Nat) :
    w.run [.receive now, .search false micros, .push] =
      let b := (w.chain.nextTemplate t now).proved 0
      { w with
        chain := ⟨w.chain.genesis, w.chain.later ++ [b]⟩
        metrics := w.metrics.recordSealed (UInt64.ofNat 1) micros
        mailbox := rest
        replies := (k, .sealed b) :: w.replies } := by
  have hfind := Template.findSeal_zero (t := w.chain.nextTemplate t now) hzero
  have hsealed : ((w.chain.nextTemplate t now).proved 0).isSealed = true :=
    (Template.isSealed_proved _ 0).trans (Block.meetsDifficulty_zero hzero)
  have hpush := Chain.push_proved hroom hsealed
  simp only [run, List.foldl_cons, List.foldl_nil, step, receive, hrun, hidle, hmailbox, search,
    Bool.false_eq_true, if_false, hfind, push, hpush, answer, if_neg hkept]

/-- Whether the writer is free for its appends, and has no work to prove. -/
def isReady (w : Writer) : Bool :=
  w.running && w.work.requests.isEmpty && w.mailbox.all Request.isAppend && w.forgotten.isEmpty &&
    w.chain.difficulty = 0 && decide (w.chain.tail.index.toNat + 1 < UInt64.size)

/-- The writer with its oldest append on the chain, found to need no work. -/
def sealFirst (w : Writer) (now : Instant) (micros : Nat) : Writer :=
  match w.mailbox with
  | .append k t :: rest =>
    let b := (w.chain.nextTemplate t now).proved 0
    { w with
      chain := ⟨w.chain.genesis, w.chain.later ++ [b]⟩
      metrics := w.metrics.recordSealed (UInt64.ofNat 1) micros
      mailbox := rest
      replies := (k, .sealed b) :: w.replies }
  | _ => w

theorem run_sealFirst {w : Writer} (h : w.isReady = true) (now : Instant) (micros : Nat) :
    w.run [.receive now, .search false micros, .push] = w.sealFirst now micros := by
  simp only [isReady, Bool.and_eq_true, decide_eq_true_eq, List.isEmpty_iff] at h
  obtain ⟨⟨⟨⟨⟨hrun, hwork⟩, happends⟩, hkept⟩, hzero⟩, hroom⟩ := h
  have hidle := Work.idle_of_requests hwork
  cases hmailbox : w.mailbox with
  | nil => simp [run, step, receive, search, push, sealFirst, hrun, hidle, hmailbox]
  | cons r rest =>
    cases r with
    | shutdown k => simp [hmailbox, Request.isAppend] at happends
    | append k t =>
      rw [run_seal hrun hidle hmailbox (by simp [hkept]) hzero hroom now micros, sealFirst, hmailbox]

theorem run_seals {w : Writer} {requests : List Request} (hrun : w.running = true)
    (hidle : w.work = .idle) (hmailbox : w.mailbox = requests)
    (happends : ∀ r ∈ requests, r.isAppend = true) (hkept : w.forgotten = [])
    (hzero : w.chain.difficulty = 0)
    (hroom : w.chain.tail.index.toNat + requests.length < UInt64.size) (now : Instant)
    (micros : Nat) :
    (w.run (List.replicate requests.length
        [.receive now, .search false micros, .push]).flatten).chain.later.map Block.transaction =
      w.chain.later.map Block.transaction ++ requests.filterMap Request.transaction? := by
  induction requests generalizing w with
  | nil => simp [run]
  | cons r requests ih =>
    cases r with
    | shutdown k => exact absurd (happends _ List.mem_cons_self) Bool.false_ne_true
    | append k t =>
      rw [List.length_cons] at hroom
      have hseal := run_seal hrun hidle hmailbox (by simp [hkept]) hzero (by omega) now micros
      have hindex := Chain.toNat_index_next (c := w.chain) t now (by omega)
      rw [List.length_cons, List.replicate_succ, List.flatten_cons, run_append, hseal]
      let v : Writer := { w with
        chain := ⟨w.chain.genesis, w.chain.later ++ [(w.chain.nextTemplate t now).proved 0]⟩
        metrics := w.metrics.recordSealed (UInt64.ofNat 1) micros
        mailbox := requests
        replies := (k, .sealed ((w.chain.nextTemplate t now).proved 0)) :: w.replies }
      have hbehind : v.chain.tail.index.toNat + requests.length < UInt64.size := by
        rw [Chain.tail_concat, Template.index_proved]
        omega
      refine (@ih v hrun hidle rfl (fun r hr => happends r (List.mem_cons_of_mem _ hr)) hkept hzero
        hbehind).trans ?_
      simp [v, Request.transaction?, Chain.nextTemplate]

end Writer

end AuditedPetitions.Ledger
