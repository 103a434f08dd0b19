import AuditedPetitions.Proofs.Ledger.WriterSteps
import Mathlib

/-! The protocol of the mailbox, for every run from a started ledger. The requests that took a place
in the mailbox and the appends that the writer has processed are read off the run; at every moment
the processed appends are the first places, the chain holds the blocks of those whose search found
one, and the replies are theirs. The invariant has two halves: one ties the chain and the present
work to the processed appends, the other ties the places and the answers to them. -/

namespace AuditedPetitions.Ledger

def Request.isAppend : Request → Bool
  | .append _ _ => true
  | .shutdown _ => false

namespace Work

/-- Request that the writer is busy with. -/
def requests : Work → List Request
  | .idle => []
  | .searching ticket template => [.append ticket template.transaction]
  | .found ticket result _ => [.append ticket result.block.transaction]

end Work

/-- Append that the writer has processed, and what its search came to. -/
structure Processed where
  ticket : Nat
  transaction : Transaction
  sealing : Except Error Block

namespace Processed

def request (p : Processed) : Request := .append p.ticket p.transaction

/-- Ticket and block of an append whose search found one. -/
def entry? (p : Processed) : Option (Nat × Block) := p.sealing.toOption.map (p.ticket, ·)

end Processed

/-- What the chain holds for the processed appends, as long as there is an index for it. -/
def entries (done : List Processed) : List (Nat × Block) :=
  (done.filterMap Processed.entry?).take (UInt64.size - 1)

theorem entries_concat_error {done : List Processed} {p : Processed} (h : p.entry? = none) :
    entries (done ++ [p]) = entries done := by
  simp [entries, List.filterMap_append, h]

theorem entries_concat_ok {done : List Processed} {p : Processed} {e : Nat × Block}
    (h : p.entry? = some e) (hroom : (entries done).length < UInt64.size - 1) :
    entries (done ++ [p]) = entries done ++ [e] := by
  rw [entries, List.length_take] at hroom
  have hlt : (done.filterMap Processed.entry?).length + 1 ≤ UInt64.size - 1 := by omega
  have hall : (done.filterMap Processed.entry?).length ≤ UInt64.size - 1 := by omega
  simp only [entries, List.filterMap_append, List.filterMap_cons, List.filterMap_nil, h]
  rw [List.take_of_length_le hall, List.take_of_length_le (by simpa using hlt)]

theorem entries_concat_full {done : List Processed} (p : Processed)
    (hfull : (entries done).length = UInt64.size - 1) :
    entries (done ++ [p]) = entries done := by
  rw [entries, List.length_take] at hfull
  have hle : UInt64.size - 1 ≤ (done.filterMap Processed.entry?).length := by omega
  rw [entries, List.filterMap_append, List.take_append_of_le_length hle, entries]

namespace Writer

/-- What a search comes to. -/
def searched (template : Template) (aborted : Bool) : Except Error Sealed :=
  if aborted then .error (.sealing .aborted) else template.findSeal

/-- Request that takes a place in the mailbox with an action. -/
def posted? (w : Writer) : Action → Option Request
  | .submit t => if w.running then some (.append w.nextTicket t) else none
  | .shutdown => if w.running then some (.shutdown w.nextTicket) else none
  | _ => none

/-- Append that is over with an action: its search failed, or the writer has tried to push the
block. -/
def processed? (w : Writer) : Action → Option Processed
  | .search aborted _ =>
    match w.work with
    | .searching ticket template =>
      match searched template aborted with
      | .error e => some ⟨ticket, template.transaction, .error e⟩
      | .ok _ => none
    | _ => none
  | .push =>
    match w.work with
    | .found ticket result _ => some ⟨ticket, result.block.transaction, .ok result.block⟩
    | _ => none
  | _ => none

/-- What the actions of a run are seen to do, in order. -/
def observed {α : Type} (see : Writer → Action → Option α) : Writer → List Action → List α
  | _, [] => []
  | w, a :: actions => (see w a).toList ++ observed see (w.step a) actions

/-- Places of the mailbox, in the order in which they were taken. -/
def queue (w : Writer) (actions : List Action) : List Request := observed posted? w actions

/-- Appends that were processed, in order. -/
def processed (w : Writer) (actions : List Action) : List Processed := observed processed? w actions

theorem observed_append {α : Type} (see : Writer → Action → Option α) (w : Writer)
    (xs ys : List Action) :
    observed see w (xs ++ ys) = observed see w xs ++ observed see (w.run xs) ys := by
  induction xs generalizing w with
  | nil => rfl
  | cons a xs ih => simp [observed, ih, run]

/-- The chain holds the blocks of the processed appends, and the work is on its tail. -/
structure Linked (genesis : Block) (c : Chain) (work : Work) (done : List Processed) : Prop where
  genesis_eq : c.genesis = genesis
  later_eq : c.later = (entries done).map Prod.snd
  tail_index : c.tail.index.toNat = c.later.length
  searching : ∀ k t, work = .searching k t → ∃ transaction now, t = c.nextTemplate transaction now
  found : ∀ k r m, work = .found k r m → ∃ transaction now nonce,
    r.block = (c.nextTemplate transaction now).proved nonce ∧ r.block.isSealed = true
  transaction_eq : ∀ p ∈ done, ∀ b, p.sealing = .ok b → b.transaction = p.transaction

/-- The processed appends are the first places, each ticket is answered once, and a writer that has
stopped has dropped the places behind its shutdown. The answers are those to processed appends, the
latest first. -/
structure Orderly (w : Writer) (places : List Request) (done : List Processed)
    (answers : List (Nat × Reply)) : Prop where
  tickets : places.map Request.ticket = List.range w.nextTicket
  answered : answers.map Prod.fst = (done.map Processed.ticket).reverse
  sealed_iff : ∀ k b, (k, .sealed b) ∈ answers ↔ (k, b) ∈ entries done
  unstopped : ∀ k, (k, .stopped) ∉ answers
  open_places : w.running = true →
    places = done.map Processed.request ++ (w.work.requests ++ w.mailbox) ∧ w.Left answers
  closed_places : w.running = false → w.work = .idle ∧ w.mailbox = [] ∧ ∃ k behind,
    places = done.map Processed.request ++ .shutdown k :: behind ∧
      w.Left (drops behind ++ (k, .stopped) :: answers)

namespace Linked

variable {genesis : Block} {c : Chain} {work : Work} {done : List Processed}

theorem length_entries (h : Linked genesis c work done) :
    (entries done).length = c.tail.index.toNat := by
  rw [h.tail_index, h.later_eq, List.length_map]

theorem receive (h : Linked genesis c .idle done) (k : Nat) (t : Transaction) (now : Instant) :
    Linked genesis c (.searching k (c.nextTemplate t now)) done :=
  { h with
    searching := by
      intro j template hwork
      cases hwork
      exact ⟨t, now, rfl⟩
    found := by
      intro j r m hwork
      cases hwork }

theorem search_ok {k : Nat} {template : Template} {aborted : Bool} {result : Sealed}
    (h : Linked genesis c (.searching k template) done)
    (hs : searched template aborted = .ok result) (micros : Nat) :
    Linked genesis c (.found k result micros) done ∧
      result.block.transaction = template.transaction := by
  obtain ⟨t, now, htemplate⟩ := h.searching k template rfl
  have hfind : template.findSeal = .ok result := by
    unfold searched at hs
    split at hs
    · cases hs
    · exact hs
  obtain ⟨nonce, hblock, hsealed⟩ := Template.findSeal_eq_ok hfind
  refine ⟨{ h with searching := ?_, found := ?_ }, by rw [hblock, Template.transaction_proved]⟩
  · intro j u hwork
    cases hwork
  · intro j r m hwork
    cases hwork
    exact ⟨t, now, nonce, by rw [hblock, htemplate], hsealed⟩

theorem transaction_concat {p : Processed} (h : Linked genesis c work done)
    (hp : ∀ b, p.sealing = .ok b → b.transaction = p.transaction) :
    ∀ q ∈ done ++ [p], ∀ b, q.sealing = .ok b → b.transaction = q.transaction := by
  intro q hq
  rcases List.mem_append.1 hq with hq | hq
  · exact h.transaction_eq q hq
  · rw [List.mem_singleton.1 hq]
    exact hp

theorem idle_concat {p : Processed} (h : Linked genesis c work done)
    (hentries : entries (done ++ [p]) = entries done)
    (hp : ∀ b, p.sealing = .ok b → b.transaction = p.transaction) :
    Linked genesis c .idle (done ++ [p]) where
  genesis_eq := h.genesis_eq
  later_eq := by rw [hentries, h.later_eq]
  tail_index := h.tail_index
  searching := by
    intro j t hwork
    cases hwork
  found := by
    intro j r m hwork
    cases hwork
  transaction_eq := h.transaction_concat hp

theorem push {k : Nat} {result : Sealed} {micros : Nat}
    (h : Linked genesis c (.found k result micros) done) :
    let p : Processed := ⟨k, result.block.transaction, .ok result.block⟩
    (∃ d, c.push result.block = .ok d ∧ Linked genesis d .idle (done ++ [p]) ∧
        entries (done ++ [p]) = entries done ++ [(k, result.block)]) ∨
      ∃ e, c.push result.block = .error e ∧ Linked genesis c .idle (done ++ [p]) ∧
        entries (done ++ [p]) = entries done := by
  intro p
  have hlength := h.length_entries
  have hlt := c.tail.index.toNat_lt_size
  obtain ⟨t, now, nonce, hblock, hsealed⟩ := h.found k result micros rfl
  have hp : ∀ b, p.sealing = .ok b → b.transaction = p.transaction := by
    intro b hb
    cases hb
    rfl
  by_cases hroom : c.tail.index.toNat + 1 < UInt64.size
  · left
    have hentries : entries (done ++ [p]) = entries done ++ [(k, result.block)] :=
      entries_concat_ok rfl (by omega)
    have hpush : c.push result.block = .ok ⟨c.genesis, c.later ++ [result.block]⟩ := by
      rw [hblock]
      exact Chain.push_proved hroom (hblock ▸ hsealed)
    have hindex : result.block.index.toNat = c.tail.index.toNat + 1 := by
      rw [hblock]
      exact Chain.toNat_index_next t now hroom
    refine ⟨_, hpush, ?_, hentries⟩
    exact {
      genesis_eq := h.genesis_eq
      later_eq := by simp [hentries, h.later_eq]
      tail_index := by
        rw [Chain.tail_concat, hindex, h.tail_index, List.length_append]
        rfl
      searching := by
        intro j u hwork
        cases hwork
      found := by
        intro j r m hwork
        cases hwork
      transaction_eq := h.transaction_concat hp }
  · right
    obtain ⟨e, hpush⟩ := Chain.push_full (c := c) (b := result.block) (by omega)
    have hentries : entries (done ++ [p]) = entries done := entries_concat_full p (by omega)
    exact ⟨e, hpush, h.idle_concat hentries hp, hentries⟩

end Linked

namespace Orderly

variable {w : Writer} {places : List Request} {done : List Processed} {answers : List (Nat × Reply)}

theorem running_of_busy (h : Orderly w places done answers) (hbusy : w.work ≠ .idle) :
    w.running = true := by
  cases hrun : w.running with
  | true => rfl
  | false => exact absurd (h.closed_places hrun).1 hbusy

theorem post (h : Orderly w places done answers) (hrun : w.running = true)
    {request : Nat → Request} (hticket : (request w.nextTicket).ticket = w.nextTicket) :
    Orderly (w.post request) (places ++ [request w.nextTicket]) done answers where
  tickets := by
    rw [List.map_append, h.tickets, List.map_singleton, hticket]
    exact List.range_succ.symm
  answered := h.answered
  sealed_iff := h.sealed_iff
  unstopped := h.unstopped
  open_places _ := by
    obtain ⟨hplaces, hleft⟩ := h.open_places hrun
    exact ⟨by simp [hplaces, Writer.post], hleft⟩
  closed_places hstop := absurd (hrun.symm.trans hstop) (by decide)

theorem forget (h : Orderly w places done answers) (k : Nat) :
    Orderly (w.step (.forget k)) places done answers where
  tickets := h.tickets
  answered := h.answered
  sealed_iff := h.sealed_iff
  unstopped := h.unstopped
  open_places hrun := ⟨(h.open_places hrun).1, (h.open_places hrun).2.forget k⟩
  closed_places hstop := by
    obtain ⟨hwork, hmailbox, j, behind, hplaces, hleft⟩ := h.closed_places hstop
    exact ⟨hwork, hmailbox, j, behind, hplaces, hleft.forget k⟩

theorem rework {v : Writer} (h : Orderly w places done answers) (hrun : w.running = true)
    (hsame : v.work.requests ++ v.mailbox = w.work.requests ++ w.mailbox)
    (hv : v.running = w.running ∧ v.nextTicket = w.nextTicket ∧ v.forgotten = w.forgotten ∧
      v.replies = w.replies) : Orderly v places done answers where
  tickets := by rw [hv.2.1, h.tickets]
  answered := h.answered
  sealed_iff := h.sealed_iff
  unstopped := h.unstopped
  open_places _ := by
    obtain ⟨hplaces, hleft⟩ := h.open_places hrun
    exact ⟨by rw [hsame, hplaces], by rw [Left, hv.2.2.1, hv.2.2.2, hleft]⟩
  closed_places hstop := absurd (hrun.symm.trans (hv.1.symm.trans hstop)) (by decide)

theorem finish {v : Writer} {p : Processed} {r : Reply} (h : Orderly w places done answers)
    (hrun : w.running = true) (hbusy : w.work.requests = [p.request])
    (hidle : v.work = .idle) (hv : v.mailbox = w.mailbox ∧ v.running = w.running ∧
      v.nextTicket = w.nextTicket ∧ v.forgotten = w.forgotten ∧ v.replies = w.replies)
    (hr : r ≠ .stopped)
    (hsealed : ∀ k b, (k, .sealed b) ∈ (p.ticket, r) :: answers ↔ (k, b) ∈ entries (done ++ [p])) :
    Orderly (v.answer p.ticket r) places (done ++ [p]) ((p.ticket, r) :: answers) where
  tickets := by rw [nextTicket_answer, hv.2.2.1, h.tickets]
  answered := by simp [h.answered]
  sealed_iff := hsealed
  unstopped k hk := by
    rcases List.mem_cons.1 hk with hk | hk
    · exact hr (congrArg Prod.snd hk).symm
    · exact h.unstopped k hk
  open_places _ := by
    obtain ⟨hplaces, hleft⟩ := h.open_places hrun
    refine ⟨?_, ?_⟩
    · rw [work_answer, mailbox_answer, hidle, hv.1, hplaces, hbusy]
      simp [Work.requests]
    · have hv' : v.Left answers := by rw [Left, hv.2.2.2.1, hv.2.2.2.2, hleft]
      exact hv'.answer p.ticket r
  closed_places hstop := by
    rw [running_answer, hv.2.1, hrun] at hstop
    cases hstop

theorem stop {k : Nat} {behind : List Request} (h : Orderly w places done answers)
    (hrun : w.running = true) (hidle : w.work = .idle)
    (hmailbox : w.mailbox = .shutdown k :: behind) :
    Orderly (dropAll behind ({ w with mailbox := [], running := false }.answer k .stopped)) places
      done answers := by
  obtain ⟨hplaces, hleft⟩ := h.open_places hrun
  have hclosed : Writer.Left { w with mailbox := [], running := false } answers := hleft
  have hframe := dropAll_frame behind
    (answer { w with mailbox := [], running := false } k .stopped)
  have hstopped : (dropAll behind
      (answer { w with mailbox := [], running := false } k .stopped)).running = false := by
    rw [hframe.2.2.1, running_answer]
  exact {
    tickets := by rw [hframe.2.2.2, nextTicket_answer, h.tickets]
    answered := h.answered
    sealed_iff := h.sealed_iff
    unstopped := h.unstopped
    open_places := fun hopen => absurd (hopen.symm.trans hstopped) (by decide)
    closed_places := by
      intro _
      refine ⟨by rw [hframe.2.1, work_answer, hidle], by rw [mailbox_dropAll, mailbox_answer], k,
        behind, ?_, (hclosed.answer k .stopped).dropAll behind⟩
      rw [hplaces, hidle, hmailbox]
      rfl }

end Orderly

theorem orderly_step {genesis : Block} {w : Writer} {places : List Request}
    {done : List Processed} {answers : List (Nat × Reply)}
    (hl : Linked genesis w.chain w.work done) (ho : Orderly w places done answers) (a : Action) :
    Linked genesis (w.step a).chain (w.step a).work (done ++ (processed? w a).toList) ∧
      ∃ answers, Orderly (w.step a) (places ++ (posted? w a).toList)
        (done ++ (processed? w a).toList) answers := by
  cases a with
  | submit t =>
    simp only [step, posted?, processed?, Option.toList_none, List.append_nil]
    split
    · rename_i hrun
      exact ⟨hl, answers, ho.post hrun rfl⟩
    · exact ⟨hl, answers, by simpa using ho⟩
  | shutdown =>
    simp only [step, posted?, processed?, Option.toList_none, List.append_nil]
    split
    · rename_i hrun
      exact ⟨hl, answers, ho.post hrun rfl⟩
    · exact ⟨hl, answers, by simpa using ho⟩
  | forget k =>
    simp only [posted?, processed?, Option.toList_none, List.append_nil]
    exact ⟨hl, answers, ho.forget k⟩
  | receive now =>
    simp only [step, posted?, processed?, Option.toList_none, List.append_nil, receive]
    split
    · rename_i k t rest hrun hidle hmailbox
      rw [hidle] at hl
      refine ⟨hl.receive k t now, answers, ho.rework hrun ?_ ⟨rfl, rfl, rfl, rfl⟩⟩
      simp [hidle, hmailbox, Work.requests, Chain.nextTemplate]
    · rename_i k behind hrun hidle hmailbox
      have hframe := dropAll_frame behind
        (answer { w with mailbox := [], running := false } k .stopped)
      rw [hframe.1, hframe.2.1, chain_answer, work_answer]
      exact ⟨hl, answers, ho.stop hrun hidle hmailbox⟩
    · exact ⟨hl, answers, ho⟩
  | search aborted micros =>
    have hsearch : w.step (.search aborted micros) = w.search aborted micros := rfl
    simp only [hsearch, posted?, processed?, Option.toList_none, List.append_nil, search]
    cases hwork : w.work with
    | searching k template =>
      rw [hwork] at hl
      have hrun := ho.running_of_busy (by simp [hwork])
      have hsearched : (if aborted then .error (.sealing .aborted) else template.findSeal) =
          searched template aborted := rfl
      simp only [hsearched]
      cases hs : searched template aborted with
      | ok result =>
        obtain ⟨hfound, htransaction⟩ := hl.search_ok hs micros
        simp only [Option.toList_none, List.append_nil]
        refine ⟨hfound, answers, ho.rework hrun ?_ ⟨rfl, rfl, rfl, rfl⟩⟩
        simp [hwork, Work.requests, htransaction]
      | error e =>
        simp only [Option.toList_some, chain_answer, work_answer]
        have hentries : entries (done ++ [⟨k, template.transaction, .error e⟩]) = entries done :=
          entries_concat_error rfl
        refine ⟨hl.idle_concat hentries (by simp), _,
          ho.finish (p := ⟨k, template.transaction, .error e⟩) (r := .failed e) hrun
            (by rw [hwork]; rfl) rfl ⟨rfl, rfl, rfl, rfl, rfl⟩ (by simp) ?_⟩
        intro j b
        simp [hentries, ho.sealed_iff]
    | idle => exact ⟨by simpa [hwork] using hl, answers, by simpa [hwork] using ho⟩
    | found k result micros => exact ⟨by simpa [hwork] using hl, answers, by simpa [hwork] using ho⟩
  | push =>
    have hpush : w.step .push = w.push := rfl
    simp only [hpush, posted?, processed?, Option.toList_none, List.append_nil, push]
    cases hwork : w.work with
    | found k result micros =>
      rw [hwork] at hl
      have hrun := ho.running_of_busy (by simp [hwork])
      simp only [Option.toList_some]
      rcases hl.push with ⟨d, hd, hlinked, hentries⟩ | ⟨e, he, hlinked, hentries⟩
      · simp only [hd, chain_answer, work_answer]
        refine ⟨hlinked, _,
          ho.finish (p := ⟨k, result.block.transaction, .ok result.block⟩)
            (r := .sealed result.block) hrun (by rw [hwork]; rfl) rfl ⟨rfl, rfl, rfl, rfl, rfl⟩ (by simp) ?_⟩
        intro j b
        simp [hentries, ho.sealed_iff, or_comm]
      · simp only [he, chain_answer, work_answer]
        refine ⟨hlinked, _,
          ho.finish (p := ⟨k, result.block.transaction, .ok result.block⟩) (r := .failed e) hrun
            (by rw [hwork]; rfl) rfl ⟨rfl, rfl, rfl, rfl, rfl⟩ (by simp) ?_⟩
        intro j b
        simp [hentries, ho.sealed_iff]
    | idle => exact ⟨by simpa [hwork] using hl, answers, by simpa [hwork] using ho⟩
    | searching k template =>
      exact ⟨by simpa [hwork] using hl, answers, by simpa [hwork] using ho⟩

theorem orderly_run {genesis : Block} {w : Writer} {places : List Request}
    {done : List Processed} {answers : List (Nat × Reply)}
    (hl : Linked genesis w.chain w.work done) (ho : Orderly w places done answers)
    (actions : List Action) :
    Linked genesis (w.run actions).chain (w.run actions).work (done ++ processed w actions) ∧
      ∃ answers, Orderly (w.run actions) (places ++ queue w actions)
        (done ++ processed w actions) answers := by
  induction actions generalizing w places done answers with
  | nil =>
    simp only [processed, queue, observed, run, List.foldl_nil, List.append_nil]
    exact ⟨hl, answers, ho⟩
  | cons a actions ih =>
    obtain ⟨hstep, answers, hanswers⟩ := orderly_step hl ho a
    have hrest := ih hstep hanswers
    simpa only [processed, queue, observed, run, List.foldl_cons, List.append_assoc] using hrest

theorem mapError_eq_ok {ε δ α : Type} {x : Except ε α} {f : ε → δ} {a : α} :
    x.mapError f = .ok a ↔ x = .ok a := by
  cases x <;> simp [Except.mapError]

theorem start_eq_ok {config : Config} {now eventTime : Instant} {micros : Nat} {w : Writer}
    (h : start config now eventTime micros = .ok w) :
    ∃ first metrics, w = ⟨⟨first, []⟩, metrics, [], config.mailboxCapacity.toNat, .idle, true, 0,
      [], []⟩ ∧ first.index = 0 ∧ first.difficulty = config.difficulty := by
  rw [start, Outcome.bind_eq_ok] at h
  obtain ⟨-, -, h⟩ := h
  simp only [Outcome.bind_eq_ok] at h
  obtain ⟨first, hfirst, chain, hchain, h⟩ := h
  have hgenesis : Chain.ofGenesis first.block = .ok chain := mapError_eq_ok.1 hchain
  obtain ⟨nonce, hblock, -⟩ := Template.findSeal_eq_ok (mapError_eq_ok.1 hfirst)
  have hchain : chain = ⟨first.block, []⟩ := by
    unfold Chain.ofGenesis at hgenesis
    split at hgenesis
    · cases hgenesis
    · split at hgenesis
      · cases hgenesis
      · exact (Except.ok.inj hgenesis).symm
  split at h
  · cases h
  · cases h
    rw [hchain, hblock]
    exact ⟨_, _, rfl, rfl, rfl⟩

theorem orderly_start {config : Config} {now eventTime : Instant} {micros : Nat} {w : Writer}
    (h : start config now eventTime micros = .ok w) :
    Linked w.chain.genesis w.chain w.work [] ∧ Orderly w [] [] [] := by
  obtain ⟨first, metrics, rfl, hindex, -⟩ := start_eq_ok h
  refine ⟨?_, ?_⟩
  · exact {
      genesis_eq := rfl
      later_eq := rfl
      tail_index := congrArg UInt64.toNat hindex
      searching := by
        intro k t hwork
        cases hwork
      found := by
        intro k r m hwork
        cases hwork
      transaction_eq := by
        intro p hp
        cases hp }
  · exact {
      tickets := rfl
      answered := rfl
      sealed_iff := by
        intro k b
        simp [entries]
      unstopped := by simp
      open_places := fun _ => ⟨rfl, rfl⟩
      closed_places := by
        intro hstop
        cases hstop }

theorem running_step {w : Writer} (h : w.running = false) (a : Action) :
    (w.step a).running = false := by
  cases a with
  | submit t => simp [step, h]
  | shutdown => simp [step, h]
  | forget k => exact h
  | receive now => simp [step, receive, h]
  | search aborted micros =>
    simp only [step, search]
    split
    · split <;> simp [h]
    · exact h
  | push =>
    simp only [step, push]
    split
    · split <;> simp [h]
    · exact h

theorem running_run {w : Writer} (h : w.running = false) (actions : List Action) :
    (w.run actions).running = false := by
  induction actions generalizing w with
  | nil => exact h
  | cons a actions ih => exact ih (running_step h a)

theorem exists_quiet_run (stop : Writer → Bool) (now : Instant) (n : Nat) (w : Writer) :
    ∃ actions, advanceUntil stop now n w = w.run actions ∧ queue w actions = [] := by
  induction n generalizing w with
  | zero => exact ⟨[], rfl, rfl⟩
  | succ n ih =>
    rw [advanceUntil]
    split
    · exact ⟨[], rfl, rfl⟩
    · obtain ⟨actions, hrun, hqueue⟩ := ih (w.advance now)
      refine ⟨turn now ++ actions, by rw [hrun, run_append, advance], ?_⟩
      have hturn : queue w (turn now) = [] := rfl
      rw [queue, observed_append, ← queue, hturn]
      exact hqueue

theorem all_append (done : List Processed) :
    ∀ r ∈ done.map Processed.request, r.isAppend = true := by
  intro r hr
  obtain ⟨p, -, rfl⟩ := List.mem_map.1 hr
  rfl

theorem Work.all_append (work : Work) : ∀ r ∈ work.requests, r.isAppend = true := by
  cases work <;> simp [Work.requests, Request.isAppend]

namespace Orderly

variable {w : Writer} {places : List Request} {done : List Processed} {answers : List (Nat × Reply)}

theorem ahead (h : Orderly w places done answers) :
    done.map Processed.request <+: places.takeWhile Request.isAppend := by
  have hsplit : ∃ rest, places = done.map Processed.request ++ rest := by
    cases hrun : w.running with
    | true => exact ⟨_, (h.open_places hrun).1⟩
    | false =>
      obtain ⟨-, -, k, behind, hplaces, -⟩ := h.closed_places hrun
      exact ⟨_, hplaces⟩
  obtain ⟨rest, rfl⟩ := hsplit
  rw [List.takeWhile_append_of_pos (all_append done)]
  exact List.prefix_append _ _

theorem exists_left (h : Orderly w places done answers) :
    ∃ all, w.Left all ∧ (all.map Prod.fst).Nodup ∧
      (∀ k b, (k, .sealed b) ∈ all ↔ (k, b) ∈ entries done) ∧
      (∀ k, (k, .stopped) ∈ all → w.running = false) ∧
      (w.running = false → places.takeWhile Request.isAppend = done.map Processed.request ∧
        ∀ k t, .append k t ∈ places.dropWhile Request.isAppend →
          (k, .failed (.concurrency .droppedReply)) ∈ all) := by
  have hrange := List.nodup_range (n := w.nextTicket)
  rw [← h.tickets] at hrange
  have hfst : (done.map Processed.request).map Request.ticket = done.map Processed.ticket := by
    simp [Processed.request, Request.ticket, Function.comp_def]
  cases hrun : w.running with
  | true =>
    obtain ⟨hplaces, hleft⟩ := h.open_places hrun
    refine ⟨answers, hleft, ?_, h.sealed_iff, fun k hk => absurd hk (h.unstopped k), nofun⟩
    rw [hplaces, List.map_append, hfst] at hrange
    rw [h.answered, List.nodup_reverse]
    exact (List.nodup_append.1 hrange).1
  | false =>
    obtain ⟨-, -, k, behind, hplaces, hleft⟩ := h.closed_places hrun
    refine ⟨drops behind ++ (k, .stopped) :: answers, hleft, ?_, ?_, fun _ _ => rfl, ?_⟩
    · have hall : (drops behind ++ (k, .stopped) :: answers).map Prod.fst =
          (places.map Request.ticket).reverse := by
        rw [hplaces, List.map_append (f := Request.ticket), hfst]
        simp [drops, h.answered, Request.ticket, Function.comp_def]
      rw [hall, List.nodup_reverse]
      exact hrange
    · intro j b
      simp [drops, h.sealed_iff]
    · intro _
      have hshutdown : Request.isAppend (.shutdown k) = false := rfl
      rw [hplaces, List.takeWhile_append_of_pos (all_append done),
        List.dropWhile_append_of_pos (all_append done)]
      refine ⟨by simp [hshutdown], ?_⟩
      intro j t hj
      rw [List.dropWhile_cons_of_neg (by simp [hshutdown])] at hj
      have hbehind : .append j t ∈ behind := by simpa using hj
      refine List.mem_append_left _ (List.mem_reverse.2 (List.mem_map.2 ?_))
      exact ⟨_, hbehind, rfl⟩

end Orderly

/-- What holds at the end of a run, and so at every moment of one. -/
structure Protocol (w₀ : Writer) (actions : List Action) : Prop where
  /-- Every message has one place, and places are numbered in mailbox order. -/
  places : (queue w₀ actions).map Request.ticket = List.range (w₀.run actions).nextTicket
  /-- The processed appends are the first places, and none stands behind a shutdown. -/
  in_order : (processed w₀ actions).map Processed.request <+:
    (queue w₀ actions).takeWhile Request.isAppend
  /-- A block carries the transaction of its append. -/
  transaction_eq : ∀ p ∈ processed w₀ actions, ∀ b, p.sealing = .ok b →
    b.transaction = p.transaction
  /-- Behind the first block stand the blocks of the processed appends that were sealed. -/
  blocks_eq : (w₀.run actions).chain.blocks =
    w₀.chain.blocks ++ (entries (processed w₀ actions)).map Prod.snd
  /-- A waiter has a block exactly if it is the one that the chain holds for its append. -/
  sealed_reply : ∀ k b, (w₀.run actions).reply? k = some (.sealed b) ↔
    k ∉ (w₀.run actions).forgotten ∧ (k, b) ∈ entries (processed w₀ actions)
  /-- A shutdown is acknowledged by a writer that has stopped. -/
  acknowledged : ∀ k, (w₀.run actions).reply? k = some .stopped →
    (w₀.run actions).running = false
  /-- Then every append ahead of the first shutdown has been processed. -/
  ahead : (w₀.run actions).running = false →
    (queue w₀ actions).takeWhile Request.isAppend = (processed w₀ actions).map Processed.request
  /-- The appends behind it are lost, and their waiters are told so. -/
  behind : (w₀.run actions).running = false → ∀ k t,
    .append k t ∈ (queue w₀ actions).dropWhile Request.isAppend →
    k ∉ (w₀.run actions).forgotten →
    (w₀.run actions).reply? k = some (.failed (.concurrency .droppedReply))
  /-- The writer comes to a shutdown that is in the mailbox. -/
  stops : ∀ k, .shutdown k ∈ queue w₀ actions → ∀ now,
    ((w₀.run actions).drain now).running = false
  /-- Giving up a wait at any point of the run changes no block and no other reply. -/
  forgotten : ∀ xs ys k, actions = xs ++ ys →
    (w₀.run (xs ++ .forget k :: ys)).chain = (w₀.run actions).chain ∧
      ∀ j, j ≠ k → (w₀.run (xs ++ .forget k :: ys)).reply? j = (w₀.run actions).reply? j
  /-- A writer that has stopped refuses every later message. -/
  refused : (w₀.run actions).running = false → ∀ later t,
    ((w₀.run actions).run later).submit t = .error (.concurrency .stopped) ∧
      ((w₀.run actions).run later).shutdown = .error (.concurrency .stopped)

theorem drain_stops {genesis : Block} {w : Writer} {places : List Request}
    {done : List Processed} {answers : List (Nat × Reply)}
    (hl : Linked genesis w.chain w.work done) (ho : Orderly w places done answers) {k : Nat}
    (hk : .shutdown k ∈ places) (now : Instant) : (w.drain now).running = false := by
  obtain ⟨actions, hrun, hqueue⟩ := exists_quiet_run (fun _ => false) now (w.mailbox.length + 1) w
  have hdrain : w.drain now = w.run actions := hrun
  cases hw : w.running with
  | false =>
    rw [hdrain]
    exact running_run hw actions
  | true =>
    have hempty := w.mailbox_drain now hw
    obtain ⟨-, answers, hend⟩ := orderly_run hl ho actions
    rw [hqueue, List.append_nil] at hend
    rw [hdrain] at hempty ⊢
    cases hstop : (w.run actions).running with
    | false => rfl
    | true =>
      -- A running writer with an empty mailbox has only appends behind it.
      obtain ⟨hplaces, -⟩ := hend.open_places hstop
      rw [hplaces, hempty, List.append_nil, List.mem_append] at hk
      rcases hk with hk | hk
      · exact absurd (all_append _ _ hk) Bool.false_ne_true
      · exact absurd (Work.all_append _ _ hk) Bool.false_ne_true

theorem run_protocol {config : Config} {now eventTime : Instant} {micros : Nat} {w₀ : Writer}
    (h : start config now eventTime micros = .ok w₀) (actions : List Action) :
    Protocol w₀ actions := by
  obtain ⟨hl₀, ho₀⟩ := orderly_start h
  obtain ⟨hl, answers, ho⟩ := orderly_run hl₀ ho₀ actions
  simp only [List.nil_append] at hl ho
  obtain ⟨all, hleft, hnodup, hsealed, hstopped, hlost⟩ := ho.exists_left
  exact {
    places := ho.tickets
    in_order := ho.ahead
    transaction_eq := hl.transaction_eq
    blocks_eq := by
      have hlater : w₀.chain.later = [] := hl₀.later_eq
      simp only [Chain.blocks, hl.genesis_eq, hl.later_eq, hlater, List.singleton_append]
    sealed_reply := by
      intro k b
      rw [reply?_iff hleft hnodup, hsealed]
    acknowledged := by
      intro k hk
      exact hstopped k ((reply?_iff hleft hnodup k .stopped).1 hk).2
    ahead := fun hrun => (hlost hrun).1
    behind := by
      intro hrun k t hk hforgotten
      exact (reply?_iff hleft hnodup k _).2 ⟨hforgotten, (hlost hrun).2 k t hk⟩
    stops := fun k hk now => drain_stops hl ho hk now
    forgotten := by
      rintro xs ys k rfl
      have halike := (Alike.forget_self (w₀.run xs) k).run ys
      have hforget : w₀.run (xs ++ .forget k :: ys) = ((w₀.run xs).step (.forget k)).run ys :=
        run_append w₀ xs (.forget k :: ys)
      rw [hforget, run_append]
      exact ⟨halike.chain, fun j hj => halike.reply? hj⟩
    refused := by
      intro hrun later t
      have hstop := running_run hrun later
      simp [submit, shutdown, hstop] }

theorem start_zero {capacity : UInt64} (description : String) (now eventTime : Instant)
    (micros : Nat) (hpositive : capacity ≠ 0) (hcount : ¬ maxCapacity < capacity) :
    start ⟨0, capacity, description⟩ now eventTime micros =
      .ok ⟨⟨(Template.genesis 0 description now eventTime).proved 0, []⟩,
        Metrics.zero.recordSealed (UInt64.ofNat 1) micros, [], capacity.toNat, .idle, true, 0, [],
        []⟩ := by
  have hvalid : Config.validate ⟨0, capacity, description⟩ = .ok () := by
    have hdifficulty : ¬ maxDifficulty < 0 := by decide
    simp only [Config.validate, if_neg hdifficulty, if_neg hpositive]
  have hfind := Template.findSeal_zero (t := Template.genesis 0 description now eventTime) rfl
  have hgenesis : Chain.ofGenesis ((Template.genesis 0 description now eventTime).proved 0) =
      .ok ⟨(Template.genesis 0 description now eventTime).proved 0, []⟩ :=
    Chain.ofGenesis_proved rfl rfl (Block.meetsDifficulty_zero rfl)
  simp only [start, hvalid, hfind, hgenesis, if_neg hcount, Except.mapError, bind, Except.bind]
  rfl

theorem exists_start_zero {capacity : UInt64} (description : String) (now eventTime : Instant)
    (micros : Nat) (hpositive : capacity ≠ 0) (hcount : ¬ maxCapacity < capacity) :
    ∃ w₀, start ⟨0, capacity, description⟩ now eventTime micros = .ok w₀ :=
  ⟨_, start_zero description now eventTime micros hpositive hcount⟩

/-- Two appends, of which the waiter of the first gives up, and one behind the shutdown. -/
def shutdownRace (t : Transaction) : List Action :=
  [.submit t, .receive default, .submit t, .forget 0, .search true 0, .shutdown, .submit t,
    .receive default, .search false 0, .push, .receive default]

theorem run_protocol_shutdownRace : ∃ w₀, start ⟨0, 16, "Genesis block"⟩ default default 0 = .ok w₀ ∧
    Protocol w₀ (shutdownRace ⟨.voteCast, .null, default, "vote"⟩) := by
  obtain ⟨w₀, h⟩ := exists_start_zero "Genesis block" default default 0
    (by decide : (16 : UInt64) ≠ 0) (by decide)
  exact ⟨w₀, h, run_protocol h _⟩

end Writer

end AuditedPetitions.Ledger
