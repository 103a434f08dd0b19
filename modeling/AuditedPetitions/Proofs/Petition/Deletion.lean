import AuditedPetitions.Proofs.Petition.Duties

/-! Deletion is final. The mark of a deletion stands in the petition itself, and no write of a call
gets past it: a vote that was admitted before the deletion stages its increment on a live petition
only, so it is refused as a whole. What is invariant from then on is the whole record and the rows
of its votes; that votes are no longer cast is read off the same steps. -/

namespace AuditedPetitions

namespace Store

/-- What the store answers about a petition that it does not show. -/
def absent {α : Type} (s : Store) : Outcome StoreError α :=
  if s.available then refuse .notFound else refuse (.unavailable "memory store switched off")

/-- A petition that is deleted, with the votes that had been cast on it. -/
structure Retired (s : Store) (p : Petition) (votes : List Vote) : Prop where
  found : s.raw p.id = some p
  deleted : p.isDeleted = true
  rows : s.votes.rows.filter (·.petitionId = p.id) = votes

theorem checkAvailable_bind {α : Type} {s : Store} {next : Unit → Outcome StoreError α}
    (h : next () = refuse .notFound) : (s.checkAvailable >>= next) = s.absent := by
  unfold checkAvailable absent
  split
  · exact h
  · rfl

theorem mem_of_mem_window {α : Type} {limit : Option Int64} {offset : Int64} {as : List α} {a : α}
    (h : a ∈ window limit offset as) : a ∈ as := by
  unfold window at h
  split at h
  · exact List.mem_of_mem_drop h
  · split at h
    · exact List.mem_of_mem_drop h
    · exact List.mem_of_mem_drop (List.mem_of_mem_take h)

theorem live_of_mem_list {s : Store} {limit : Option Int64} {offset : Int64} {ps : List Petition}
    (h : s.list limit offset = .ok ps) {q : Petition} (hq : q ∈ ps) :
    s.petitions.live q.id = .ok q := by
  obtain ⟨-, -, h⟩ := Outcome.bind_eq_ok.1 h
  cases h
  have hlisted := List.mem_filter.1 (List.mem_mergeSort.1 (mem_of_mem_window hq))
  exact PetitionTable.live_eq_ok.2 ⟨Table.get?_of_mem hlisted.1, by simpa using hlisted.2⟩

namespace Retired

variable {s s' : Store} {p : Petition} {votes : List Vote}

theorem live_eq (h : s.Retired p votes) : s.petitions.live p.id = refuse .notFound := by
  have hfound : s.petitions.get? p.id = some p := h.found
  simp only [PetitionTable.live, hfound, Option.filter_some, h.deleted, Bool.not_true,
    Bool.false_eq_true, if_false]

theorem ne_of_live (h : s.Retired p votes) {id : Uuid} {q : Petition}
    (live : s.petitions.live id = .ok q) : id ≠ p.id := by
  rintro rfl
  cases h.live_eq.symm.trans live

theorem getById_eq (h : s.Retired p votes) : s.getById p.id = s.absent :=
  checkAvailable_bind h.live_eq

theorem delete_eq (h : s.Retired p votes) (now : Instant) : s.delete p.id now = s.absent :=
  checkAvailable_bind (by rw [h.live_eq]; rfl)

theorem increment_eq (h : s.Retired p votes) (type : VoteType) (now : Instant) :
    s.increment ⟨p.id, type, now⟩ = s.absent :=
  checkAvailable_bind (by rw [h.live_eq]; rfl)

theorem unlisted (h : s.Retired p votes) {limit : Option Int64} {offset : Int64}
    {ps : List Petition} (hlist : s.list limit offset = .ok ps) : ∀ q ∈ ps, q.id ≠ p.id :=
  fun _ hq => h.ne_of_live (live_of_mem_list hlist hq)

theorem seed (h : s.Retired p votes) {q : Petition} (hne : q.id ≠ p.id) :
    (s.seed q).Retired p votes where
  found := by
    have hput := Table.get?_put s.petitions q p.id
    rw [if_neg hne] at hput
    exact hput.trans h.found
  deleted := h.deleted
  rows := h.rows

theorem ofTables (h : s.Retired p votes) (hp : s'.petitions = s.petitions)
    (hv : s'.votes = s.votes) : s'.Retired p votes where
  found := (congrArg (Table.get? · p.id) hp).trans h.found
  deleted := h.deleted
  rows := by rw [hv, h.rows]

theorem withVote (h : s.Retired p votes) {v : Vote} {q : Petition} (now : Instant)
    (unvoted : s.votes.get? v.voterAndPetition = none)
    (live : s.petitions.live v.petitionId = .ok q) : (s.withVote v q now).Retired p votes := by
  have hne := h.ne_of_live live
  have hid : q.id = v.petitionId := Table.key_of_get? (PetitionTable.live_eq_ok.1 live).1
  have hother := h.seed (q := q.withVote v.voteType now) (by rw [q.withVote_id, hid]; exact hne)
  refine ⟨hother.found, h.deleted, ?_⟩
  have hrows : (s.withVote v q now).votes.rows = s.votes.rows ++ [v] :=
    Table.rows_put_of_new unvoted
  rw [hrows, List.filter_append, h.rows]
  simp [hne]

theorem move {call next : Call} (h : s.Retired p votes) (m : StoreMove s call s' next)
    (fresh : ∀ id, call.newId? = some id → s.petitions.get? id = none) :
    s'.Retired p votes ∧
      ∀ v, next.castVote? = some v → v.petitionId = p.id → call.castVote? = some v := by
  cases m with
  | keep cast new => exact ⟨h, fun v hv _ => cast ▸ hv⟩
  | @create request id now effects =>
    have hne : id ≠ p.id := by
      intro he
      have hfound : s.petitions.get? p.id = some p := h.found
      rw [← he, fresh id rfl] at hfound
      cases hfound
    exact ⟨h.seed (q := .ofRequest request id now) hne, fun v hv => nomatch hv⟩
  | @delete id q now effects live =>
    have hid : q.id = id := Table.key_of_get? (PetitionTable.live_eq_ok.1 live).1
    exact ⟨h.seed (hid ▸ h.ne_of_live live), fun v hv => nomatch hv⟩
  | @vote b v q now effects voter petition unvoted live free =>
    refine ⟨h.withVote now unvoted live, fun w hw hpetition => ?_⟩
    cases hw
    exact absurd hpetition (h.ne_of_live live)

end Retired

end Store

theorem Service.Moves.deleted {s s' : Service} {c : Conditions} {call next : Call} {id : Uuid}
    (h : s.Moves c call s' next) (hf : call.Follows (.delete id))
    (hreply : next.reply? = some .deleted) :
    call.reply? = some .deleted ∨ ∃ p, s.store.petitions.live id = .ok p ∧
      s'.store = s.store.seed (p.delete c.now) := by
  cases h with
  | refused h => cases (Call.reply?_failed _).symm.trans hreply
  | written h =>
    cases h with
    | delete answer =>
      cases hf
      obtain ⟨-, p, live, rfl⟩ := Store.delete_eq_ok.1 (Conditions.atStore_eq_ok.1 answer).2
      exact .inr ⟨p, live, rfl⟩
    | create made answer => cases hf
    | vote made answer => cases hf.1
  | passed h => cases h <;> cases hreply
  | ended h => exact .inl ((h.closes hf).2.2.symm.trans hreply)
  | fetched h => cases (h.follows hf).1
  | performed | replied | rest => exact .inl hreply

namespace Traffic

/-- The petition is in the store with the mark of its deletion. -/
def Deleted (t : Traffic) (id : Uuid) : Prop :=
  ∃ p, t.service.store.raw id = some p ∧ p.isDeleted = true

/-- The call of a client has cast the vote. -/
def Casts (t : Traffic) (n : Nat) (v : Vote) : Prop :=
  ∃ client, t.clients[n]? = some client ∧ client.call.castVote? = some v

theorem nodup_drawn_left {before after : List Event} (h : (drawn (before ++ after)).Nodup) :
    (drawn before).Nodup := by
  simp only [drawn, List.filterMap_append] at h
  exact List.Nodup.of_append_left h

theorem Deleted.retired {t : Traffic} {id : Uuid} (h : t.Deleted id) :
    ∃ p votes, p.id = id ∧ t.service.store.Retired p votes := by
  obtain ⟨p, found, deleted⟩ := h
  obtain rfl : p.id = id := Table.key_of_get? found
  exact ⟨p, _, rfl, found, deleted, rfl⟩

theorem retired_step {t : Traffic} (hbalanced : Balanced t.service.store t.clients)
    {p : Petition} {votes : List Vote} (h : t.service.store.Retired p votes) (e : Event) :
    (t.step e).service.store.Retired p votes ∧
      ∀ n v, (t.step e).Casts n v → v.petitionId = p.id → t.Casts n v := by
  cases e with
  | arrive d now =>
    refine ⟨h, ?_⟩
    rintro n v ⟨client, hn, hv⟩ -
    simp only [step, List.getElem?_append] at hn
    split at hn
    · exact ⟨client, hn, hv⟩
    · obtain rfl := List.mem_singleton.1 (List.mem_of_getElem? hn)
      cases (d.start_castVote? t.service now).symm.trans hv
  | advance m c =>
    cases hm : t.clients[m]? with
    | none =>
      simp only [step, advance, hm]
      exact ⟨h, fun n v hcasts _ => hcasts⟩
    | some client =>
      have hmem := List.mem_of_getElem? hm
      have hmove := (t.service.moves_step c client.call).storeMove hbalanced.withinGoals
        (hbalanced.serves client hmem)
      obtain ⟨hretired, hcast⟩ := h.move hmove fun id => hbalanced.new_of_pending hmem
      rw [step, advance_of_found hm]
      refine ⟨hretired, ?_⟩
      rintro n v ⟨next, hn, hv⟩ hpetition
      rcases eq_or_ne m n with rfl | hne
      · rw [List.getElem?_set_self (List.getElem?_eq_some_iff.1 hm).1] at hn
        cases hn
        exact ⟨client, hm, hcast v hv hpetition⟩
      · rw [List.getElem?_set_ne hne] at hn
        exact ⟨next, hn, hv⟩
  | switchStore available => exact ⟨h.ofTables rfl rfl, fun n v hcasts _ => hcasts⟩
  | work m c => exact ⟨h.ofTables (by simp [step]) (by simp [step]), fun n v hcasts _ => hcasts⟩
  | ledger action => exact ⟨h, fun n v hcasts _ => hcasts⟩

theorem Deleted.step {t : Traffic} {id : Uuid} (h : t.Deleted id)
    (hbalanced : Balanced t.service.store t.clients) (e : Event) : (t.step e).Deleted id := by
  obtain ⟨p, votes, rfl, hretired⟩ := h.retired
  have hnext := (retired_step hbalanced hretired e).1
  exact ⟨p, hnext.found, hnext.deleted⟩

/-- Deletions that have been committed stand in the store. -/
def DeletionsStand (t : Traffic) : Prop :=
  ∀ client ∈ t.clients, ∀ id, client.demand = .delete id →
    client.call.reply? = some .deleted → t.Deleted id

namespace DeletionsStand

variable {t : Traffic}

theorem advance (h : t.DeletionsStand) (hbalanced : Balanced t.service.store t.clients)
    (hfollows : t.Follows) (n : Nat) (c : Conditions) :
    (t.step (.advance n c)).DeletionsStand := by
  cases hn : t.clients[n]? with
  | none =>
    have hsame : t.step (.advance n c) = t := by simp only [Traffic.step, Traffic.advance, hn]
    rwa [hsame]
  | some old =>
    have hold := List.mem_of_getElem? hn
    have hnext : t.step (.advance n c) = ⟨(t.service.step c old.call).1,
        t.clients.set n ⟨old.demand, (t.service.step c old.call).2⟩⟩ := by
      rw [Traffic.step, advance_of_found hn]
    have hstays (id : Uuid) (hid : t.Deleted id) : (t.step (.advance n c)).Deleted id :=
      hid.step hbalanced _
    rw [hnext] at hstays ⊢
    intro client hclient id hdemand hreply
    rcases List.mem_or_eq_of_mem_set hclient with hclient | rfl
    · exact hstays id (h client hclient id hdemand hreply)
    · have hfollow : old.call.Follows (.delete id) := hdemand ▸ hfollows old hold
      rcases (t.service.moves_step c old.call).deleted hfollow hreply with
        hearlier | ⟨p, live, hstore⟩
      · exact hstays id (h old hold id hdemand hearlier)
      · have hid : p.id = id := Table.key_of_get? (PetitionTable.live_eq_ok.1 live).1
        refine ⟨p.delete c.now, ?_, rfl⟩
        simp only [hstore, Store.raw, Store.seed, Table.get?_put, Petition.delete_id, hid, if_true]

theorem step (h : t.DeletionsStand) (hbalanced : Balanced t.service.store t.clients)
    (hfollows : t.Follows) (e : Event) : (t.step e).DeletionsStand := by
  have hstays (client : Client) (hclient : client ∈ t.clients) (id : Uuid)
      (hdemand : client.demand = .delete id) (hreply : client.call.reply? = some .deleted) :
      (t.step e).Deleted id :=
    (h client hclient id hdemand hreply).step hbalanced e
  cases e with
  | arrive d now =>
    intro client hclient id hdemand hreply
    rcases List.mem_append.1 hclient with hclient | hclient
    · exact hstays client hclient id hdemand hreply
    · obtain rfl := List.mem_singleton.1 hclient
      cases (d.start_fresh t.service now).1.symm.trans hreply
  | advance n c => exact h.advance hbalanced hfollows n c
  | switchStore available => exact hstays
  | work n c => exact hstays
  | ledger action => exact hstays

end DeletionsStand

theorem deletionsStand_run (settings : Settings) (cache : CacheConfig) (ledger : Ledger.Peer)
    (events : List Event) (fresh : (drawn events).Nodup) :
    ((start settings cache ledger).run events).DeletionsStand := by
  induction events using List.reverseRecOn with
  | nil => exact fun client hclient => absurd hclient List.not_mem_nil
  | append_singleton events e ih =>
    have hfresh : (drawn events).Nodup := nodup_drawn_left fresh
    have hbalanced := balanced_run settings cache ledger events hfresh
    have hfollows := follows_run settings cache ledger events
    rw [run_concat]
    exact (ih hfresh).step hbalanced hfollows e

theorem retired_run (settings : Settings) (cache : CacheConfig) (ledger : Ledger.Peer)
    (before after : List Event) (fresh : (drawn (before ++ after)).Nodup) {p : Petition}
    {votes : List Vote}
    (h : ((start settings cache ledger).run before).service.store.Retired p votes) :
    ((start settings cache ledger).run (before ++ after)).service.store.Retired p votes ∧
      ∀ n v, ((start settings cache ledger).run (before ++ after)).Casts n v →
        v.petitionId = p.id → ((start settings cache ledger).run before).Casts n v := by
  induction after using List.reverseRecOn with
  | nil =>
    rw [List.append_nil]
    exact ⟨h, fun n v hcasts _ => hcasts⟩
  | append_singleton after e ih =>
    rw [← List.append_assoc] at fresh ⊢
    have hfresh : (drawn (before ++ after)).Nodup := nodup_drawn_left fresh
    obtain ⟨hretired, hcasts⟩ := ih hfresh
    have hbalanced := balanced_run settings cache ledger (before ++ after) hfresh
    obtain ⟨hnext, hnew⟩ := retired_step hbalanced hretired e
    rw [run_concat]
    exact ⟨hnext, fun n v hv hpetition => hcasts n v (hnew n v hv hpetition) hpetition⟩

theorem Follows.unanswered {t : Traffic} (h : t.Follows) {client : Client}
    (hclient : client ∈ t.clients) {b : Ballot} (hdemand : client.demand = .vote b)
    (hcast : client.call.castVote? = none) (reply : Reply) : client.call ≠ .done (.ok reply) := by
  intro hcall
  have hfollow := h client hclient
  rw [hcall, hdemand] at hfollow
  have hyields : (Demand.vote b).Yields reply := hfollow rfl
  cases reply with
  | vote v =>
    rw [hcall] at hcast
    cases hcast
  | _ => exact hyields

/-- From the commit of a deletion on, whatever the calls in flight go on to do: the store shows the
petition to nobody, neither its record nor the rows of its votes change, and a vote on it that has
not been cast is never cast and never answered with success. -/
theorem deletion_final (settings : Settings) (cache : CacheConfig) (ledger : Ledger.Peer)
    (before after : List Event) (fresh : (drawn (before ++ after)).Nodup) {client : Client}
    {id : Uuid} (member : client ∈ ((start settings cache ledger).run before).clients)
    (demand : client.demand = .delete id) (committed : client.call.reply? = some .deleted) :
    let t := (start settings cache ledger).run before
    let u := t.run after
    let s := u.service.store
    s.getById id = s.absent ∧ (∀ now, s.delete id now = s.absent) ∧
    (∀ type now, s.increment ⟨id, type, now⟩ = s.absent) ∧
    (∀ limit offset ps, s.list limit offset = .ok ps → ∀ q ∈ ps, q.id ≠ id) ∧
    (∃ p, p.isDeleted = true ∧ t.service.store.raw id = some p ∧ s.raw id = some p) ∧
    s.votes.rows.filter (·.petitionId = id) =
      t.service.store.votes.rows.filter (·.petitionId = id) ∧
    ∀ (n : Nat) (voting : Client) (b : Ballot), u.clients[n]? = some voting →
      voting.demand = .vote b → b.petition = id →
      (∀ old, t.clients[n]? = some old → old.call.castVote? = none) →
      voting.call.castVote? = none ∧ ∀ reply, voting.call ≠ .done (.ok reply) := by
  intro t u s
  have hrun : u = (start settings cache ledger).run (before ++ after) := (run_append ..).symm
  have hstand := deletionsStand_run settings cache ledger before (nodup_drawn_left fresh)
  have hdeleted : t.Deleted id := hstand client member id demand committed
  obtain ⟨p, votes, rfl, hretired⟩ := hdeleted.retired
  obtain ⟨hlater, hcasts⟩ := retired_run settings cache ledger before after fresh hretired
  rw [← hrun] at hlater hcasts
  have hserves : ∀ c ∈ u.clients, c.call.Serves c.demand :=
    hrun ▸ (balanced_run settings cache ledger (before ++ after) fresh).serves
  have hfollows : u.Follows := hrun ▸ follows_run settings cache ledger (before ++ after)
  refine ⟨hlater.getById_eq, hlater.delete_eq, hlater.increment_eq, ?_, ?_, ?_, ?_⟩
  · exact fun limit offset ps hlist => hlater.unlisted hlist
  · exact ⟨p, hretired.deleted, hretired.found, hlater.found⟩
  · exact hlater.rows.trans hretired.rows.symm
  · intro n voting b hn hdemand hpetition hold
    have hvoting := List.mem_of_getElem? hn
    have hcast : voting.call.castVote? = none := by
      refine Option.eq_none_iff_forall_ne_some.2 fun v hv => ?_
      obtain ⟨b', hb', -, hvote⟩ := voter_of_castVote? (hserves voting hvoting) hv
      cases hdemand.symm.trans hb'
      obtain ⟨old, hfound, hearlier⟩ := hcasts n v ⟨voting, hn, hv⟩ (hvote.trans hpetition)
      cases (hold old hfound).symm.trans hearlier
    exact ⟨hcast, hfollows.unanswered hvoting hdemand hcast⟩

/-- A vote has passed every check when its petition is deleted; then it tries to write. -/
def lateVote : List Event × List Event :=
  let tomorrow := ((Date.of? 1970 1 2).bind (Instant.of? · 0 0 0 0)).getD default
  let calm : Conditions := ⟨default, 0, 0, none, none, none, none⟩
  let petition := Uuid.ofNat 1
  ([.arrive (.create ⟨.ofNat 9, "Bike lanes", "Protected lanes downtown", 1, tomorrow⟩ petition)
      default, .advance 0 calm,
    .arrive (.vote ⟨.ofNat 2, petition, "favor", .ofNat 12⟩) default,
    .advance 1 calm, .advance 1 calm, .arrive (.delete petition) default, .advance 2 calm],
   [.advance 1 calm, .advance 2 calm])

theorem deletion_final_lateVote :
    (drawn (lateVote.1 ++ lateVote.2)).Nodup ∧
      let t := (start .standard .standard .closed).run lateVote.1
      let u := t.run lateVote.2
      ∃ deleting admitted voting, t.clients[2]? = some deleting ∧
        deleting.demand = .delete (.ofNat 1) ∧ deleting.call.reply? = some .deleted ∧
        t.clients[1]? = some admitted ∧
        admitted.call = .commit ⟨.ofNat 2, .ofNat 1, "favor", .ofNat 12⟩ .favor ∧
        u.clients[1]? = some voting ∧ (∀ reply, voting.call ≠ .done (.ok reply)) ∧
        u.service.store.getById (.ofNat 1) = u.service.store.absent := by
  have fresh : (drawn (lateVote.1 ++ lateVote.2)).Nodup := by decide
  refine ⟨fresh, _, _, _, rfl, rfl, rfl, rfl, rfl, rfl, ?_⟩
  have final := deletion_final .standard .standard .closed lateVote.1 lateVote.2 fresh
    (List.mem_of_getElem? (i := 2) rfl) rfl rfl
  refine ⟨(final.2.2.2.2.2.2 1 _ _ rfl rfl rfl ?_).2, final.1⟩
  rintro old hold
  cases hold
  rfl

end Traffic

end AuditedPetitions
