import AuditedPetitions.Proofs.Petition.Appends

/-! Commitments: the creations and votes that clients have brought about, and what their events tell.
A committed client has created a petition or cast a vote, and not both; the petitions that have been
created and the votes that have been cast are the rows of the store. -/

namespace AuditedPetitions

namespace Ledger.Transaction

/-- The payload has these members. -/
def Tells (t : Transaction) (members : List (String × Json)) : Prop :=
  ∀ m ∈ members, t.payload.value.member? m.1 = some m.2

/-- Text that the payload has under a name. -/
def text? (t : Transaction) (name : String) : Option String :=
  match t.payload.value.member? name with
  | some (.string s) => some s
  | _ => none

/-- Whether the event is a vote of this type on a petition. -/
def casts (t : Transaction) (petition : Uuid) (type : VoteType) : Bool :=
  t.kind = .voteCast && t.text? "petition_id" = some petition.text &&
    t.text? "vote_type" = some type.name

theorem Tells.text?_eq {t : Transaction} {members : List (String × Json)} (h : t.Tells members)
    {name s : String} (hm : (name, .string s) ∈ members) : t.text? name = some s := by
  simp [text?, h _ hm]

end Ledger.Transaction

theorem VoteType.name_injective {a b : VoteType} (h : a.name = b.name) : a = b := by
  cases a <;> cases b <;> first | rfl | exact absurd h (by decide)

theorem Petition.event_tells (p : Petition) (now : Instant) :
    (p.event now).Tells [("petition_id", .ofUuid p.id), ("owner_id", .ofUuid p.ownerId),
      ("title", .string p.title), ("goal", .ofInt64 p.goal),
      ("voting_deadline", .ofInstant p.votingDeadline)] := by
  simp only [Ledger.Transaction.Tells, List.forall_mem_cons]
  exact ⟨rfl, rfl, rfl, rfl, rfl, List.forall_mem_nil _⟩

theorem Vote.event_tells (v : Vote) (now : Instant) :
    (v.event now).Tells [("vote_id", .ofUuid v.id), ("voter_id", .ofUuid v.voterId),
      ("petition_id", .ofUuid v.petitionId), ("vote_type", .string v.voteType.name)] := by
  simp only [Ledger.Transaction.Tells, List.forall_mem_cons]
  exact ⟨rfl, rfl, rfl, rfl, List.forall_mem_nil _⟩

theorem Call.castVote?_eq_some {call : Call} {v : Vote} :
    call.castVote? = some v ↔ call.reply? = some (.vote v) := by
  cases call with
  | settle effects reply => cases reply <;> simp [castVote?]
  | done answer => rcases answer with _ | _ | _ | _ | _ <;> simp [castVote?, reply?]
  | _ => simp [castVote?, reply?]

namespace Client

/-- Whether the client has created a petition or cast a vote. -/
def hasEvent (c : Client) : Bool :=
  match c.demand, c.call.reply? with
  | .create .., some (.petition _) => true
  | .vote _, some (.vote _) => true
  | _, _ => false

/-- Identifier of the petition that the client has created. -/
def createdId? (c : Client) : Option Uuid :=
  match c.demand, c.call.reply? with
  | .create .., some (.petition p) => some p.id
  | _, _ => none

/-- Whether the client has cast a vote of this type on a petition. -/
def casts (petition : Uuid) (type : VoteType) (c : Client) : Bool :=
  c.call.castVote?.any fun v => v.petitionId = petition ∧ v.voteType = type

theorem hasEvent_eq (c : Client) :
    c.hasEvent = (c.call.reply?.bind c.demand.draft?).isSome := by
  unfold hasEvent
  cases c.demand <;> rcases c.call.reply? with _ | _ | _ | _ | _ <;> rfl

theorem hasEvent_of_castVote? {c : Client} (h : c.call.Serves c.demand) {v : Vote}
    (hv : c.call.castVote? = some v) : c.hasEvent = true ∧ c.createdId? = none := by
  obtain ⟨b, hb, -⟩ := Traffic.voter_of_castVote? h hv
  have hreply := Call.castVote?_eq_some.1 hv
  simp [hasEvent, createdId?, hb, hreply]

theorem hasEvent_count {c : Client} (h : c.call.Serves c.demand) :
    (if c.hasEvent then 1 else 0) =
      (if c.createdId?.isSome then 1 else 0) + if c.call.castVote?.isSome then 1 else 0 := by
  cases hv : c.call.castVote? with
  | some v =>
    obtain ⟨hevent, hid⟩ := hasEvent_of_castVote? h hv
    simp [hevent, hid]
  | none =>
    have hreply (v : Vote) : c.call.reply? ≠ some (.vote v) := by
      simp [← Call.castVote?_eq_some, hv]
    unfold hasEvent createdId?
    cases c.demand with
    | vote b =>
      rcases hr : c.call.reply? with _ | _ | v | _ | _
      case some.vote => exact absurd hr (hreply v)
      all_goals rfl
    | create request id => rcases c.call.reply? with _ | _ | _ | _ | _ <;> rfl
    | _ => rfl

end Client

/-- Identifiers of the petitions that clients have created. -/
def createdIds (clients : List Client) : List Uuid := clients.filterMap Client.createdId?

theorem countP_hasEvent {clients : List Client} (h : ∀ c ∈ clients, c.call.Serves c.demand) :
    clients.countP Client.hasEvent = (createdIds clients).length + (castVotes clients).length := by
  induction clients with
  | nil => rfl
  | cons c clients ih =>
    have hfirst := Client.hasEvent_count (h c List.mem_cons_self)
    have hrest := ih fun c hc => h c (List.mem_cons_of_mem _ hc)
    simp only [createdIds, castVotes, List.length_filterMap_eq_countP, List.countP_cons] at hrest ⊢
    omega

theorem countP_range {α : Type} (l : List α) (p : α → Bool) :
    (List.range l.length).countP (fun n => l[n]?.any p) = l.countP p := by
  induction l using List.reverseRecOn with
  | nil => rfl
  | append_singleton l a ih =>
    have hfirst : (List.range l.length).countP (fun n => (l ++ [a])[n]?.any p) =
        (List.range l.length).countP fun n => l[n]?.any p := by
      refine List.countP_congr fun n hn => ?_
      rw [List.getElem?_append_left (List.mem_range.1 hn)]
    rw [List.length_append, List.length_singleton, List.range_succ, List.countP_append, hfirst, ih,
      List.countP_append]
    simp [List.countP_singleton]

namespace Traffic

/-- Clients that have created a petition or cast a vote. -/
def committed (t : Traffic) : List Nat :=
  (List.range t.clients.length).filter fun n => t.clients[n]?.any Client.hasEvent

theorem nodup_committed (t : Traffic) : t.committed.Nodup := List.nodup_range.filter _

theorem mem_committed {t : Traffic} {n : Nat} :
    n ∈ t.committed ↔ ∃ client, t.clients[n]? = some client ∧ client.hasEvent = true := by
  rw [committed, List.mem_filter, List.mem_range, Option.any_eq_true]
  refine and_iff_right_of_imp ?_
  rintro ⟨client, hn, -⟩
  exact (List.getElem?_eq_some_iff.1 hn).1

theorem length_committed (t : Traffic) : t.committed.length = t.clients.countP Client.hasEvent := by
  rw [committed, ← List.countP_eq_length_filter, countP_range]

/-- An event tells what a client has asked for and got. -/
inductive IsEvent (t : Traffic) (n : Nat) (e : Ledger.Transaction) : Prop
  | created {request : NewPetition} {id : Uuid} {now : Instant}
      (client : t.clients[n]? = some ⟨.create request id,
        .done (.ok (.petition (.ofRequest request id now)))⟩)
      (kind : e.kind = .petitionCreated)
      (tells : e.Tells [("petition_id", .ofUuid id), ("owner_id", .ofUuid request.ownerId),
        ("title", .string request.title), ("goal", .ofInt64 request.goal),
        ("voting_deadline", .ofInstant request.votingDeadline)])
  | voted {b : Ballot} {type : VoteType} {now : Instant}
      (client : t.clients[n]? = some ⟨.vote b,
        .done (.ok (.vote ⟨b.id, b.voter, b.petition, type, now⟩))⟩)
      (asked : VoteType.ofText b.type = .ok type) (kind : e.kind = .voteCast)
      (tells : e.Tells [("vote_id", .ofUuid b.id), ("voter_id", .ofUuid b.voter),
        ("petition_id", .ofUuid b.petition), ("vote_type", .string type.name)])

theorem isEvent_of_event {t : Traffic} (hfollows : t.Follows) {n : Nat} {client : Client}
    (hn : t.clients[n]? = some client) (hdone : client.call.isDone = true)
    {e : Ledger.Transaction}
    (he : client.call.reply?.bind client.demand.draft? = some e.draft) : t.IsEvent n e := by
  have hfollow := hfollows client (List.mem_of_getElem? hn)
  obtain ⟨d, call⟩ := client
  obtain ⟨answer, rfl⟩ := Call.isDone_iff.1 hdone
  obtain ⟨reply, hreply, he⟩ := Option.bind_eq_some_iff.1 he
  cases answer with
  | error f => cases hreply
  | ok found =>
    cases hreply
    cases d with
    | create request id =>
      cases reply with
      | petition p =>
        obtain ⟨created, rfl⟩ := hfollow rfl
        obtain ⟨now, rfl⟩ := Petition.exists_event (Option.some.inj he)
        exact .created hn rfl (Petition.event_tells _ now)
      | _ => cases he
    | vote b =>
      cases reply with
      | vote v =>
        obtain ⟨hid, hvoter, hpetition, htype⟩ := hfollow rfl
        obtain ⟨now, rfl⟩ := Vote.exists_event (Option.some.inj he)
        obtain ⟨id, voter, petition, type, created⟩ := v
        obtain ⟨rfl, rfl, rfl⟩ : id = b.id ∧ voter = b.voter ∧ petition = b.petition :=
          ⟨hid, hvoter, hpetition⟩
        exact .voted hn htype rfl (Vote.event_tells _ now)
      | _ => cases he
    | _ => cases he

theorem IsEvent.casts_eq {t : Traffic} {n : Nat} {e : Ledger.Transaction} (h : t.IsEvent n e)
    (petition : Uuid) (type : VoteType) :
    e.casts petition type = t.clients[n]?.any (Client.casts petition type) := by
  have htext {u : Uuid} : u.text = petition.text ↔ u = petition :=
    ⟨Uuid.text_injective, congrArg Uuid.text⟩
  have hname {other : VoteType} : other.name = type.name ↔ other = type :=
    ⟨VoteType.name_injective, congrArg VoteType.name⟩
  cases h with
  | created client kind tells =>
    simp [Ledger.Transaction.casts, kind, client, Client.casts, Call.castVote?]
  | @voted b other now client asked kind tells =>
    have hpetition : e.text? "petition_id" = some b.petition.text :=
      tells.text?_eq (by simp [Json.ofUuid])
    have htype : e.text? "vote_type" = some other.name := tells.text?_eq (by simp)
    simp [Ledger.Transaction.casts, kind, hpetition, htype, client, Client.casts, Call.castVote?,
      htext, hname]

end Traffic

theorem StoreMove.ids_eq {s s' : Store} {call next : Call} (m : StoreMove s call s' next)
    (hnew : call.newId? = none) : s'.ids = s.ids := by
  cases m with
  | keep cast new => rfl
  | create => cases hnew
  | delete live => exact PetitionTable.keys_put_of_live live (Petition.delete_id ..)
  | vote voter petition unvoted live free =>
    exact PetitionTable.keys_put_of_live live (Petition.withVote_id ..)

namespace Service

variable {s s' : Service} {c : Conditions} {d : Demand} {call next : Call}

theorem Moves.createdId? (h : s.Moves c call s' next) (hnew : call.newId? = none)
    (hf : call.Follows d) : Client.createdId? ⟨d, next⟩ = Client.createdId? ⟨d, call⟩ := by
  cases d with
  | create request id =>
    have hreply : next.reply? = call.reply? := by
      cases h with
      | refused h => exact (Call.reply?_failed _).trans h.fresh.2.symm
      | written h =>
        cases h with
        | create made answer => cases hnew
        | delete answer => cases hf
        | vote made answer => cases hf.1
      | passed h => cases h <;> rfl
      | ended h => exact (h.closes hf).2.2
      | fetched h => cases (h.follows hf).1
      | performed | replied | rest => rfl
    simp only [Client.createdId?, hreply]
  | _ => rfl

theorem Moves.created {request : NewPetition} {id : Uuid}
    (h : s.Moves c (.create request id) s' next) :
    s'.store = s.store ∧ Client.createdId? ⟨.create request id, next⟩ = none ∨
      s'.store = s.store.seed (.ofRequest request id c.now) ∧
        Client.createdId? ⟨.create request id, next⟩ = some id := by
  cases h with
  | refused h => exact .inl ⟨rfl, by simp [Client.createdId?, Call.reply?_failed]⟩
  | written h =>
    cases h with
    | create made answer =>
      subst made
      obtain ⟨-, rfl⟩ := Store.create_eq_ok.1 (Conditions.atStore_eq_ok.1 answer).2
      exact .inr ⟨rfl, rfl⟩
  | passed h => cases h
  | ended h => cases h
  | fetched h => cases h

end Service

namespace Traffic

theorem created_advance {t : Traffic} (hbalanced : Balanced t.service.store t.clients)
    (hfollows : t.Follows) (h : (createdIds t.clients).Perm t.service.store.ids) (n : Nat)
    (c : Conditions) :
    (createdIds (t.advance n c).clients).Perm (t.advance n c).service.store.ids := by
  cases hn : t.clients[n]? with
  | none => simpa [advance, hn] using h
  | some client =>
    have hmem := List.mem_of_getElem? hn
    have hserves := hbalanced.serves client hmem
    obtain ⟨hlt, rfl⟩ := List.getElem?_eq_some_iff.1 hn
    rw [advance_of_found hn]
    have hafter := (List.set_perm_cons_eraseIdx hlt
      ⟨t.clients[n].demand, (t.service.step c t.clients[n].call).2⟩).filterMap Client.createdId?
    have hbefore := ((List.getElem_cons_eraseIdx_perm hlt).filterMap Client.createdId?).trans h
    refine hafter.trans ?_
    have hmoves := t.service.moves_step c t.clients[n].call
    cases hnew : t.clients[n].call.newId? with
    | none =>
      have hids := (hmoves.storeMove hbalanced.withinGoals hserves).ids_eq hnew
      rw [hids]
      simpa only [List.filterMap_cons, hmoves.createdId? hnew (hfollows _ hmem)] using hbefore
    | some id =>
      obtain ⟨request, hcall⟩ : ∃ request, t.clients[n].call = .create request id := by
        cases hc : t.clients[n].call <;> simp_all [Call.newId?]
      have hdemand : t.clients[n].demand = .create request id := by
        rw [hcall] at hserves
        exact hserves.1
      have hold : t.clients[n].createdId? = none := by
        simp [Client.createdId?, hcall, Call.reply?]
      rw [List.filterMap_cons, hold] at hbefore
      rw [hcall] at hmoves
      rw [hcall, hdemand]
      rcases hmoves.created with ⟨hstore, hnone⟩ | ⟨hstore, hsome⟩
      · simpa only [List.filterMap_cons, hnone, hstore] using hbefore
      · have hseed := Store.ids_seed_of_new (p := .ofRequest request id c.now)
          (hbalanced.new_of_pending hmem hnew)
        simp only [List.filterMap_cons, hsome, hstore, hseed]
        exact (hbefore.cons id).trans (List.perm_append_singleton _ _).symm

theorem created_run (settings : Settings) (cache : CacheConfig) (ledger : Ledger.Peer)
    {events : List Event} (fresh : (drawn events).Nodup) :
    (createdIds ((start settings cache ledger).run events).clients).Perm
      ((start settings cache ledger).run events).service.store.ids := by
  induction events using List.reverseRecOn with
  | nil => exact List.Perm.refl _
  | append_singleton events e ih =>
    simp only [drawn, List.filterMap_append, List.nodup_append] at fresh
    have hbefore := ih fresh.1
    have hbalanced := balanced_run settings cache ledger events fresh.1
    have hfollows := follows_run settings cache ledger events
    rw [run_concat]
    cases e with
    | arrive d now =>
      have hnone : Client.createdId? ⟨d, d.start ((start settings cache ledger).run events).service
          now⟩ = none := by
        simp [Client.createdId?, d.start_fresh]
      simpa [step, createdIds, hnone] using hbefore
    | advance n c => exact created_advance hbalanced hfollows hbefore n c
    | switchStore available => exact hbefore
    | work n c => simpa [step] using hbefore
    | ledger action => exact hbefore

end Traffic

end AuditedPetitions
