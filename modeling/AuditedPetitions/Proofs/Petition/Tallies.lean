import AuditedPetitions.Proofs.Petition.ServiceSteps

/-! Votes under traffic. Every read of a vote can be stale by the time it is written, so the
invariant is carried by the write alone: the votes written by the calls are the rows of the store,
and each petition's tallies count its rows. No identifier is drawn twice. -/

namespace AuditedPetitions

/-- The tallies of a petition count its votes, and it is within its goal. -/
structure Petition.Tallied (p : Petition) (votes : List Vote) : Prop where
  withinGoal : p.WithinGoal
  counts : ∀ type, (p.tally type).toInt =
    votes.countP fun v => v.petitionId = p.id ∧ v.voteType = type

/-- Identifiers of the petitions that calls are about to write. -/
def pendingIds (clients : List Client) : List Uuid := clients.filterMap (·.call.newId?)

def castVotes (clients : List Client) : List Vote := clients.filterMap (·.call.castVote?)

def drawnIds (clients : List Client) : List Uuid := clients.filterMap (·.demand.newId?)

def Store.ids (s : Store) : List Uuid := s.petitions.rows.map Petition.id

theorem PetitionTable.keys_put_of_live {t : PetitionTable} {id : Uuid} {p q : Petition}
    (live : t.live id = .ok p) (same : q.id = p.id) :
    (t.put q).rows.map Petition.id = t.rows.map Petition.id := by
  have found := (PetitionTable.live_eq_ok.1 live).1
  refine Table.keys_put_of_old (b := p) ?_
  rw [same, Table.key_of_get? found]
  exact found

theorem Store.ids_seed_of_new {s : Store} {p : Petition} (h : s.petitions.get? p.id = none) :
    (s.seed p).ids = s.ids ++ [p.id] := by
  simp [ids, seed, Table.rows_put_of_new h]

/-- How the store and the calls that were made of it belong together. -/
structure Balanced (s : Store) (clients : List Client) : Prop where
  serves : ∀ c ∈ clients, c.call.Serves c.demand
  cast : (castVotes clients).Perm s.votes.rows
  distinct : (pendingIds clients ++ s.ids).Nodup
  drawn : ∀ id ∈ pendingIds clients ++ s.ids, id ∈ drawnIds clients
  tallied : ∀ p ∈ s.petitions.rows, p.Tallied s.votes.rows
  known : ∀ v ∈ s.votes.rows, v.petitionId ∈ s.ids

namespace Balanced

variable {s : Store} {clients : List Client}

theorem withinGoals (h : Balanced s clients) : s.WithinGoals :=
  fun p hp => (h.tallied p hp).withinGoal

theorem new_of_pending (h : Balanced s clients) {c : Client} (hc : c ∈ clients) {id : Uuid}
    (hid : c.call.newId? = some id) : s.petitions.get? id = none := by
  have hpending : id ∈ pendingIds clients := List.mem_filterMap.2 ⟨c, hc, hid⟩
  refine Table.get?_eq_none_iff.2 fun hmem => ?_
  exact (List.nodup_append.1 h.distinct).2.2 id hpending id hmem rfl

theorem empty : Balanced .empty [] where
  serves := by simp
  cast := List.Perm.refl _
  distinct := List.nodup_nil
  drawn := by simp [pendingIds, Store.ids, Store.empty, Table.empty]
  tallied := by simp [Store.empty, Table.empty]
  known := by simp [Store.empty, Table.empty]

theorem perm {others : List Client} (h : Balanced s clients) (hp : clients.Perm others) :
    Balanced s others where
  serves c hc := h.serves c (hp.mem_iff.2 hc)
  cast := (hp.filterMap _).symm.trans h.cast
  distinct := ((hp.filterMap _).append_right _).nodup_iff.1 h.distinct
  drawn id hid := (hp.filterMap _).mem_iff.1
    (h.drawn id (((hp.filterMap _).append_right _).mem_iff.2 hid))
  tallied := h.tallied
  known := h.known

theorem ofTables {s' : Store} (h : Balanced s clients) (hp : s'.petitions = s.petitions)
    (hv : s'.votes = s.votes) : Balanced s' clients := by
  obtain ⟨petitions, votes, available⟩ := s'
  subst hp hv
  exact ⟨h.serves, h.cast, h.distinct, h.drawn, h.tallied, h.known⟩

theorem arrive (h : Balanced s clients) {d : Demand} {call : Call} (serves : call.Serves d)
    (cast : call.castVote? = none) (fresh : ∀ id, d.newId? = some id → id ∉ drawnIds clients) :
    Balanced s (⟨d, call⟩ :: clients) := by
  have newId : ∀ id, call.newId? = some id → d.newId? = some id := by
    intro id hid
    cases call <;> cases hid
    obtain ⟨rfl, -⟩ := serves
    rfl
  refine ⟨?_, ?_, ?_, ?_, h.tallied, h.known⟩
  · intro c hc
    rcases List.mem_cons.1 hc with rfl | hc
    · exact serves
    · exact h.serves c hc
  · simpa only [castVotes, List.filterMap_cons, cast] using h.cast
  · cases hp : call.newId? with
    | none => simpa only [pendingIds, List.filterMap_cons, hp] using h.distinct
    | some id =>
      have new : id ∉ pendingIds clients ++ s.ids :=
        fun hm => fresh id (newId id hp) (h.drawn id hm)
      simpa only [pendingIds, List.filterMap_cons, hp, List.cons_append,
        List.nodup_cons] using And.intro new h.distinct
  · intro id hid
    have mono : id ∈ drawnIds clients → id ∈ drawnIds (⟨d, call⟩ :: clients) := by
      intro hm
      simp only [drawnIds, List.filterMap_cons]
      split
      · exact hm
      · exact List.mem_cons_of_mem _ hm
    cases hp : call.newId? with
    | none =>
      simp only [pendingIds, List.filterMap_cons, hp] at hid
      exact mono (h.drawn id hid)
    | some new =>
      simp only [pendingIds, List.filterMap_cons, hp, List.cons_append, List.mem_cons] at hid
      rcases hid with rfl | hid
      · simp [drawnIds, newId id hp]
      · exact mono (h.drawn id hid)

theorem keep {d : Demand} {call next : Call} (h : Balanced s (⟨d, call⟩ :: clients))
    (serves : next.Serves d) (cast : next.castVote? = call.castVote?)
    (new : next.newId? = none) : Balanced s (⟨d, next⟩ :: clients) := by
  have pending : (pendingIds clients ++ s.ids).Sublist
      (pendingIds (⟨d, call⟩ :: clients) ++ s.ids) := by
    refine List.Sublist.append_right ?_ _
    simp only [pendingIds, List.filterMap_cons]
    split
    · exact List.Sublist.refl _
    · exact List.sublist_cons_self _ _
  have same : pendingIds (⟨d, next⟩ :: clients) = pendingIds clients := by
    simp [pendingIds, new]
  refine ⟨?_, ?_, ?_, ?_, h.tallied, h.known⟩
  · intro c hc
    rcases List.mem_cons.1 hc with rfl | hc
    · exact serves
    · exact h.serves c (List.mem_cons_of_mem _ hc)
  · simpa only [castVotes, List.filterMap_cons, cast] using h.cast
  · rw [same]
    exact h.distinct.sublist pending
  · rw [same]
    exact fun id hid => h.drawn id (pending.subset hid)

theorem create {d : Demand} {request : NewPetition} {id : Uuid} {now : Instant}
    {effects : List Effect} (h : Balanced s (⟨d, .create request id⟩ :: clients)) :
    Balanced (s.seed (.ofRequest request id now))
      (⟨d, .settle effects (.petition (.ofRequest request id now))⟩ :: clients) := by
  let p := Petition.ofRequest request id now
  have goal : 1 ≤ request.goal.toInt := (h.serves _ List.mem_cons_self).2
  have unknown : s.petitions.get? p.id = none := h.new_of_pending List.mem_cons_self rfl
  have distinct := h.distinct
  simp only [pendingIds, List.filterMap_cons, Call.newId?, List.cons_append,
    List.nodup_cons, List.mem_append, not_or] at distinct
  have rows : (s.seed p).petitions.rows = s.petitions.rows ++ [p] :=
    Table.rows_put_of_new unknown
  have ids : (s.seed p).ids = s.ids ++ [p.id] := Store.ids_seed_of_new unknown
  have unvoted : ∀ v ∈ s.votes.rows, v.petitionId ≠ id :=
    fun v hv he => distinct.1.2 (he ▸ h.known v hv)
  have moved : ((pendingIds clients ++ (s.seed p).ids)).Perm
      (pendingIds (⟨d, .create request id⟩ :: clients) ++ s.ids) := by
    simp only [ids, pendingIds, List.filterMap_cons, Call.newId?]
    rw [← List.append_assoc]
    exact List.perm_append_singleton _ _
  refine ⟨?_, ?_, ?_, ?_, ?_, ?_⟩
  · intro c hc
    rcases List.mem_cons.1 hc with rfl | hc
    · trivial
    · exact h.serves c (List.mem_cons_of_mem _ hc)
  · exact h.cast
  · exact moved.nodup_iff.2 h.distinct
  · exact fun id hid => h.drawn id (moved.mem_iff.1 hid)
  · intro q hq
    rw [rows, List.mem_append, List.mem_singleton] at hq
    rcases hq with hq | rfl
    · exact h.tallied q hq
    · refine ⟨Petition.withinGoal_ofRequest goal id now, fun type => ?_⟩
      have none : s.votes.rows.countP (fun v => v.petitionId = p.id ∧ v.voteType = type) = 0 := by
        simp only [List.countP_eq_zero, decide_eq_true_eq, not_and]
        exact fun v hv he => absurd he (unvoted v hv)
      change _ = ((s.votes.rows.countP _ : Nat) : Int)
      rw [none]
      cases type <;> rfl
  · intro v hv
    rw [ids]
    exact List.mem_append_left _ (h.known v hv)

theorem delete {d : Demand} {id : Uuid} {p : Petition} {now : Instant} {effects : List Effect}
    (h : Balanced s (⟨d, .delete id⟩ :: clients)) (live : s.petitions.live id = .ok p) :
    Balanced (s.seed (p.delete now)) (⟨d, .settle effects .deleted⟩ :: clients) := by
  have found := (PetitionTable.live_eq_ok.1 live).1
  have ids : (s.seed (p.delete now)).ids = s.ids :=
    PetitionTable.keys_put_of_live live (p.delete_id now)
  refine ⟨?_, h.cast, ?_, ?_, ?_, ?_⟩
  · intro c hc
    rcases List.mem_cons.1 hc with rfl | hc
    · trivial
    · exact h.serves c (List.mem_cons_of_mem _ hc)
  · rw [ids]
    exact h.distinct
  · rw [ids]
    exact h.drawn
  · intro q hq
    rcases Table.mem_rows_put.1 hq with rfl | ⟨-, hq⟩
    · have old := h.tallied p (Table.mem_of_get? found)
      refine ⟨old.withinGoal.delete now, fun type => ?_⟩
      rw [Petition.delete_tally]
      exact old.counts type
    · exact h.tallied q hq
  · rw [ids]
    exact h.known

theorem vote {d : Demand} {b : Ballot} {v : Vote} {p : Petition} {now : Instant}
    {effects : List Effect} (h : Balanced s (⟨d, .commit b v.voteType⟩ :: clients))
    (voter : v.voterId = b.voter) (petition : v.petitionId = b.petition)
    (unvoted : s.votes.get? v.voterAndPetition = none)
    (live : s.petitions.live v.petitionId = .ok p) (free : p.tallies < p.goal.toInt) :
    Balanced (s.withVote v p now) (⟨d, .settle effects (.vote v)⟩ :: clients) := by
  have found := (PetitionTable.live_eq_ok.1 live).1
  have same := Table.key_of_get? found
  have ids : (s.withVote v p now).ids = s.ids :=
    PetitionTable.keys_put_of_live live (p.withVote_id v.voteType now)
  have rows : (s.withVote v p now).votes.rows = s.votes.rows ++ [v] :=
    Table.rows_put_of_new unvoted
  refine ⟨?_, ?_, ?_, ?_, ?_, ?_⟩
  · intro c hc
    rcases List.mem_cons.1 hc with rfl | hc
    · exact ⟨b, h.serves _ List.mem_cons_self, voter, petition⟩
    · exact h.serves c (List.mem_cons_of_mem _ hc)
  · rw [rows]
    exact (h.cast.cons v).trans (List.perm_append_singleton v _).symm
  · rw [ids]
    exact h.distinct
  · rw [ids]
    exact h.drawn
  · intro q hq
    rw [rows]
    rcases Table.mem_rows_put.1 hq with rfl | ⟨hne, hq⟩
    · have old := h.tallied p (Table.mem_of_get? found)
      refine ⟨old.withinGoal.withVote free _ _, fun type => ?_⟩
      rw [Petition.tally_withVote old.withinGoal free, old.counts type]
      simp only [List.countP_append, List.countP_singleton, Petition.withVote_id, same, true_and,
        decide_eq_true_eq, Nat.cast_add]
      by_cases hc : type = v.voteType
      · simp [hc]
      · simp [hc, Ne.symm hc]
    · have old := h.tallied q hq
      refine ⟨old.withinGoal, fun type => ?_⟩
      rw [Petition.withVote_id, same] at hne
      simp [old.counts type, List.countP_append, Ne.symm hne]
  · intro w hw
    rw [ids]
    rw [rows, List.mem_append, List.mem_singleton] at hw
    rcases hw with hw | rfl
    · exact h.known w hw
    · exact same ▸ List.mem_map_of_mem (Table.mem_of_get? found)

theorem move {d : Demand} {call next : Call} {s' : Store}
    (h : Balanced s (⟨d, call⟩ :: clients)) (m : StoreMove s call s' next)
    (serves : next.Serves d) : Balanced s' (⟨d, next⟩ :: clients) := by
  cases m with
  | keep cast new => exact h.keep serves cast new
  | create => exact h.create
  | delete live => exact h.delete live
  | vote voter petition unvoted live free => exact h.vote voter petition unvoted live free

end Balanced

namespace Traffic

variable {t : Traffic}

theorem balanced_advance (h : Balanced t.service.store t.clients) (n : Nat) (c : Conditions) :
    Balanced (t.advance n c).service.store (t.advance n c).clients := by
  unfold advance
  split
  · exact h
  · rename_i client found
    obtain ⟨hn, rfl⟩ := List.getElem?_eq_some_iff.1 found
    have front := h.perm (List.getElem_cons_eraseIdx_perm hn).symm
    have serves := front.serves _ List.mem_cons_self
    have within := h.withinGoals
    have moves := t.service.moves_step c t.clients[n].call
    exact (front.move (moves.storeMove within serves) (moves.serves within serves)).perm
      (List.set_perm_cons_eraseIdx hn _).symm

theorem balanced_step (h : Balanced t.service.store t.clients) (e : Event)
    (fresh : ∀ d id, e.demand? = some d → d.newId? = some id → id ∉ drawnIds t.clients) :
    Balanced (t.step e).service.store (t.step e).clients := by
  cases e with
  | arrive d now =>
    have first := h.arrive (d.start_serves t.service now) (d.start_castVote? t.service now)
      (fun id => fresh d id rfl)
    exact first.perm (List.perm_append_singleton _ _).symm
  | advance n c => exact balanced_advance h n c
  | switchStore available => exact h.ofTables rfl rfl
  | work n c => exact h.ofTables (by simp [step]) (by simp [step])
  | ledger action => exact h

theorem demands_run (t : Traffic) (events : List Event) :
    (t.run events).clients.map Client.demand =
      t.clients.map Client.demand ++ events.filterMap Event.demand? := by
  induction events using List.reverseRecOn with
  | nil => simp [run]
  | append_singleton events e ih =>
    rw [run_concat, List.filterMap_append, ← List.append_assoc, ← ih]
    cases e with
    | arrive d now => simp [step, Event.demand?]
    | advance n c =>
      simp only [step, advance]
      split
      · simp [Event.demand?]
      · rename_i client found
        obtain ⟨hn, rfl⟩ := List.getElem?_eq_some_iff.1 found
        have hm : n < ((t.run events).clients.map Client.demand).length := by simpa using hn
        have same := List.set_getElem_self hm
        rw [List.getElem_map] at same
        simp [Event.demand?, List.map_set, same]
    | switchStore available => simp [step, Event.demand?]
    | work n c => simp [step, Event.demand?]
    | ledger action => simp [step, Event.demand?]

/-- Identifiers that are drawn in a run. -/
def drawn (events : List Event) : List Uuid :=
  (events.filterMap Event.demand?).filterMap Demand.newId?

theorem drawnIds_run (settings : Settings) (cache : CacheConfig) (ledger : Ledger.Peer)
    (events : List Event) :
    drawnIds ((start settings cache ledger).run events).clients = drawn events := by
  have h := congrArg (List.filterMap Demand.newId?)
    (demands_run (start settings cache ledger) events)
  simpa [drawnIds, drawn, start, List.filterMap_map, Function.comp_def] using h

theorem balanced_run (settings : Settings) (cache : CacheConfig) (ledger : Ledger.Peer)
    (events : List Event) (fresh : (drawn events).Nodup) :
    Balanced ((start settings cache ledger).run events).service.store
      ((start settings cache ledger).run events).clients := by
  induction events using List.reverseRecOn with
  | nil => exact Balanced.empty
  | append_singleton events e ih =>
    simp only [drawn, List.filterMap_append, List.nodup_append] at fresh
    rw [run_concat]
    refine balanced_step (ih fresh.1) e ?_
    intro d id hd hid hm
    rw [drawnIds_run] at hm
    exact fresh.2.2 id hm id (by simp [hd, hid]) rfl

theorem voter_of_castVote? {d : Demand} {call : Call} (h : call.Serves d) {v : Vote}
    (hv : call.castVote? = some v) :
    ∃ b, d = .vote b ∧ v.voterId = b.voter ∧ v.petitionId = b.petition := by
  unfold Call.castVote? at hv
  split at hv
  · cases hv
    exact h
  · cases hv
    exact h
  · cases hv

theorem hasCast_iff {c : Client} (h : c.call.Serves c.demand) (voter petition : Uuid) :
    c.hasCast voter petition = true ↔
      ∃ v, c.call.castVote? = some v ∧ v.voterAndPetition = (voter, petition) := by
  constructor
  · intro hc
    unfold Client.hasCast at hc
    split at hc
    · rename_i b hb
      simp only [Bool.and_eq_true, decide_eq_true_eq, Option.isSome_iff_exists] at hc
      obtain ⟨⟨rfl, rfl⟩, v, hv⟩ := hc
      obtain ⟨b', hb', hvoter, hpetition⟩ := voter_of_castVote? h hv
      cases hb.symm.trans hb'
      exact ⟨v, hv, Prod.ext hvoter hpetition⟩
    · cases hc
  · rintro ⟨v, hv, hkey⟩
    obtain ⟨b, hb, hvoter, hpetition⟩ := voter_of_castVote? h hv
    obtain ⟨rfl, rfl⟩ := Prod.ext_iff.1 hkey
    simp [Client.hasCast, hb, hv, hvoter, hpetition, Vote.voterAndPetition]

theorem commits_eq (h : Balanced t.service.store t.clients) (voter petition : Uuid) :
    t.commits voter petition =
      if t.service.store.votes.contains (voter, petition) then 1 else 0 := by
  rw [← Table.countP_key, ← h.cast.countP_eq, castVotes, List.countP_filterMap]
  refine List.countP_congr fun c hc => ?_
  rw [hasCast_iff (h.serves c hc)]
  cases hv : c.call.castVote? <;> simp

/-- At every moment of every run the tallies count the votes and stay within the goals, nobody's
vote is written twice, a row stands for exactly one written vote, and no vote ends for want of a
number. -/
theorem run_tallied (settings : Settings) (cache : CacheConfig) (ledger : Ledger.Peer)
    (events : List Event) (fresh : (drawn events).Nodup) :
    let t := (start settings cache ledger).run events
    let store := t.service.store
    (∀ p ∈ store.petitions.rows,
      (∀ type, (p.tally type).toInt =
        store.votes.rows.countP fun v => v.petitionId = p.id ∧ v.voteType = type) ∧
      0 ≤ p.votesInFavor.toInt + p.votesAgainst.toInt ∧
      p.votesInFavor.toInt + p.votesAgainst.toInt ≤ p.goal.toInt) ∧
    (∀ voter petition, t.commits voter petition ≤ 1 ∧
      (store.votes.contains (voter, petition) = true ↔ t.commits voter petition = 1)) ∧
    ∀ c ∈ t.clients, ∀ b, c.demand = .vote b →
      ∀ fault, c.call ≠ .done (.error (.arithmetic fault)) := by
  intro t store
  have h : Balanced store t.clients := balanced_run settings cache ledger events fresh
  refine ⟨?_, ?_, ?_⟩
  · intro p hp
    have tallied := h.tallied p hp
    have hf := tallied.withinGoal.favor_nonneg
    have ha := tallied.withinGoal.against_nonneg
    exact ⟨tallied.counts, by omega, tallied.withinGoal.sum_le⟩
  · intro voter petition
    rw [commits_eq h]
    split <;> simp_all [store]
  · intro c hc b hb fault hcall
    have serves := h.serves c hc
    rw [hcall, hb] at serves
    exact serves b rfl

/-- Two voters race for the last vote of a petition: both have passed every check when the second of
them writes, and then the first tries to. -/
def race : List Event :=
  let tomorrow := ((Date.of? 1970 1 2).bind (Instant.of? · 0 0 0 0)).getD default
  let calm : Conditions := ⟨default, 0, 0, none, none, none, none⟩
  let petition := Uuid.ofNat 1
  let ballot (n : Nat) : Ballot := ⟨.ofNat n, petition, "favor", .ofNat (10 + n)⟩
  [.arrive (.create ⟨.ofNat 9, "Bike lanes", "Protected lanes downtown", 1, tomorrow⟩ petition)
      default,
    .advance 0 calm, .arrive (.vote (ballot 2)) default, .arrive (.vote (ballot 3)) default,
    .advance 1 calm, .advance 2 calm, .advance 1 calm, .advance 2 calm, .advance 2 calm,
    .advance 1 calm]

theorem run_tallied_race :
    (drawn race).Nodup ∧
      let t := (start .standard .standard .closed).run race
      let p := Uuid.ofNat 1
      (t.commits (.ofNat 2) p, t.commits (.ofNat 3) p) = (0, 1) ∧
        (t.service.store.votes.contains (.ofNat 3, p) = true ↔ t.commits (.ofNat 3) p = 1) := by
  have fresh : (drawn race).Nodup := by decide
  exact ⟨fresh, rfl, ((run_tallied .standard .standard .closed race fresh).2.1 _ _).2⟩

end Traffic

end AuditedPetitions
