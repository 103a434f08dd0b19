import AuditedPetitions.Proofs.Petition.Duties

/-! What every run keeps, whichever identifiers are drawn. An identifier that is drawn twice lets a
creation overwrite a petition, so that tallies need not count rows any more; but petitions stay
within their goals, calls stand where their demands allow, and the rows of the store are the votes
that calls have written. -/

namespace AuditedPetitions

namespace StoreMove

variable {s s' : Store} {call next : Call}

theorem withinGoals (m : StoreMove s call s' next) {d : Demand} (serves : call.Serves d)
    (h : s.WithinGoals) : s'.WithinGoals := by
  cases m with
  | keep cast new => exact h
  | @create request id now effects =>
    intro q hq
    rcases Table.mem_rows_put.1 hq with rfl | ⟨-, hq⟩
    · exact Petition.withinGoal_ofRequest serves.2 id now
    · exact h q hq
  | @delete id p now effects live =>
    intro q hq
    rcases Table.mem_rows_put.1 hq with rfl | ⟨-, hq⟩
    · exact (h.live live).delete now
    · exact h q hq
  | @vote b v p now effects voter petition unvoted live free =>
    intro q hq
    rcases Table.mem_rows_put.1 hq with rfl | ⟨-, hq⟩
    · exact (h.live live).withVote free _ _
    · exact h q hq

theorem cast (m : StoreMove s call s' next) {votes : List Vote}
    (h : (call.castVote?.toList ++ votes).Perm s.votes.rows) :
    (next.castVote?.toList ++ votes).Perm s'.votes.rows := by
  cases m with
  | keep cast new => rwa [cast]
  | create => exact h
  | delete live => exact h
  | @vote b v p now effects voter petition unvoted live free =>
    have rows : (s.withVote v p now).votes.rows = s.votes.rows ++ [v] :=
      Table.rows_put_of_new unvoted
    rw [rows]
    exact (h.cons v).trans (List.perm_append_singleton v _).symm

end StoreMove

theorem castVotes_cons (c : Client) (clients : List Client) :
    castVotes (c :: clients) = c.call.castVote?.toList ++ castVotes clients := by
  simp only [castVotes, List.filterMap_cons]
  cases c.call.castVote? <;> rfl

namespace Traffic

structure Regular (t : Traffic) : Prop where
  withinGoals : t.service.store.WithinGoals
  serves : ∀ c ∈ t.clients, c.call.Serves c.demand
  cast : (castVotes t.clients).Perm t.service.store.votes.rows

variable {t : Traffic}

theorem client_advance {n : Nat} {client : Client} (hn : t.clients[n]? = some client)
    (c : Conditions) : (t.advance n c).clients[n]? =
      some ⟨client.demand, (t.service.step c client.call).2⟩ := by
  rw [advance_of_found hn]
  exact List.getElem?_set_self (List.getElem?_eq_some_iff.1 hn).1

theorem service_advance {n : Nat} {client : Client} (hn : t.clients[n]? = some client)
    (c : Conditions) : (t.advance n c).service = (t.service.step c client.call).1 := by
  rw [advance_of_found hn]

theorem Regular.advance (h : t.Regular) (n : Nat) (c : Conditions) : (t.advance n c).Regular := by
  cases hn : t.clients[n]? with
  | none => simpa only [Traffic.advance, hn] using h
  | some client =>
    obtain ⟨hlt, rfl⟩ := List.getElem?_eq_some_iff.1 hn
    have hserves := h.serves _ (List.getElem_mem hlt)
    have hmoves := t.service.moves_step c t.clients[n].call
    have hmove := hmoves.storeMove h.withinGoals hserves
    -- the client that takes the step is told apart from all others
    have hfront : (t.clients[n].call.castVote?.toList ++ castVotes (t.clients.eraseIdx n)).Perm
        t.service.store.votes.rows := by
      rw [← castVotes_cons]
      exact ((List.getElem_cons_eraseIdx_perm hlt).filterMap _).trans h.cast
    rw [advance_of_found hn]
    refine ⟨hmove.withinGoals hserves h.withinGoals, ?_, ?_⟩
    · intro client hclient
      rcases List.mem_or_eq_of_mem_set hclient with hclient | rfl
      · exact h.serves client hclient
      · exact hmoves.serves h.withinGoals hserves
    · refine ((List.set_perm_cons_eraseIdx hlt _).filterMap _).trans ?_
      have hback := hmove.cast hfront
      rwa [← castVotes_cons
        ⟨t.clients[n].demand, (t.service.step c t.clients[n].call).2⟩] at hback

theorem Regular.step (h : t.Regular) (e : Event) : (t.step e).Regular := by
  cases e with
  | arrive d now =>
    refine ⟨h.withinGoals, ?_, ?_⟩
    · intro client hclient
      rcases List.mem_append.1 hclient with hclient | hclient
      · exact h.serves client hclient
      · rw [List.mem_singleton.1 hclient]
        exact d.start_serves t.service now
    · have hnone : castVotes (t.clients ++ [⟨d, d.start t.service now⟩]) = castVotes t.clients := by
        simp [castVotes, d.start_castVote?]
      exact hnone ▸ h.cast
  | advance n c => exact h.advance n c
  | switchStore available => exact ⟨h.withinGoals, h.serves, h.cast⟩
  | work n c =>
    have hstore : (t.step (.work n c)).service.store = t.service.store := store_work ..
    refine ⟨?_, h.serves, ?_⟩
    · rw [hstore]
      exact h.withinGoals
    · rw [hstore]
      exact h.cast
  | ledger action => exact ⟨h.withinGoals, h.serves, h.cast⟩

theorem regular_run (settings : Settings) (cache : CacheConfig) (ledger : Ledger.Peer)
    (events : List Event) : ((start settings cache ledger).run events).Regular := by
  induction events using List.reverseRecOn with
  | nil =>
    exact ⟨fun p hp => absurd hp List.not_mem_nil, fun c hc => absurd hc List.not_mem_nil,
      List.Perm.refl _⟩
  | append_singleton events e ih =>
    rw [run_concat]
    exact ih.step e

end Traffic

end AuditedPetitions
