import AuditedPetitions.Proofs.Cache.Expiry
import AuditedPetitions.Proofs.Petition.CacheKeys
import AuditedPetitions.Proofs.Petition.Records
import AuditedPetitions.Proofs.Petition.ServiceSteps

/-! Fresh caches. An entry is fresh when it reads back as what is written of the store's answer to the
query of its key.
A write outdates the entries of its petition and of the listings, and no others; the effects that
follow it remove them, the listings in two steps. Expiry and failing reads and fills remove entries
or leave them, and so never make one outdated. -/

namespace AuditedPetitions

/-- Every live entry, but for those under outdated keys, reads back as the answer of the store to the
query of its key, as far as its times are told by what is written. -/
def Fresh (s : Store) (m : Cache.ExpiringMap) (now : Nat) (outdated : String → Prop) : Prop :=
  ∀ key e, m.get? key = some e → e.isLive now = true → ¬ outdated key →
    ∀ q : Query, q.HasKey key → ∀ reply, q.codec.ofText? e.text = some reply →
      ∃ stored, q.answer s = .ok stored ∧ reply = stored.asRead

namespace Fresh

open Cache

variable {s : Store} {m : ExpiringMap} {now : Nat} {outdated : String → Prop}

theorem empty : Fresh s .empty now outdated := fun _ _ h => by cases h

theorem later (h : Fresh s m now outdated) {next : Nat} (hle : now ≤ next) :
    Fresh s m next outdated := by
  intro key e hget live
  refine h key e hget ?_
  simp only [Entry.isLive, decide_eq_true_eq] at live ⊢
  omega

theorem widen (h : Fresh s m now outdated) {wider : String → Prop}
    (hw : ∀ key, outdated key → wider key) : Fresh s m now wider :=
  fun key e hget live hkey => h key e hget live (hkey ∘ hw key)

theorem delete (h : Fresh s m now outdated) {keys : List String} {left : String → Prop}
    (hleft : ∀ key, outdated key → key ∈ keys ∨ left key) :
    Fresh s (m.delete keys).2 now left := by
  intro key e hget live hkey
  rw [ExpiringMap.get?_delete] at hget
  split at hget
  · cases hget
  · rename_i hkeys
    exact h key e hget live fun ho => (hleft key ho).elim hkeys hkey

theorem get (h : Fresh s m now outdated) (k : String) : Fresh s (m.get now k).2 now outdated := by
  intro key e hget
  rw [ExpiringMap.get?_get] at hget
  split at hget
  · exact h key e (Option.filter_eq_some_iff.1 hget).1
  · exact h key e hget

theorem found (h : Fresh s m now outdated) {start : String} {left : String → Prop}
    (hleft : ∀ key, outdated key → start.toList <+: key.toList ∨ left key) :
    Fresh s m now fun key => key ∈ m.scan now start ∨ left key := by
  intro key e hget live hkey
  refine h key e hget live fun ho => ?_
  cases hleft key ho with
  | inl hstart =>
    have hlive : m.Live now key := ⟨e, hget, of_decide_eq_true live⟩
    exact hkey (.inl (ExpiringMap.mem_scan.2 ⟨hlive, hstart⟩))
  | inr hl => exact hkey (.inr hl)

theorem set (h : Fresh s m now outdated) {q : Query} {key : String} {reply : Reply}
    (hkey : q.HasKey key) (hanswer : q.answer s = .ok reply) (ttl : Nat) :
    Fresh s (m.set now key (q.codec.text reply) ttl) now outdated := by
  intro k e hget live hk r hr found hfound
  rw [ExpiringMap.get?_set] at hget
  split at hget
  · rename_i hsame
    cases hget
    -- the key of the new entry belongs to the query that it answers, and to no other
    have hq : r = q := hr.unique (hsame ▸ hkey)
    rw [hq, (Query.readsAs_answer hanswer).ofText?_text, Option.some.injEq] at hfound
    exact ⟨reply, hq ▸ hanswer, hfound.symm⟩
  · exact h k e hget live hk r hr found hfound

end Fresh

/-- One petition is written, whether it is new or not. -/
structure Store.Writes (s s' : Store) (p : Petition) : Prop where
  petitions : s'.petitions = s.petitions.put p
  available : s'.available = s.available

theorem Store.Writes.answer {s s' : Store} {p : Petition} (w : s.Writes s' p) {id : Uuid}
    (hne : p.id ≠ id) : (Query.petition id).answer s' = (Query.petition id).answer s := by
  simp only [Query.answer, getById, checkAvailable, w.available, w.petitions, PetitionTable.live,
    Table.get?_put, if_neg hne]

theorem Query.get?_of_answer {id : Uuid} {s : Store} {reply : Reply}
    (h : (Query.petition id).answer s = .ok reply) : s.petitions.get? id ≠ none := by
  obtain ⟨p, hp, -⟩ := answer_eq_ok.1 h
  have hlive := (Store.getById_eq_ok.1 hp).2
  rw [(PetitionTable.live_eq_ok.1 hlive).1]
  exact Option.some_ne_none p

theorem Fresh.write {s s' : Store} {m : Cache.ExpiringMap} {now : Nat} {outdated : String → Prop}
    {p : Petition} (h : Fresh s m now fun _ => False) (w : s.Writes s' p)
    (hlisting : ∀ key, CacheKey.listing.toList <+: key.toList → outdated key)
    (hpetition : outdated (CacheKey.petition p.id) ∨ s.petitions.get? p.id = none) :
    Fresh s' m now outdated := by
  intro key e hget live hkey q hq reply hreply
  obtain ⟨stored, hold, hread⟩ := h key e hget live not_false q hq reply hreply
  cases q with
  | listing limit offset => exact absurd (hlisting key hq.listing_isPrefix) hkey
  | petition id =>
    cases hq
    by_cases hid : p.id = id
    · subst hid
      cases hpetition with
      | inl ho => exact absurd ho hkey
      | inr hnew => exact absurd hnew (Query.get?_of_answer hold)
    · exact ⟨stored, (w.answer hid).trans hold, hread⟩

/-- Keys that an effect is there to remove. -/
def Effect.Outdates (key : String) : Effect → Prop
  | .dropPetition id => key = CacheKey.petition id
  | .findListings => CacheKey.listing.toList <+: key.toList
  | .dropListings keys => key ∈ keys
  | .record _ | .awaitSeal .. => False

/-- Whether an effect asks the cache to remove entries. -/
def Effect.invalidates : Effect → Bool
  | .dropPetition _ | .findListings | .dropListings _ => true
  | .record _ | .awaitSeal .. => false

/-- Keys that the effects ahead of a call are there to remove. -/
def Call.Outdates (key : String) : Call → Prop
  | .settle effects _ => ∃ e ∈ effects, e.Outdates key
  | _ => False

/-- What a read carries belongs together: its key to its query, and its reply to the store. -/
def Call.Carries (s : Store) : Call → Prop
  | .look q key => q.HasKey key
  | .load q key => ∀ k ∈ key, q.HasKey k
  | .fill q key reply => q.HasKey key ∧ q.answer s = .ok reply
  | _ => True

/-- The store answers what is read from it, and the cache removes what it is asked to. -/
def Conditions.Suits (c : Conditions) : Call → Prop
  | .load .. => c.store = none
  | .settle (e :: _) _ => e.invalidates = true → c.cache = none
  | _ => True

instance (c : Conditions) : ∀ call, Decidable (c.Suits call)
  | .load .. => inferInstanceAs (Decidable (c.store = none))
  | .settle (e :: _) _ => inferInstanceAs (Decidable (e.invalidates = true → c.cache = none))
  | .settle [] _ | .create .. | .delete _ | .preflight _ | .examine _ | .commit .. | .look ..
  | .fill .. | .done _ => .isTrue trivial

/-- Settings and cache are the same. -/
structure Service.Keeps (s s' : Service) : Prop where
  settings : s'.settings = s.settings
  cache : s'.cache = s.cache

namespace Service

theorem keeps_record (s : Service) (c : Conditions) (d : Ledger.Draft) :
    s.Keeps (s.record c d).1 := by
  unfold record
  split
  · exact ⟨rfl, rfl⟩
  · dsimp only
    split <;> exact ⟨rfl, rfl⟩

theorem keeps_noteReply (s : Service) (description : String) (r : Ledger.Reply) :
    s.Keeps (s.noteReply description r) := by cases r <;> exact ⟨rfl, rfl⟩

theorem keeps_closeVote (s : Service) (voter petition : Uuid)
    (result : Outcome PetitionError Vote) : s.Keeps (s.closeVote voter petition result).1 := by
  unfold closeVote
  split <;> exact ⟨rfl, rfl⟩

theorem keeps_runTask (s : Service) (c : Conditions) (task : Task) :
    s.Keeps (s.runTask c task) := by
  match task with
  | .index d =>
    simp only [runTask]
    split <;> exact ⟨rfl, rfl⟩
  | .seal pending description =>
    simp only [runTask]
    split
    · exact ⟨rfl, rfl⟩
    · exact keeps_noteReply ..

end Service

theorem Cache.remove_reachable (now : Nat) (keys : List String) (c : Cache ExpiringMap) :
    c.remove (ExpiringMap.backend now none) keys =
      (.ok (c.state.delete keys).1, ⟨(c.state.delete keys).2,
        c.metrics.recordRemoved (c.state.delete keys).1⟩) := rfl

theorem Cache.find_reachable (now : Nat) (start : String) (c : Cache ExpiringMap) :
    c.find (ExpiringMap.backend now none) start = (.ok (c.state.scan now start), c) := rfl

namespace Service

theorem fresh_perform {s : Service} {c : Conditions} {e : Effect} {effects : List Effect}
    (h : Fresh s.store s.cache.state c.moment fun key => ∃ x ∈ e :: effects, x.Outdates key)
    (hc : e.invalidates = true → c.cache = none) :
    Fresh (s.perform c e).1.store (s.perform c e).1.cache.state c.moment
      fun key => ∃ x ∈ (s.perform c e).2 ++ effects, x.Outdates key := by
  have parts (key : String) : (∃ x ∈ e :: effects, x.Outdates key) →
      e.Outdates key ∨ ∃ x ∈ effects, x.Outdates key := by
    rintro ⟨x, hx, ho⟩
    cases List.mem_cons.1 hx with
    | inl hx => exact .inl (hx ▸ ho)
    | inr hx => exact .inr ⟨x, hx, ho⟩
  -- effects on other collaborators than the cache
  have aside (more : List Effect) (he : ∀ key, ¬ e.Outdates key) :
      Fresh s.store s.cache.state c.moment fun key => ∃ x ∈ more ++ effects, x.Outdates key := by
    refine h.widen fun key ho => ?_
    obtain ⟨x, hx, hox⟩ := (parts key ho).resolve_left (he key)
    exact ⟨x, List.mem_append_right _ hx, hox⟩
  rw [store_perform]
  cases e with
  | record d =>
    rw [perform, (keeps_record s c d).cache]
    exact aside _ fun key => id
  | awaitSeal pending description =>
    simp only [perform]
    split
    · exact aside _ fun key => id
    · rw [(keeps_noteReply ..).cache]
      exact aside _ fun key => id
  | dropPetition id =>
    simp only [perform, Conditions.backend, hc rfl, Cache.remove_reachable]
    refine h.delete fun key ho => ?_
    cases parts key ho with
    | inl hkey => exact .inl (List.mem_singleton.2 hkey)
    | inr hrest => exact .inr hrest
  | findListings =>
    have hfound := h.found parts
    simp only [perform, Conditions.backend, hc rfl, Cache.find_reachable]
    split
    · rename_i hnil
      simp only [Prod.mk.injEq, Except.ok.injEq] at hnil
      obtain ⟨hnil, rfl⟩ := hnil
      refine hfound.widen fun key ho => ?_
      rw [hnil] at ho
      exact ho.resolve_left List.not_mem_nil
    · rename_i keys _ _ hkeys
      simp only [Prod.mk.injEq, Except.ok.injEq] at hkeys
      obtain ⟨rfl, rfl⟩ := hkeys
      refine hfound.widen fun key ho => ?_
      cases ho with
      | inl hkey => exact ⟨_, List.mem_cons_self, hkey⟩
      | inr hrest =>
        obtain ⟨x, hx, hox⟩ := hrest
        exact ⟨x, List.mem_cons_of_mem _ hx, hox⟩
    · rename_i herror
      cases congrArg Prod.fst herror
  | dropListings keys =>
    simp only [perform, Conditions.backend, hc rfl, Cache.remove_reachable]
    exact h.delete parts

end Service

namespace Fresh

variable {s : Store} {c : Cache Cache.ExpiringMap} {now : Nat} {outdated : String → Prop}
  {q : Query} {key : String} {reply : Reply} {fault : Option Cache.Error}

theorem lookup (h : Fresh s c.state now outdated) (fault : Option Cache.Error) (q : Query)
    (key : String) :
    Fresh s (c.lookup (Cache.ExpiringMap.backend now fault) q.codec key).2.state now outdated := by
  cases fault with
  | none => exact h.get key
  | some e => exact h

theorem hit (h : Fresh s c.state now outdated) (hkey : q.HasKey key) (ho : ¬ outdated key)
    (hhit : (c.lookup (Cache.ExpiringMap.backend now fault) q.codec key).1 = .hit reply) :
    ∃ stored, q.answer s = .ok stored ∧ reply = stored.asRead := by
  obtain ⟨text, htext, hreply⟩ := Cache.lookup_hit hhit
  cases fault with
  | none =>
    rw [Cache.ExpiringMap.backend, Except.ok.injEq, Cache.ExpiringMap.get_eq,
      Option.map_eq_some_iff] at htext
    obtain ⟨e, he, rfl⟩ := htext
    obtain ⟨hget, live⟩ := Option.filter_eq_some_iff.1 he
    exact h key e hget live ho q hkey reply hreply
  | some e => cases htext

theorem fill (h : Fresh s c.state now outdated) (hkey : q.HasKey key)
    (hanswer : q.answer s = .ok reply) (fault : Option Cache.Error) (ttl : Nat) :
    Fresh s (c.fill (Cache.ExpiringMap.backend now fault) q.codec key reply ttl).2.state now
      outdated := by
  cases fault with
  | none =>
    by_cases hrange : now + ttl < Cache.clockEnd
    · simpa only [Cache.fill, Cache.ExpiringMap.backend, if_pos hrange] using
        h.set hkey hanswer ttl
    · simpa only [Cache.fill, Cache.ExpiringMap.backend, if_neg hrange] using h
  | some e => exact h

end Fresh

/-- What holds of a service while a call is under way: only the keys that its effects will remove are
outdated. -/
structure Service.Coherent (s : Service) (now : Nat) (call : Call) : Prop where
  fresh : Fresh s.store s.cache.state now fun key => call.Outdates key
  carries : call.Carries s.store

namespace Service

variable {s : Service} {now : Nat}

theorem Moves.coherent {s' : Service} {c : Conditions} {call next : Call}
    (h : s.Moves c call s' next) (hs : s.Coherent c.moment call) (hc : c.Suits call)
    (within : s.store.WithinGoals)
    (hnew : ∀ id, call.newId? = some id → s.store.petitions.get? id = none) :
    s'.Coherent c.moment next := by
  cases h with
  | refused h => cases h <;> exact ⟨hs.fresh, trivial⟩
  | written h =>
    cases h with
    | create made answer =>
      subst made
      obtain ⟨-, rfl⟩ := Store.create_eq_ok.1 (Conditions.atStore_eq_ok.1 answer).2
      refine ⟨hs.fresh.write ⟨rfl, rfl⟩ ?_ (.inr (hnew _ rfl)), trivial⟩
      exact fun key hkey => ⟨.findListings, List.mem_cons_self, hkey⟩
    | @delete id store answer =>
      obtain ⟨-, p, live, rfl⟩ := Store.delete_eq_ok.1 (Conditions.atStore_eq_ok.1 answer).2
      have hid : p.id = id := Table.key_of_get? (PetitionTable.live_eq_ok.1 live).1
      refine ⟨hs.fresh.write (p := p.delete c.now) ⟨rfl, rfl⟩ ?_ (.inl ?_), trivial⟩
      · exact fun key hkey => ⟨.findListings, by simp, hkey⟩
      · exact ⟨.dropPetition id, List.mem_cons_self, congrArg CacheKey.petition hid⟩
    | @vote b type v store made answer =>
      obtain ⟨-, -, p, live, -, rfl⟩ :=
        (Store.vote_eq_ok within).1 (Conditions.atStore_eq_ok.1 answer).2
      have hid : p.id = v.petitionId := Table.key_of_get? (PetitionTable.live_eq_ok.1 live).1
      refine ⟨hs.fresh.write (p := p.withVote v.voteType c.now) ⟨rfl, rfl⟩ ?_ (.inl ?_), trivial⟩
      · exact fun key hkey => ⟨.findListings, by simp, hkey⟩
      · refine ⟨.dropPetition v.petitionId, by simp, ?_⟩
        rw [Petition.withVote_id, hid]
        rfl
  | passed h => cases h <;> exact ⟨hs.fresh, trivial⟩
  | @ended call voter petition result h =>
    have hfresh : Fresh s.store s.cache.state c.moment fun _ => False :=
      hs.fresh.widen fun key ho => by cases h <;> simp [Call.Outdates] at ho
    refine ⟨?_, trivial⟩
    rw [store_closeVote, (keeps_closeVote s voter petition result).cache]
    exact hfresh
  | performed => exact ⟨fresh_perform hs.fresh hc, trivial⟩
  | replied h =>
    refine ⟨hs.fresh.widen fun key ho => ?_, trivial⟩
    exact ho.elim fun x hx => List.not_mem_nil hx.1
  | fetched h =>
    cases h with
    | hit found => exact ⟨hs.fresh.lookup c.cache _ _, trivial⟩
    | miss found =>
      refine ⟨hs.fresh.lookup c.cache _ _, fun k hk => ?_⟩
      rw [← Option.some.inj hk]
      exact hs.carries
    | load answer => exact ⟨hs.fresh, trivial⟩
    | keep answer => exact ⟨hs.fresh, hs.carries _ rfl, (Conditions.atStore_eq_ok.1 answer).2⟩
    | fill stored => exact ⟨hs.fresh.fill hs.carries.1 hs.carries.2 c.cache _, trivial⟩
    | overrun stored => exact ⟨hs.fresh.fill hs.carries.1 hs.carries.2 c.cache _, trivial⟩
  | rest => exact hs

end Service

end AuditedPetitions
