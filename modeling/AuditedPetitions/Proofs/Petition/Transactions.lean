import AuditedPetitions.Proofs.Petition.StoreLaws

/-! Transactions. The body of a transaction increments tallies on copies of the petitions, each made
when its petition is first touched, and the copies take their places at the end. Nothing tells the
copies from petitions that are changed in place: as long as no increment fails the two look the same,
and they fail alike. So a transaction that succeeds is the same increments made one after the other,
and one that fails has made none. -/

namespace AuditedPetitions

namespace Table

variable {κ α : Type} {key : α → κ} [DecidableEq κ]

theorem get?_putAll (t : Table key) {rows : List α} (h : (rows.map key).Nodup) (k : κ) :
    (t.putAll rows).get? k = (rows.find? (key · = k)).or (t.get? k) := by
  induction rows generalizing t with
  | nil => rfl
  | cons r rs ih =>
    simp only [List.map_cons, List.nodup_cons] at h
    have hrest := ih (t.put r) h.2
    simp only [putAll, List.foldl_cons] at hrest ⊢
    rw [hrest, get?_put]
    by_cases hr : key r = k
    · have hnone : rs.find? (key · = k) = none := by
        rw [List.find?_eq_none]
        intro b hb hkey
        exact h.1 (hr ▸ of_decide_eq_true hkey ▸ List.mem_map_of_mem hb)
      simp [hr, hnone]
    · simp [hr]

theorem keys_putAll_of_old {t : Table key} {rows : List α}
    (h : ∀ a ∈ rows, key a ∈ t.rows.map key) :
    (t.putAll rows).rows.map key = t.rows.map key := by
  induction rows generalizing t with
  | nil => rfl
  | cons r rs ih =>
    have hput : (t.put r).rows.map key = t.rows.map key :=
      keys_putRow_of_old (h r List.mem_cons_self)
    have hrest := ih (t := t.put r) fun a ha => hput ▸ h a (List.mem_cons_of_mem r ha)
    exact hrest.trans hput

theorem rows_eq (t : Table key) : t.rows = (t.rows.map key).filterMap t.get? := by
  rw [List.filterMap_map]
  symm
  refine (List.filterMap_congr fun a ha => ?_).trans List.filterMap_some
  exact get?_of_mem ha

theorem ext_get? {t u : Table key} (hkeys : t.rows.map key = u.rows.map key)
    (h : ∀ k, t.get? k = u.get? k) : t = u := by
  have hrows : t.rows = u.rows := by
    rw [t.rows_eq, u.rows_eq, hkeys]
    exact List.filterMap_congr fun k _ => h k
  cases t
  cases u
  cases hrows
  rfl

end Table

theorem Petition.addVote_frame {p q : Petition} {type : VoteType} {now : Instant}
    (h : p.addVote type now = .ok q) : q.id = p.id ∧ q.isDeleted = p.isDeleted := by
  obtain ⟨reached, -, h⟩ := Outcome.bind_eq_ok.1 h
  split at h
  · cases h
  · split at h
    all_goals
      obtain ⟨votes, -, h⟩ := Outcome.bind_eq_ok.1 h
      cases h
      exact ⟨rfl, rfl⟩

namespace Store

/-- Increments one after the other in the store itself, up to the first that fails. -/
def incrementAll : List Increment → Store → Outcome StoreError Store
  | [], s => .ok s
  | i :: is, s => do incrementAll is (← s.increment i)

theorem increment_eq_ok {s s' : Store} {i : Increment} :
    s.increment i = .ok s' ↔ s.available = true ∧ ∃ p q, s.petitions.live i.petitionId = .ok p ∧
      p.addVote i.type i.now = .ok q ∧ s' = s.seed q := by
  simp only [increment, Outcome.bind_eq_ok, checkAvailable_eq_ok, pure, Except.pure, Except.ok.injEq]
  exact ⟨fun ⟨_, ha, p, hp, q, hq, hs⟩ => ⟨ha, p, q, hp, hq, hs.symm⟩,
    fun ⟨ha, p, q, hp, hq, hs⟩ => ⟨(), ha, p, hp, q, hq, hs.symm⟩⟩

theorem WithinGoals.seed {s : Store} (h : s.WithinGoals) {p : Petition} (hp : p.WithinGoal) :
    (s.seed p).WithinGoals := by
  intro q hq
  rcases Table.mem_rows_put.1 hq with rfl | ⟨-, hq⟩
  · exact hp
  · exact h q hq

theorem WithinGoals.increment {s s' : Store} (h : s.WithinGoals) {i : Increment}
    (hs : s.increment i = .ok s') : s'.WithinGoals := by
  obtain ⟨-, p, q, hp, hq, rfl⟩ := increment_eq_ok.1 hs
  have hwithin := h.live hp
  rw [Petition.addVote_eq hwithin] at hq
  split at hq
  · cases hq
  · rename_i hfree
    cases hq
    exact h.seed (hwithin.withVote (Int.not_le.1 hfree) i.type i.now)

theorem WithinGoals.incrementAll {s s' : Store} (h : s.WithinGoals) {is : List Increment}
    (hs : incrementAll is s = .ok s') : s'.WithinGoals := by
  induction is generalizing s with
  | nil =>
    cases hs
    exact h
  | cons i is ih =>
    obtain ⟨next, hnext, hs⟩ := Outcome.bind_eq_ok.1 hs
    exact ih (h.increment hnext) hs

end Store

namespace Staging

/-- The staging looks like the petitions of a store in which the same was done in place. -/
structure Mirrors (st : Staging) (s : Store) : Prop where
  available : s.available = true
  seen : ∀ id, (st.touched.get? id).or (st.live.get? id) = s.petitions.get? id
  keys : s.petitions.rows.map Petition.id = st.live.rows.map Petition.id
  /-- Copies are of petitions that are there and not deleted. -/
  copies : ∀ p ∈ st.touched.rows, p.isDeleted = false ∧ p.id ∈ st.live.rows.map Petition.id

namespace Mirrors

variable {st : Staging} {s : Store}

theorem start (h : s.available = true) : Mirrors ⟨s.petitions, .empty⟩ s :=
  ⟨h, fun _ => rfl, rfl, fun p hp => by cases hp⟩

theorem petition_eq (h : st.Mirrors s) (id : Uuid) : st.petition id = s.petitions.live id := by
  have hseen := h.seen id
  unfold petition
  split
  · rename_i p hp
    rw [hp, Option.some_or] at hseen
    have hopen := (h.copies p (Table.mem_of_get? hp)).1
    exact (PetitionTable.live_eq_ok.2 ⟨hseen.symm, hopen⟩).symm
  · rename_i hnone
    rw [hnone, Option.none_or] at hseen
    rw [PetitionTable.live, PetitionTable.live, hseen]

theorem touch (h : st.Mirrors s) {p q : Petition} {id : Uuid} (hp : s.petitions.live id = .ok p)
    (hid : q.id = p.id) (hopen : q.isDeleted = p.isDeleted) :
    Mirrors { st with touched := st.touched.put q } (s.seed q) := by
  obtain ⟨hfound, hlive⟩ := PetitionTable.live_eq_ok.1 hp
  have hkey := Table.key_of_get? hfound
  have hold : s.petitions.get? q.id = some p := by rw [hid, hkey, hfound]
  have hkeys : (s.seed q).petitions.rows.map Petition.id = st.live.rows.map Petition.id :=
    (Table.keys_put_of_old hold).trans h.keys
  refine ⟨h.available, fun k => ?_, hkeys, fun r hr => ?_⟩
  · have hseen := h.seen k
    simp only [Store.seed, Table.get?_put]
    split
    · rfl
    · exact hseen
  · rcases Table.mem_rows_put.1 hr with rfl | ⟨-, hr⟩
    · refine ⟨hopen.trans hlive, ?_⟩
      rw [← h.keys, hid]
      exact List.mem_map_of_mem (Table.mem_of_get? hfound)
    · exact h.copies r hr

theorem committed_eq (h : st.Mirrors s) : st.committed = s.petitions := by
  refine Table.ext_get? ?_ fun id => ?_
  · have hold : st.committed.rows.map Petition.id = st.live.rows.map Petition.id :=
      Table.keys_putAll_of_old fun p hp => (h.copies p hp).2
    exact hold.trans h.keys.symm
  · rw [← h.seen id]
    exact Table.get?_putAll st.live st.touched.keys_nodup id

theorem increment (h : st.Mirrors s) (i : Increment) :
    (∃ f, st.increment i = .error f ∧ s.increment i = .error f) ∨
      ∃ st' s', st.increment i = .ok st' ∧ s.increment i = .ok s' ∧ st'.Mirrors s' ∧
        s'.votes = s.votes := by
  have hcheck : s.checkAvailable = .ok () := Store.checkAvailable_eq_ok.2 h.available
  simp only [Staging.increment, Store.increment, hcheck, h.petition_eq]
  cases hp : s.petitions.live i.petitionId with
  | error f => exact .inl ⟨f, rfl, rfl⟩
  | ok p =>
    simp only [bind, Except.bind]
    cases hq : p.addVote i.type i.now with
    | error f => exact .inl ⟨f, rfl, rfl⟩
    | ok q =>
      obtain ⟨hid, hopen⟩ := Petition.addVote_frame hq
      exact .inr ⟨_, _, rfl, rfl, h.touch hp hid hopen, rfl⟩

end Mirrors

/-- Increments in order, up to the first that fails: what they come to, and the staging as they leave
it, failed or not. -/
def attempt : List Increment → Staging → Outcome StoreError Unit × Staging
  | [], st => (.ok (), st)
  | i :: is, st =>
    match st.increment i with
    | .error f => (.error f, st)
    | .ok st => attempt is st

theorem incrementAll_eq (is : List Increment) (st : Staging) :
    incrementAll is st = (attempt is st).1.map fun _ => (attempt is st).2 := by
  induction is generalizing st with
  | nil => rfl
  | cons i is ih =>
    simp only [incrementAll, attempt]
    cases st.increment i with
    | error f => rfl
    | ok next => exact ih next

theorem live_increment {st st' : Staging} {i : Increment} (h : st.increment i = .ok st') :
    st'.live = st.live := by
  obtain ⟨p, -, h⟩ := Outcome.bind_eq_ok.1 h
  obtain ⟨q, -, h⟩ := Outcome.bind_eq_ok.1 h
  cases h
  rfl

theorem live_attempt (is : List Increment) (st : Staging) : (attempt is st).2.live = st.live := by
  induction is generalizing st with
  | nil => rfl
  | cons i is ih =>
    simp only [attempt]
    cases hi : st.increment i with
    | error f => rfl
    | ok next => exact (ih next).trans (live_increment hi)

theorem Mirrors.attempt {st : Staging} {s : Store} (h : st.Mirrors s) (is : List Increment) :
    (∃ f, (attempt is st).1 = .error f ∧ Store.incrementAll is s = .error f) ∨
      ∃ s', (attempt is st).1 = .ok () ∧ Store.incrementAll is s = .ok s' ∧
        (attempt is st).2.Mirrors s' ∧ s'.votes = s.votes := by
  induction is generalizing st s with
  | nil => exact .inr ⟨s, rfl, rfl, h, rfl⟩
  | cons i is ih =>
    simp only [Staging.attempt, Store.incrementAll]
    rcases h.increment i with ⟨f, hst, hs⟩ | ⟨st', s', hst, hs, hnext, hvotes⟩
    · rw [hst, hs]
      exact .inl ⟨f, rfl, rfl⟩
    · rw [hst, hs]
      rcases ih hnext with hfails | ⟨s'', hok, hall, hmirrors, hkept⟩
      · exact .inl hfails
      · exact .inr ⟨s'', hok, hall, hmirrors, hkept.trans hvotes⟩

/-- The increments that change anything are those that succeed, in whatever way the body of a
transaction goes about them. -/
def Works (body : Staging → Outcome StoreError Staging) : Prop :=
  ∀ st st', body st = .ok st' → ∃ is, incrementAll is st = .ok st'

/-- A body may take no notice of refusals: it works by the increments that were not refused. -/
theorem incrementAny_works (is : List Increment) : Works (incrementAny is) := by
  induction is with
  | nil =>
    intro st st' h
    cases h
    exact ⟨[], rfl⟩
  | cons i is ih =>
    intro st st' h
    simp only [incrementAny] at h
    split at h
    · cases h
    · exact ih st st' h
    · rename_i next hnext
      obtain ⟨js, hjs⟩ := ih next st' h
      refine ⟨i :: js, ?_⟩
      simp only [incrementAll, hnext]
      exact hjs

end Staging

/-- The body of a transaction: increments, up to the first that fails, and then a refusal of its own,
if it has one. -/
structure Body where
  increments : List Increment
  refusal : Option StoreError

namespace Body

def run (b : Body) (st : Staging) : Outcome StoreError Staging := do
  let st ← Staging.incrementAll b.increments st
  b.refusal.elim (.ok st) refuse

/-- What the body comes to, and the staging as it leaves it, failed or not. -/
def attempt (b : Body) (st : Staging) : Outcome StoreError Unit × Staging :=
  match Staging.attempt b.increments st with
  | (.error f, st) => (.error f, st)
  | (.ok (), st) => (b.refusal.elim (.ok ()) refuse, st)

theorem run_eq (b : Body) (st : Staging) :
    b.run st = (b.attempt st).1.map fun _ => (b.attempt st).2 := by
  simp only [run, attempt, Staging.incrementAll_eq]
  rcases Staging.attempt b.increments st with ⟨f | _, st'⟩
  · rfl
  · cases b.refusal <;> rfl

/-- A transaction works by the increments of its body, so it leads from one reachable store to another. -/
theorem run_works (b : Body) : Staging.Works b.run := by
  intro st st' h
  obtain ⟨next, hnext, h⟩ := Outcome.bind_eq_ok.1 h
  cases hrefusal : b.refusal with
  | some e => simp [hrefusal, refuse] at h
  | none =>
    rw [hrefusal] at h
    cases h
    exact ⟨b.increments, hnext⟩

theorem live_attempt (b : Body) (st : Staging) : (b.attempt st).2.live = st.live := by
  have h := Staging.live_attempt b.increments st
  unfold attempt
  split
  · rename_i hst
    rwa [hst] at h
  · rename_i hst
    rwa [hst] at h

/-- How a body can end on the copies, told by its increments in the store itself. -/
inductive Ends (b : Body) (s : Store) : Outcome StoreError Unit → Staging → Prop
  | fails {f : Failure StoreError} {st : Staging}
      (direct : Store.incrementAll b.increments s = .error f) : Ends b s (.error f) st
  | refuses {e : StoreError} {st : Staging} {s' : Store}
      (direct : Store.incrementAll b.increments s = .ok s') (refusal : b.refusal = some e) :
      Ends b s (refuse e) st
  | succeeds {st : Staging} {s' : Store} (direct : Store.incrementAll b.increments s = .ok s')
      (refusal : b.refusal = none) (same : st.committed = s'.petitions) : Ends b s (.ok ()) st

theorem ends (b : Body) {s : Store} (h : s.available = true) :
    b.Ends s (b.attempt ⟨s.petitions, .empty⟩).1 (b.attempt ⟨s.petitions, .empty⟩).2 := by
  unfold attempt
  rcases (Staging.Mirrors.start h).attempt b.increments with
    ⟨f, hf, hdirect⟩ | ⟨s', hok, hdirect, hmirrors, -⟩
  · split
    · rename_i hst
      rw [hst] at hf
      cases hf
      exact .fails hdirect
    · rename_i hst
      rw [hst] at hf
      cases hf
  · split
    · rename_i hst
      rw [hst] at hok
      cases hok
    · rename_i hst
      rw [hst] at hmirrors
      cases hrefusal : b.refusal with
      | some e => exact .refuses hdirect hrefusal
      | none => exact .succeeds hdirect hrefusal hmirrors.committed_eq

theorem Ends.error_eq {b : Body} {s : Store} {f : Failure StoreError} {st : Staging} {v : Vote}
    (h : b.Ends s (.error f) st) :
    (Store.incrementAll b.increments s).bind (fun _ => b.refusal.elim (.ok v) refuse) =
      .error f := by
  cases h with
  | fails direct =>
    rw [direct]
    rfl
  | refuses direct refusal =>
    rw [direct, refusal]
    rfl

theorem run_alike (b : Body) {s : Store} (h : s.available = true) (v : Vote) :
    (b.run ⟨s.petitions, .empty⟩).map (fun _ => v) =
      (Store.incrementAll b.increments s).bind fun _ => b.refusal.elim (.ok v) refuse := by
  have hends := b.ends h
  rw [b.run_eq]
  generalize b.attempt ⟨s.petitions, .empty⟩ = ended at hends
  obtain ⟨outcome, st⟩ := ended
  cases outcome with
  | error f => exact hends.error_eq.symm
  | ok _ =>
    cases hends with
    | succeeds direct refusal same =>
      rw [direct, refusal]
      rfl

end Body

namespace Store

/-- A transaction, and the store that it leaves, whatever became of it: where the body fails, the
petitions are those under the copies. -/
def transact (s : Store) (v : Vote) (b : Body) : Outcome StoreError Vote × Store :=
  match s.checkAvailable with
  | .error f => (.error f, s)
  | .ok () =>
    if s.votes.contains v.voterAndPetition then (refuse .duplicateVote, s)
    else if s.petitions.contains v.petitionId then
      match b.attempt ⟨s.petitions, .empty⟩ with
      | (.error f, st) => (.error f, { s with petitions := st.live })
      | (.ok (), st) =>
        (.ok v, { s with petitions := st.committed, votes := s.votes.put v })
    else (refuse .notFound, s)

theorem voteWith_eq (s : Store) (v : Vote) (b : Body) :
    s.voteWith v b.run = (s.transact v b).1.map fun _ => (s.transact v b).2 := by
  simp only [voteWith, transact, b.run_eq]
  cases s.checkAvailable with
  | error f => rfl
  | ok _ =>
    simp only [bind, Except.bind]
    split
    · rfl
    · split
      · rcases b.attempt ⟨s.petitions, .empty⟩ with ⟨f | _, st⟩ <;> rfl
      · rfl

/-- States that the operations of the store lead to from petitions within their goals. -/
inductive Reachable : Store → Prop
  | empty : Reachable .empty
  | seed {s : Store} {p : Petition} (before : Reachable s) (within : p.WithinGoal) :
      Reachable (s.seed p)
  | switch {s : Store} (before : Reachable s) (available : Bool) :
      Reachable { s with available := available }
  | create {s s' : Store} {p : Petition} (before : Reachable s) (within : p.WithinGoal)
      (done : s.create p = .ok s') : Reachable s'
  | increment {s s' : Store} {i : Increment} (before : Reachable s)
      (done : s.increment i = .ok s') : Reachable s'
  | delete {s s' : Store} {id : Uuid} {now : Instant} (before : Reachable s)
      (done : s.delete id now = .ok s') : Reachable s'
  | transaction {s s' : Store} {v : Vote} {body : Staging → Outcome StoreError Staging}
      (before : Reachable s) (works : Staging.Works body) (done : s.voteWith v body = .ok s') :
      Reachable s'

theorem WithinGoals.transaction {s s' : Store} (h : s.WithinGoals) {v : Vote}
    {body : Staging → Outcome StoreError Staging} (works : Staging.Works body)
    (hs : s.voteWith v body = .ok s') : s'.WithinGoals := by
  obtain ⟨_, havailable, hs⟩ := Outcome.bind_eq_ok.1 hs
  split at hs
  · cases hs
  · split at hs
    · obtain ⟨st, hbody, hs⟩ := Outcome.bind_eq_ok.1 hs
      cases hs
      obtain ⟨is, his⟩ := works _ _ hbody
      rw [Staging.incrementAll_eq] at his
      have hstart := Staging.Mirrors.start (checkAvailable_eq_ok.1 havailable)
      rcases hstart.attempt is with ⟨f, hf, -⟩ | ⟨direct, hok, hdirect, hmirrors, -⟩
      · rw [hf] at his
        cases his
      · rw [hok] at his
        cases his
        have hwithin : direct.WithinGoals := h.incrementAll hdirect
        intro p hp
        exact hwithin p (hmirrors.committed_eq ▸ hp)
    · cases hs

theorem Reachable.withinGoals {s : Store} (h : s.Reachable) : s.WithinGoals := by
  induction h with
  | empty => exact fun p hp => by cases hp
  | seed _ hp ih => exact ih.seed hp
  | switch _ _ ih => exact ih
  | create _ hp hs ih =>
    obtain ⟨-, rfl⟩ := create_eq_ok.1 hs
    exact ih.seed hp
  | increment _ hs ih => exact ih.increment hs
  | delete _ hs ih =>
    obtain ⟨-, p, hp, rfl⟩ := delete_eq_ok.1 hs
    exact ih.seed ((ih.live hp).delete _)
  | transaction _ works hs ih => exact ih.transaction works hs

theorem increment_refused {s : Store} (h : s.WithinGoals) (havailable : s.available = true)
    {i : Increment} {f : Failure StoreError} (hf : s.increment i = .error f) :
    f = .refused .notFound ∨ f = .refused .goalReached := by
  have hcheck : s.checkAvailable = .ok () := checkAvailable_eq_ok.2 havailable
  rcases Outcome.bind_eq_error.1 hf with hf | ⟨_, -, hf⟩
  · rw [hcheck] at hf
    cases hf
  rcases Outcome.bind_eq_error.1 hf with hf | ⟨p, hp, hf⟩
  · exact .inl (PetitionTable.live_eq_error hf)
  · rcases Outcome.bind_eq_error.1 hf with hf | ⟨q, -, hf⟩
    · rw [Petition.addVote_eq (h.live hp)] at hf
      split at hf
      · cases hf
        exact .inr rfl
      · cases hf
    · cases hf

theorem incrementAll_refused {s : Store} (h : s.WithinGoals) (havailable : s.available = true)
    {is : List Increment} {f : Failure StoreError} (hf : incrementAll is s = .error f) :
    f = .refused .notFound ∨ f = .refused .goalReached := by
  induction is generalizing s with
  | nil => cases hf
  | cons i is ih =>
    rcases Outcome.bind_eq_error.1 hf with hf | ⟨next, hnext, hf⟩
    · exact increment_refused h havailable hf
    · obtain ⟨-, p, q, -, -, rfl⟩ := increment_eq_ok.1 hnext
      exact ih (h.increment hnext) havailable hf

/-- What a transaction comes to in a store that is available. -/
structure Transacted (s : Store) (v : Vote) (b : Body) (outcome : Outcome StoreError Vote)
    (after : Store) : Prop where
  /-- It is a duplicate exactly if the key of the vote is taken, unless the body refuses it as one. -/
  duplicate : (s.votes.contains v.voterAndPetition = true → outcome = refuse .duplicateVote) ∧
    (b.refusal ≠ some .duplicateVote →
      (outcome = refuse .duplicateVote ↔ s.votes.contains v.voterAndPetition = true))
  /-- Otherwise the petition is looked for. -/
  unknown : s.votes.contains v.voterAndPetition = false →
    s.petitions.contains v.petitionId = false → outcome = refuse .notFound
  /-- Otherwise the body decides. -/
  decided : s.votes.contains v.voterAndPetition = false →
    s.petitions.contains v.petitionId = true →
    outcome = (b.run ⟨s.petitions, .empty⟩).map fun _ => v
  /-- The body fails on the copies as its increments fail in the store itself. -/
  alike : (b.run ⟨s.petitions, .empty⟩).map (fun _ => v) =
    (incrementAll b.increments s).bind fun _ => b.refusal.elim (.ok v) refuse
  /-- Whatever fails is refused and leaves the store as it was. -/
  unchanged : ∀ f, outcome = .error f → after = s ∧ ∃ e, f = .refused e
  /-- What succeeds is the increments, one after the other, and the row of the vote. -/
  serial : ∀ w, outcome = .ok w → w = v ∧ after.available = s.available ∧
    after.votes.rows = s.votes.rows ++ [v] ∧
    ∃ direct, incrementAll b.increments s = .ok direct ∧ after.petitions = direct.petitions

variable {s : Store} {v : Vote} {b : Body}

theorem transact_of_voted (havailable : s.available = true)
    (h : s.votes.contains v.voterAndPetition = true) :
    s.transact v b = (refuse .duplicateVote, s) := by
  have hcheck : s.checkAvailable = .ok () := checkAvailable_eq_ok.2 havailable
  rw [transact, hcheck]
  exact if_pos h

theorem transact_of_unknown (havailable : s.available = true)
    (h : s.votes.contains v.voterAndPetition = false)
    (hunknown : s.petitions.contains v.petitionId = false) :
    s.transact v b = (refuse .notFound, s) := by
  have hcheck : s.checkAvailable = .ok () := checkAvailable_eq_ok.2 havailable
  simp [transact, hcheck, h, hunknown]

theorem transact_of_known (havailable : s.available = true)
    (h : s.votes.contains v.voterAndPetition = false)
    (hknown : s.petitions.contains v.petitionId = true) :
    (∃ f, b.Ends s (.error f) (b.attempt ⟨s.petitions, .empty⟩).2 ∧
        s.transact v b = (.error f, s)) ∨
      ∃ s', incrementAll b.increments s = .ok s' ∧ b.refusal = none ∧
        s.transact v b = (.ok v, { s with petitions := s'.petitions, votes := s.votes.put v }) := by
  have hends := b.ends havailable
  have hlive := b.live_attempt ⟨s.petitions, .empty⟩
  have hcheck : s.checkAvailable = .ok () := checkAvailable_eq_ok.2 havailable
  simp only [transact, hcheck, h, hknown, Bool.false_eq_true, if_false, if_true]
  generalize b.attempt ⟨s.petitions, .empty⟩ = ended at hends hlive
  obtain ⟨outcome, st⟩ := ended
  dsimp only at hends hlive ⊢
  have hleft : { s with petitions := st.live } = s := by rw [hlive]
  cases hends with
  | fails direct => exact .inl ⟨_, .fails direct, congrArg (Prod.mk _) hleft⟩
  | refuses direct refusal =>
    exact .inl ⟨_, .refuses direct refusal, congrArg (Prod.mk _) hleft⟩
  | succeeds direct refusal same =>
    refine .inr ⟨_, direct, refusal, ?_⟩
    dsimp only
    rw [same]

theorem refused_of_ends (h : s.WithinGoals) (havailable : s.available = true)
    {f : Failure StoreError} {st : Staging} (hends : b.Ends s (.error f) st) :
    ∃ e, f = .refused e ∧ (b.refusal = some e ∨ e ≠ .duplicateVote) := by
  cases hends with
  | fails direct =>
    rcases incrementAll_refused h havailable direct with rfl | rfl
    · exact ⟨.notFound, rfl, .inr (by decide)⟩
    · exact ⟨.goalReached, rfl, .inr (by decide)⟩
  | refuses direct refusal => exact ⟨_, rfl, .inl refusal⟩

namespace Transacted

theorem voted (havailable : s.available = true)
    (h : s.votes.contains v.voterAndPetition = true) :
    s.Transacted v b (refuse .duplicateVote) s where
  duplicate := ⟨fun _ => rfl, fun _ => iff_of_true rfl h⟩
  unknown hfree := absurd (h.symm.trans hfree) (by decide)
  decided hfree := absurd (h.symm.trans hfree) (by decide)
  alike := b.run_alike havailable v
  unchanged f hf := by
    cases hf
    exact ⟨rfl, _, rfl⟩
  serial w hw := by cases hw

theorem not_found (havailable : s.available = true)
    (h : s.votes.contains v.voterAndPetition = false)
    (hunknown : s.petitions.contains v.petitionId = false) :
    s.Transacted v b (refuse .notFound) s where
  duplicate := by simp [h, refuse]
  unknown _ _ := rfl
  decided _ hthere := absurd (hunknown.symm.trans hthere) (by decide)
  alike := b.run_alike havailable v
  unchanged f hf := by
    cases hf
    exact ⟨rfl, _, rfl⟩
  serial w hw := by cases hw

theorem failed (within : s.WithinGoals) (havailable : s.available = true)
    (h : s.votes.contains v.voterAndPetition = false)
    (hknown : s.petitions.contains v.petitionId = true) {f : Failure StoreError} {st : Staging}
    (hends : b.Ends s (.error f) st) : s.Transacted v b (.error f) s where
  duplicate := by
    obtain ⟨e, rfl, he⟩ := refused_of_ends within havailable hends
    refine ⟨fun hv => absurd (h.symm.trans hv) (by decide), fun hown => ?_⟩
    refine iff_of_false ?_ (by simp [h])
    rintro ⟨⟩
    exact he.elim hown fun hne => hne rfl
  unknown _ hnone := absurd (hknown.symm.trans hnone) (by decide)
  decided _ _ := by
    rw [b.run_alike havailable]
    exact hends.error_eq.symm
  alike := b.run_alike havailable v
  unchanged g hg := by
    cases hg
    obtain ⟨e, rfl, -⟩ := refused_of_ends within havailable hends
    exact ⟨rfl, e, rfl⟩
  serial w hw := by cases hw

theorem succeeded (havailable : s.available = true)
    (h : s.votes.contains v.voterAndPetition = false)
    (hknown : s.petitions.contains v.petitionId = true) {s' : Store}
    (hdirect : incrementAll b.increments s = .ok s') (hrefusal : b.refusal = none) :
    s.Transacted v b (.ok v) { s with petitions := s'.petitions, votes := s.votes.put v } where
  duplicate := by simp [h, refuse]
  unknown _ hnone := absurd (hknown.symm.trans hnone) (by decide)
  decided _ _ := by
    rw [b.run_alike havailable, hdirect, hrefusal]
    rfl
  alike := b.run_alike havailable v
  unchanged f hf := by cases hf
  serial w hw := by
    cases hw
    have hnone : s.votes.get? v.voterAndPetition = none := by
      simpa [Table.contains] using h
    exact ⟨rfl, rfl, Table.rows_put_of_new hnone, s', hdirect, rfl⟩

end Transacted

/-- A transaction writes its vote and does all its increments, as if these were made one after the
other in the store itself, or it is refused and does nothing. -/
theorem voteWith_atomic (h : s.Reachable) (havailable : s.available = true) (v : Vote) (b : Body) :
    s.voteWith v b.run = (s.transact v b).1.map (fun _ => (s.transact v b).2) ∧
      s.Transacted v b (s.transact v b).1 (s.transact v b).2 := by
  refine ⟨s.voteWith_eq v b, ?_⟩
  cases hvoted : s.votes.contains v.voterAndPetition with
  | true =>
    rw [transact_of_voted havailable hvoted]
    exact .voted havailable hvoted
  | false =>
    cases hknown : s.petitions.contains v.petitionId with
    | false =>
      rw [transact_of_unknown havailable hvoted hknown]
      exact .not_found havailable hvoted hknown
    | true =>
      rcases transact_of_known havailable hvoted hknown with
        ⟨f, hends, htransact⟩ | ⟨s', hdirect, hrefusal, htransact⟩
      · rw [htransact]
        exact .failed h.withinGoals havailable hvoted hknown hends
      · rw [htransact]
        exact .succeeded havailable hvoted hknown hdirect hrefusal

/-- A petition with a goal, on which so many have voted in favor. -/
def campaign (id : Nat) (goal votes : Int64) : Petition :=
  ⟨.ofNat id, .ofNat 9, "Bike lanes", "Protected lanes downtown", goal, votes, 0, default, none,
    default, default⟩

/-- Two increments of one petition, and then one of another. -/
def sweep : List Increment :=
  [⟨.ofNat 1, .favor, default⟩, ⟨.ofNat 1, .against, default⟩, ⟨.ofNat 2, .favor, default⟩]

theorem voteWith_atomic_sweep :
    let s := (empty.seed (campaign 1 5 0)).seed (campaign 2 1 1)
    let v : Vote := ⟨.ofNat 3, .ofNat 4, .ofNat 1, .favor, default⟩
    let whole : Body := ⟨sweep, none⟩
    let part : Body := ⟨sweep.take 2, none⟩
    s.Reachable ∧ s.available = true ∧
      (s.Transacted v whole (refuse .goalReached) (s.transact v whole).2 ∧
        (s.transact v whole).2 = s) ∧
      s.Transacted v part (.ok v) (s.transact v part).2 ∧
        ((s.transact v part).2.raw (.ofNat 1)).map (·.tally) = some fun _ => 1 := by
  intro s v whole part
  have hopen : (campaign 1 5 0).WithinGoal := ⟨by decide, by decide, by decide⟩
  have hfull : (campaign 2 1 1).WithinGoal := ⟨by decide, by decide, by decide⟩
  have hreachable : s.Reachable := (Reachable.empty.seed hopen).seed hfull
  have hwhole : s.Transacted v whole (refuse .goalReached) (s.transact v whole).2 :=
    (voteWith_atomic hreachable rfl v whole).2
  have hpart : s.Transacted v part (.ok v) (s.transact v part).2 :=
    (voteWith_atomic hreachable rfl v part).2
  refine ⟨hreachable, rfl, ⟨hwhole, (hwhole.unchanged _ rfl).1⟩, hpart, ?_⟩
  refine congrArg some (funext fun type => ?_)
  cases type <;> decide +kernel

end Store

end AuditedPetitions
