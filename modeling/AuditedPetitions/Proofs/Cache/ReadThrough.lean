import AuditedPetitions.Proofs.Cache.Deadline
import AuditedPetitions.Proofs.Petition.Records
import Mathlib

/-! Reading through a cache. Whatever the client does with a call, a reader gets the cached value or
what the loader gives: the loader runs when no value is read in time, once, and a value of its is
offered to the client, once, in a text that reads back as it, if its times are told by what is written.
The counters tell the reads apart, so the failed ones are what the reads have over the hits and the
misses. -/

namespace AuditedPetitions.Cache

/-- Backend that notes what it is asked for. -/
def Backend.recorded {σ : Type} (b : Backend σ) : Backend (σ × List Request) where
  get key s := ((b.get key s.1).1, (b.get key s.1).2, s.2 ++ [.get key])
  set key text ttl s :=
    ((b.set key text ttl s.1).1, (b.set key text ttl s.1).2, s.2 ++ [.set key text ttl])
  scan start s := ((b.scan start s.1).1, (b.scan start s.1).2, s.2 ++ [.scan start])
  delete keys s := ((b.delete keys s.1).1, (b.delete keys s.1).2, s.2 ++ [.delete keys])

/-- A cache in front of such a backend, which has noted some requests. -/
def noting {σ : Type} (c : Cache σ) (log : List Request) : Cache (σ × List Request) :=
  ⟨(c.state, log), c.metrics⟩

/-- Loader that counts its runs. -/
def counted {ρ ε α : Type} (loader : ρ → Except ε α × ρ) (r : ρ × Nat) :
    Except ε α × (ρ × Nat) :=
  ((loader r.1).1, (loader r.1).2, r.2 + 1)

/-- What a read-through answers and leaves, and what it did for that. -/
structure Course (σ ρ ε α : Type) where
  answer : Outcome ε α
  cache : Cache σ
  source : ρ
  loads : Nat
  requests : List Request

variable {σ ρ ε α : Type}

/-- A read-through with its calls of the backend and of the loader noted. -/
def watched (b : Backend σ) (codec : Codec α) (key : String) (ttl : Nat)
    (loader : ρ → Except ε α × ρ) (c : Cache σ) (r : ρ) : Course σ ρ ε α :=
  let (answer, cache, source) :=
    (c.noting []).getOrLoad b.recorded codec key ttl (counted loader) (r, 0)
  ⟨answer, ⟨cache.state.1, cache.metrics⟩, source.1, source.2, cache.state.2⟩

section course
variable {b : Backend σ} {codec : Codec α} {key : String} {ttl : Nat}
  {loader : ρ → Except ε α × ρ} {c : Cache σ} {r r' : ρ} {v : α}

theorem getOrLoad_of_hit (h : (c.lookup b codec key).1 = .hit v) :
    c.getOrLoad b codec key ttl loader r = (.ok v, (c.lookup b codec key).2, r) := by
  rw [getOrLoad]
  rcases hl : c.lookup b codec key with ⟨found, after⟩
  rw [hl] at h
  cases h
  rfl

theorem getOrLoad_of_refused {e : ε} (h : ∀ v, (c.lookup b codec key).1 ≠ .hit v)
    (hload : loader r = (.error e, r')) :
    c.getOrLoad b codec key ttl loader r = (refuse e, (c.lookup b codec key).2, r') := by
  rw [getOrLoad]
  rcases hl : c.lookup b codec key with ⟨found, after⟩
  rw [hl] at h
  cases found with
  | hit v => exact absurd rfl (h v)
  | miss => simp only [hload]
  | failed e => simp only [hload]

theorem getOrLoad_of_loaded (h : ∀ v, (c.lookup b codec key).1 ≠ .hit v)
    (hload : loader r = (.ok v, r'))
    (hfill : ((c.lookup b codec key).2.fill b codec key v ttl).1 = .ok ()) :
    c.getOrLoad b codec key ttl loader r =
      (.ok v, ((c.lookup b codec key).2.fill b codec key v ttl).2, r') := by
  rw [getOrLoad]
  rcases hl : c.lookup b codec key with ⟨found, after⟩
  rw [hl] at h hfill
  rcases hf : after.fill b codec key v ttl with ⟨stored, filled⟩
  rw [hf] at hfill
  cases hfill
  cases found with
  | hit v => exact absurd rfl (h v)
  | miss => simp only [hload, hf]
  | failed e => simp only [hload, hf]

theorem lookup_recorded (c : Cache σ) (log : List Request) :
    (c.noting log).lookup b.recorded codec key =
      ((c.lookup b codec key).1, (c.lookup b codec key).2.noting (log ++ [.get key])) := rfl

theorem fill_recorded (c : Cache σ) (log : List Request) :
    (c.noting log).fill b.recorded codec key v ttl =
      ((c.fill b codec key v ttl).1,
        (c.fill b codec key v ttl).2.noting (log ++ [.set key (codec.text v) ttl])) := by
  simp only [fill, noting, Backend.recorded]
  rcases b.set key (codec.text v) ttl c.state with ⟨answer, after⟩
  rcases answer with (_ | _) | _ <;> rfl

theorem watched_of_hit (h : (c.lookup b codec key).1 = .hit v) :
    watched b codec key ttl loader c r = ⟨.ok v, (c.lookup b codec key).2, r, 0, [.get key]⟩ := by
  have hit : ((c.noting []).lookup b.recorded codec key).1 = .hit v := h
  rw [watched, getOrLoad_of_hit hit]
  rfl

theorem watched_of_refused {e : ε} (h : ∀ v, (c.lookup b codec key).1 ≠ .hit v)
    (hload : loader r = (.error e, r')) : watched b codec key ttl loader c r =
      ⟨refuse e, (c.lookup b codec key).2, r', 1, [.get key]⟩ := by
  have hcounted : counted loader (r, 0) = (.error e, r', 1) := by rw [counted, hload]
  have nohit : ∀ v, ((c.noting []).lookup b.recorded codec key).1 ≠ .hit v := h
  rw [watched, getOrLoad_of_refused nohit hcounted]
  rfl

theorem watched_of_loaded (h : ∀ v, (c.lookup b codec key).1 ≠ .hit v)
    (hload : loader r = (.ok v, r'))
    (hfill : ((c.lookup b codec key).2.fill b codec key v ttl).1 = .ok ()) :
    watched b codec key ttl loader c r =
      ⟨.ok v, ((c.lookup b codec key).2.fill b codec key v ttl).2, r', 1,
        [.get key, .set key (codec.text v) ttl]⟩ := by
  have hcounted : counted loader (r, 0) = (.ok v, r', 1) := by rw [counted, hload]
  have nohit : ∀ v, ((c.noting []).lookup b.recorded codec key).1 ≠ .hit v := h
  have hstored : (((c.noting []).lookup b.recorded codec key).2.fill b.recorded codec key v
      ttl).1 = .ok () := by
    rw [lookup_recorded, fill_recorded]
    exact hfill
  rw [watched, getOrLoad_of_loaded nohit hcounted hstored, lookup_recorded, fill_recorded]
  rfl

end course

section client
variable {client : Client σ} {deadline : Duration} {codec : Codec α} {key : String}
  {c : Cache σ} {v : α}

/-- The client answers in time with a text of a value. -/
def Client.Offers (client : Client σ) (deadline : Duration) (codec : Codec α) (key : String) (s : σ)
    (v : α) : Prop :=
  (client.get key s).InTime deadline ∧
    ∃ text, (client.get key s).answer = .ok (some text) ∧ codec.ofText? text = some v

theorem offers_iff_hit : client.Offers deadline codec key c.state v ↔
    (c.lookup (client.bounded deadline) codec key).1 = .hit v := by
  constructor
  · rintro ⟨hin, text, hanswer, hv⟩
    have hget := Turn.within_eq_ok.2 ⟨hin, hanswer⟩
    simp only [lookup, Client.bounded, hget, Lookup.ofAnswer, hv, Option.elim_some]
  · intro h
    obtain ⟨text, hget, hv⟩ := lookup_hit h
    obtain ⟨hin, hanswer⟩ := Turn.within_eq_ok.1 hget
    exact ⟨hin, text, hanswer, hv⟩

theorem fill_bounded (ttl : Nat) :
    (c.fill (client.bounded deadline) codec key v ttl).1 = .ok () := by
  simp only [fill, Client.bounded]
  rcases (client.set key (codec.text v) ttl c.state).within deadline with ⟨answer, after⟩
  cases answer <;> rfl

end client

inductive Access : Type 1
  | lookup {α : Type} (codec : Codec α) (key : String)
  | fill {α : Type} (codec : Codec α) (key : String) (value : α) (ttl : Nat)

/-- One use of a cache, with the backend as it is at that time. -/
structure Use (σ : Type) : Type 1 where
  backend : Backend σ
  access : Access

namespace Use

variable (u : Use σ)

def isLookup : Bool := u.access matches .lookup ..

/-- The use is a read that meets an error. -/
def failsToRead (s : σ) : Bool :=
  match u.access with
  | .lookup _ key => ((u.backend.get key s).1 matches .error _)
  | .fill .. => false

/-- The use is a fill that is refused. -/
def failsToFill (s : σ) : Bool :=
  match u.access with
  | .lookup .. => false
  | .fill codec key value ttl =>
    ((u.backend.set key (codec.text value) ttl s).1 matches .error (.refused _))

def after (c : Cache σ) : Cache σ :=
  match u.access with
  | .lookup codec key => (c.lookup u.backend codec key).2
  | .fill codec key value ttl => (c.fill u.backend codec key value ttl).2

end Use

/-- A cache after a run of uses. -/
def runUses (c : Cache σ) (uses : List (Use σ)) : Cache σ := uses.foldl (fun c u => u.after c) c

/-- How many uses of a run pass a test in the state that they meet. -/
def tally (test : Use σ → σ → Bool) (c : Cache σ) : List (Use σ) → Nat
  | [] => 0
  | u :: uses => (test u c.state).toNat + tally test (u.after c) uses

/-- What counters tell of the lookups and the failures that there were since others. -/
structure Metrics.Accounts (before after : Metrics) (lookups reads fills : Nat) : Prop where
  lookups : after.hits + after.misses + reads = before.hits + before.misses + lookups
  errors : after.errors = before.errors + reads + fills

theorem accounts_recordLookup (m : Metrics) (codec : Codec α)
    (answer : Except Error (Option String)) :
    m.Accounts (m.recordLookup (.ofAnswer codec answer)) 1 (answer matches .error _).toNat 0 := by
  rcases answer with e | _ | text
  · exact ⟨rfl, rfl⟩
  · exact ⟨rfl, rfl⟩
  · simp only [Lookup.ofAnswer]
    cases codec.ofText? text with
    | none => exact ⟨rfl, rfl⟩
    | some v => exact ⟨Nat.add_right_comm m.hits 1 m.misses, rfl⟩

theorem accounts_after (u : Use σ) (c : Cache σ) :
    c.metrics.Accounts (u.after c).metrics u.isLookup.toNat (u.failsToRead c.state).toNat
      (u.failsToFill c.state).toNat := by
  obtain ⟨b, access⟩ := u
  cases access with
  | lookup codec key => exact accounts_recordLookup c.metrics codec (b.get key c.state).1
  | fill codec key value ttl =>
    simp only [Use.isLookup, Use.failsToRead, Use.failsToFill, Use.after, fill]
    rcases b.set key (codec.text value) ttl c.state with ⟨(_ | _) | _, s⟩ <;> exact ⟨rfl, rfl⟩

theorem accounts_runUses (uses : List (Use σ)) (c : Cache σ) :
    c.metrics.Accounts (c.runUses uses).metrics (uses.countP Use.isLookup)
      (tally Use.failsToRead c uses) (tally Use.failsToFill c uses) := by
  induction uses generalizing c with
  | nil => exact ⟨rfl, rfl⟩
  | cons u uses ih =>
    obtain ⟨hreads, herrors⟩ := accounts_after u c
    obtain ⟨hreads', herrors'⟩ := ih (u.after c)
    have hcount : (u :: uses).countP Use.isLookup = u.isLookup.toNat + uses.countP Use.isLookup := by
      rw [List.countP_cons, Nat.add_comm]
      cases u.isLookup <;> rfl
    have hrun : c.runUses (u :: uses) = (u.after c).runUses uses := rfl
    rw [hrun, hcount, tally, tally]
    constructor <;> omega

/-- What a reader gets through a cache whose client is under a deadline, and what is done for it. -/
structure Served (client : Client σ) (deadline : Duration) (codec : Codec α) (key : String)
    (ttl : Nat) (loader : ρ → Except ε α × ρ) (c : Cache σ) (r : ρ) (w : Course σ ρ ε α) :
    Prop where
  unwatched : c.getOrLoad (client.bounded deadline) codec key ttl loader r =
    (w.answer, w.cache, w.source)
  unloaded : w.loads = 0 ↔ ∃ v, client.Offers deadline codec key c.state v
  cached : ∀ v, client.Offers deadline codec key c.state v →
    w.answer = .ok v ∧ w.requests = [.get key]
  loaded : (¬ ∃ v, client.Offers deadline codec key c.state v) →
    w.loads = 1 ∧ w.source = (loader r).2 ∧
      match (loader r).1 with
      | .error e => w.answer = refuse e ∧ w.requests = [.get key]
      | .ok v => w.answer = .ok v ∧ w.requests = [.get key, .set key (codec.text v) ttl]
  /-- For the counters it is a lookup, and at most one fill. -/
  accounted : ∃ fills, fills.length ≤ 1 ∧ (∀ u ∈ fills, u.isLookup = false) ∧
    w.cache = c.runUses (⟨client.bounded deadline, .lookup codec key⟩ :: fills)

section served
variable {client : Client σ} {deadline : Duration} {codec : Codec α} {key : String} {ttl : Nat}
  {loader : ρ → Except ε α × ρ} {c : Cache σ} {r : ρ}

theorem served_of_offers {v : α} (h : client.Offers deadline codec key c.state v) :
    Served client deadline codec key ttl loader c r
      (watched (client.bounded deadline) codec key ttl loader c r) := by
  have hhit := offers_iff_hit.1 h
  rw [watched_of_hit hhit]
  exact
    { unwatched := getOrLoad_of_hit hhit
      unloaded := ⟨fun _ => ⟨v, h⟩, fun _ => rfl⟩
      cached := by
        intro w hw
        have hsame : w = v := Lookup.hit.inj ((offers_iff_hit.1 hw).symm.trans hhit)
        rw [hsame]
        exact ⟨rfl, rfl⟩
      loaded := fun hnone => absurd ⟨v, h⟩ hnone
      accounted := ⟨[], Nat.zero_le 1, fun u hu => absurd hu List.not_mem_nil, rfl⟩ }

theorem served_of_not_offers (h : ¬ ∃ v, client.Offers deadline codec key c.state v) :
    Served client deadline codec key ttl loader c r
      (watched (client.bounded deadline) codec key ttl loader c r) := by
  have hmiss : ∀ v, (c.lookup (client.bounded deadline) codec key).1 ≠ .hit v :=
    fun v hv => h ⟨v, offers_iff_hit.2 hv⟩
  have hone : (1 : Nat) = 0 ↔ ∃ v, client.Offers deadline codec key c.state v :=
    ⟨fun hload => absurd hload Nat.one_ne_zero, fun hoffer => absurd hoffer h⟩
  rcases hload : loader r with ⟨e | v, r'⟩
  · rw [watched_of_refused hmiss hload]
    exact
      { unwatched := getOrLoad_of_refused hmiss hload
        unloaded := hone
        cached := fun v hv => absurd ⟨v, hv⟩ h
        loaded := by
          intro _
          rw [hload]
          exact ⟨rfl, rfl, rfl, rfl⟩
        accounted := ⟨[], Nat.zero_le 1, fun u hu => absurd hu List.not_mem_nil, rfl⟩ }
  · have hfill : ((c.lookup (client.bounded deadline) codec key).2.fill (client.bounded deadline)
        codec key v ttl).1 = .ok () := fill_bounded ttl
    rw [watched_of_loaded hmiss hload hfill]
    refine
      { unwatched := getOrLoad_of_loaded hmiss hload hfill
        unloaded := hone
        cached := fun v hv => absurd ⟨v, hv⟩ h
        loaded := ?_
        accounted := ⟨[⟨client.bounded deadline, .fill codec key v ttl⟩], le_rfl, ?_, rfl⟩ }
    · intro _
      rw [hload]
      exact ⟨rfl, rfl, rfl, rfl⟩
    · intro u hu
      rw [List.mem_singleton.1 hu]
      rfl

end served

/-- Whatever its client does, a cache serves a value that the client answers in time and that reads
back, and else what the loader gives in one run: an error is stored nowhere, and a value is offered
once. The text of a petition, or of a list of petitions, reads back as it, but for times that are leap
seconds in the middle of a minute. Over any uses, the hits, the misses and the failed reads are the
lookups, and the errors are the failures. -/
theorem readThrough_exact (client : Client σ) (deadline : Duration) :
    (∀ (ρ ε α : Type) (codec : Codec α) (key : String) (ttl : Nat) (loader : ρ → Except ε α × ρ)
      (c : Cache σ) (r : ρ), Served client deadline codec key ttl loader c r
        (watched (client.bounded deadline) codec key ttl loader c r)) ∧
    (∀ p : Petition, Petition.codec.ofText? (Petition.codec.text p) = some p.asRead ∧
      (p.asRead = p ↔ p.Readable)) ∧
    (∀ ps : List Petition,
      Petition.codec.list.ofText? (Petition.codec.list.text ps) = some (ps.map Petition.asRead) ∧
      (ps.map Petition.asRead = ps ↔ ∀ p ∈ ps, p.Readable)) ∧
    ∀ (s : σ) (uses : List (Use σ)),
      let start : Cache σ := ⟨s, .zero⟩
      let counters := (start.runUses uses).metrics
      counters.hits + counters.misses + tally Use.failsToRead start uses =
        uses.countP Use.isLookup ∧
      counters.errors = tally Use.failsToRead start uses + tally Use.failsToFill start uses := by
  refine ⟨fun ρ ε α codec key ttl loader c r => ?_,
    fun p => ⟨p.readsAs.ofText?_text, Petition.asRead_eq_self_iff⟩,
    fun ps => ⟨(Petition.readsAs_list ps).ofText?_text, Petition.map_asRead_eq_self_iff⟩,
    fun s uses => ?_⟩
  · by_cases hoffer : ∃ v, client.Offers deadline codec key c.state v
    · obtain ⟨v, hv⟩ := hoffer
      exact served_of_offers hv
    · exact served_of_not_offers hoffer
  · obtain ⟨hlookups, herrors⟩ := accounts_runUses uses ⟨s, .zero⟩
    simp only [Metrics.zero, Nat.zero_add] at hlookups herrors
    exact ⟨hlookups, herrors⟩

/-- Petition whose deadline is a leap second in the middle of a minute. -/
def midMinuteDeadline : Petition :=
  .ofRequest ⟨.ofNat 9, "Bike lanes", "Paint them", 10, .midMinuteLeap⟩ (.ofNat 1) default

/-- Not every petition reads back as itself: its deadline may be a leap second in the middle of a
minute. -/
theorem readThrough_ambiguous :
    ¬ ∀ p : Petition, Petition.codec.ofText? (Petition.codec.text p) = some p := by
  intro h
  have hself : midMinuteDeadline.asRead = midMinuteDeadline :=
    Option.some.inj (midMinuteDeadline.readsAs.ofText?_text.symm.trans (h midMinuteDeadline))
  exact Instant.not_readable_midMinuteLeap (Petition.asRead_eq_self_iff.1 hself).votingDeadline

/-- A client that is too slow is asked, and asked to store what was loaded. -/
example :
    let slow := (ExpiringMap.client 0 ⟨false, ⟨50⟩⟩).bounded ⟨20⟩
    let course := watched slow Codec.word "count" 9
      (fun n : Nat => ((.ok 7 : Except Unit UInt32), n)) ⟨.empty, .zero⟩ 3
    course.loads = 1 ∧ course.requests = [.get "count", .set "count" "7" 9] ∧
      course.cache.metrics = { Metrics.zero with errors := 2 } := by
  decide

end AuditedPetitions.Cache
