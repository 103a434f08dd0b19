import AuditedPetitions.Cache.Memory
import Mathlib

/-! Calls under a deadline. A client answers a call after a while or never; who waits no longer than a
deadline gets the answer if it is there by then, and an error otherwise, and the call leaves what it
leaves when it is abandoned. An expiring map that is slow or switched off is such a client, and under
a deadline it is the backend in memory. -/

namespace AuditedPetitions.Cache

inductive Request
  | get (key : String)
  | set (key text : String) (ttl : Nat)
  | scan (start : String)
  | delete (keys : List String)
  deriving DecidableEq

/-- What a request leaves behind. -/
def Request.after {σ : Type} (b : Backend σ) (s : σ) : Request → σ
  | .get key => (b.get key s).2
  | .set key text ttl => (b.set key text ttl s).2
  | .scan start => (b.scan start s).2
  | .delete keys => (b.delete keys s).2

/-- What a client does with a call. -/
structure Turn (σ α : Type) where
  answer : Except Error α
  /-- Time until the answer; a call without one never ends. -/
  takes : Option Duration
  done : σ
  abandoned : σ

namespace Turn

variable {σ α : Type}

def InTime (t : Turn σ α) (deadline : Duration) : Prop :=
  ∃ d ∈ t.takes, d.millis ≤ deadline.millis

instance (t : Turn σ α) (deadline : Duration) : Decidable (t.InTime deadline) :=
  inferInstanceAs (Decidable (∃ d ∈ t.takes, _))

/-- The call for one who waits no longer than a deadline. -/
def within (t : Turn σ α) (deadline : Duration) : Except Error α × σ :=
  if t.InTime deadline then (t.answer, t.done) else (.error (.timeout deadline), t.abandoned)

theorem within_eq_ok {t : Turn σ α} {deadline : Duration} {a : α} :
    (t.within deadline).1 = .ok a ↔ t.InTime deadline ∧ t.answer = .ok a := by
  by_cases h : t.InTime deadline
  · rw [within, if_pos h]
    exact (and_iff_right h).symm
  · rw [within, if_neg h]
    constructor
    · intro herror
      cases herror
    · exact fun hin => absurd hin.1 h

end Turn

structure Client (σ : Type) where
  get : String → σ → Turn σ (Option String)
  set : String → String → Nat → σ → Turn σ Unit
  scan : String → σ → Turn σ (List String)
  delete : List String → σ → Turn σ Nat

/-- A client whose calls are waited for no longer than a deadline. -/
def Client.bounded {σ : Type} (c : Client σ) (deadline : Duration) : Backend σ where
  get key s := (c.get key s).within deadline
  set key text ttl s :=
    let (answer, after) := (c.set key text ttl s).within deadline
    (answer.mapError .refused, after)
  scan start s := (c.scan start s).within deadline
  delete keys s := (c.delete keys s).within deadline

namespace ExpiringMap

/-- A call in memory: slow first, then switched off or not. -/
def turn {α : Type} (s : Switches) (m : ExpiringMap) (answer : α) (done : ExpiringMap) :
    Turn ExpiringMap α :=
  match s.fault? none with
  | some e => ⟨.error e, s.latency, m, m⟩
  | none => ⟨.ok answer, s.latency, done, m⟩

def client (now : Nat) (s : Switches) : Client ExpiringMap where
  get key m := turn s m (m.get now key).1 (m.get now key).2
  set key text ttl m := turn s m () (m.set now key text ttl)
  scan start m := turn s m (m.scan now start) m
  delete keys m := turn s m (m.delete keys).1 (m.delete keys).2

theorem within_turn {α : Type} (s : Switches) (deadline : Duration) (m : ExpiringMap) (answer : α)
    (done : ExpiringMap) : (turn s m answer done).within deadline =
      match s.fault? (some deadline) with
      | some e => (.error e, m)
      | none => (.ok answer, done) := by
  obtain ⟨unavailable, latency⟩ := s
  by_cases hslow : deadline.millis < latency.millis
  · have hlate : ¬ (turn ⟨unavailable, latency⟩ m answer done).InTime deadline := by
      rintro ⟨d, hd, hle⟩
      cases unavailable <;> cases hd <;> exact absurd hle (UInt64.not_le.2 hslow)
    have hfault : Switches.fault? ⟨unavailable, latency⟩ (some deadline) =
        some (.timeout deadline) := by
      simp [Switches.fault?, Option.filter_some, hslow]
    rw [Turn.within, if_neg hlate, hfault]
    cases unavailable <;> rfl
  · have hprompt : (turn ⟨unavailable, latency⟩ m answer done).InTime deadline :=
      ⟨latency, by cases unavailable <;> rfl, UInt64.not_lt.1 hslow⟩
    rw [Turn.within, if_pos hprompt]
    cases unavailable <;> simp [Switches.fault?, Option.filter_some, hslow, turn]

/-- Under a deadline a map in memory answers as the backend that fails with its fault. -/
theorem bounded_client (now : Nat) (s : Switches) (deadline : Duration) (m : ExpiringMap) :
    let bounded := (client now s).bounded deadline
    let memory := backend now (s.fault? (some deadline))
    (∀ key, bounded.get key m = memory.get key m) ∧
      (∀ key text ttl, now + ttl < clockEnd →
        bounded.set key text ttl m = memory.set key text ttl m) ∧
      (∀ start, bounded.scan start m = memory.scan start m) ∧
      ∀ keys, bounded.delete keys m = memory.delete keys m := by
  dsimp only [Client.bounded, client, backend]
  refine ⟨fun key => ?_, fun key text ttl hend => ?_, fun start => ?_, fun keys => ?_⟩
  · refine (within_turn ..).trans ?_
    cases s.fault? (some deadline) <;> rfl
  · rw [within_turn, if_pos hend]
    cases s.fault? (some deadline) <;> rfl
  · refine (within_turn ..).trans ?_
    cases s.fault? (some deadline) <;> rfl
  · refine (within_turn ..).trans ?_
    cases s.fault? (some deadline) <;> rfl

end ExpiringMap

end AuditedPetitions.Cache
