import AuditedPetitions.Petition.Rehearsal

/-! Calls of a rehearsal that run together. Each in its turn goes on until it ends or has to wait,
and those that waited end last. A run of many calls is broken off where its first stretch ends: the
calls that are left all go on to their commit before one of them commits. A fault ends the run for
all calls. -/

namespace AuditedPetitions

/-- Whether the next step asks the cache to forget something. -/
def Call.invalidates : Call → Bool
  | .settle (.dropPetition _ :: _) _ | .settle (.findListings :: _) _
  | .settle (.dropListings _ :: _) _ => true
  | _ => false

/-- What the next step takes of a stretch: one for each lock and each place in a mailbox. -/
def Call.toll : Call → Nat
  | .preflight _ | .examine _ | .commit .. | .settle (.record _ :: _) _
  | .settle (.dropPetition _ :: _) _ | .settle (.dropListings _ :: _) _ => 1
  | _ => 0

/-- Whether a call has ended with a fault, in place of a reply or a refusal. -/
def Call.isFaulty (call : Call) : Bool :=
  call.answer?.any fun a => a matches .error (.arithmetic _)

namespace Rehearsal

/-- Whether the next step of a call lets others go first: it needs a block, or a slow cache. -/
def waits (r : Rehearsal) (call : Call) : Bool :=
  call.pending?.isSome || (0 < r.cache.latency.millis && call.invalidates)

/-- Runs a call until it ends or waits, and tells what it leaves of a stretch; nothing, if the rest
is too short for its next step. -/
def runWithin : Nat → Nat → Rehearsal × Call → (Rehearsal × Call) × Option Nat
  | 0, left, rc => (rc, some left)
  | n + 1, left, (r, call) =>
    if r.waits call then ((r, call), some left)
    else if left < call.toll then ((r, call), none)
    else runWithin n (left - call.toll) (r.step call)

/-- Runs calls for a stretch, and tells which are through and which are left. -/
def stretch (r : Rehearsal) (left : Nat) : List Call → Rehearsal × List Call × List Call
  | [] => (r, [], [])
  | call :: calls =>
    match runWithin call.cost left (r, call) with
    | ((r, call), none) => (r, [], call :: calls)
    | ((r, call), some left) =>
      if call.isFaulty then (r, call :: calls, [])
      else
        let (r, through, rest) := r.stretch left calls
        (r, call :: through, rest)

/-- Length of a stretch. -/
def stretchLength : Nat := 128

/-- Runs calls one after the other, each until it ends, waits or has to stop. A fault ends it. -/
def advanceEach (r : Rehearsal) (stop : Call → Bool) : List Call → Rehearsal × List Call
  | [] => (r, [])
  | call :: calls =>
    let (r, call) := steps (fun c => stop c || r.waits c) call.cost (r, call)
    if call.isFaulty then (r, call :: calls)
    else
      let (r, calls) := r.advanceEach stop calls
      (r, call :: calls)

/-- Runs calls together until each of them has ended or waits, or a fault has ended the run. -/
def advanceAll (r : Rehearsal) (calls : List Call) : Rehearsal × List Call :=
  let (r, through, rest) := r.stretch stretchLength calls
  let (r, rest) := r.advanceEach Call.isCommit rest
  let (r, rest) := if rest.any Call.isFaulty then (r, rest) else r.advanceEach (fun _ => false) rest
  (r, through ++ rest)

/-- Runs calls one after the other, each to its end. -/
def completeEach (r : Rehearsal) : List Call → Rehearsal × List Call
  | [] => (r, [])
  | call :: calls =>
    let (r, call) := r.complete call
    let (r, calls) := r.completeEach calls
    (r, call :: calls)

/-- Runs calls together, those that had to wait to their end, and counts the votes that were cast.
After a fault all stay as they are and none counts. -/
def completeAll (r : Rehearsal) (calls : List Call) : Rehearsal × List Call :=
  let (r, calls) := r.advanceAll calls
  if calls.any Call.isFaulty then (r, calls)
  else
    let (r, calls) := r.completeEach calls
    (r.accept calls, calls)

theorem length_stretch (r : Rehearsal) (left : Nat) (calls : List Call) :
    (r.stretch left calls).2.1.length + (r.stretch left calls).2.2.length = calls.length := by
  induction calls generalizing r left with
  | nil => rfl
  | cons call calls ih =>
    rw [stretch]
    split
    · simp
    · split
      · simp
      · simp only [List.length_cons, Nat.add_right_comm _ 1, ih]

@[simp] theorem length_advanceEach (r : Rehearsal) (stop : Call → Bool) (calls : List Call) :
    (r.advanceEach stop calls).2.length = calls.length := by
  induction calls generalizing r with
  | nil => rfl
  | cons call calls ih =>
    rw [advanceEach]
    dsimp only
    split
    · rfl
    · simp [ih]

@[simp] theorem length_advanceAll (r : Rehearsal) (calls : List Call) :
    (r.advanceAll calls).2.length = calls.length := by
  rw [advanceAll, ← r.length_stretch stretchLength calls]
  dsimp only
  split <;> simp

@[simp] theorem length_completeEach (r : Rehearsal) (calls : List Call) :
    (r.completeEach calls).2.length = calls.length := by
  induction calls generalizing r with
  | nil => rfl
  | cons call calls ih => simp [completeEach, ih]

/-- No call is lost. -/
@[simp] theorem length_completeAll (r : Rehearsal) (calls : List Call) :
    (r.completeAll calls).2.length = calls.length := by
  rw [completeAll]
  dsimp only
  split <;> simp

end Rehearsal

end AuditedPetitions
