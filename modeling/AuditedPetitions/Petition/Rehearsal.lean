import AuditedPetitions.Petition.Alias
import AuditedPetitions.Petition.Service

/-! Rehearsals: a service on collaborators in memory, whose failures are switched on and off between
the calls. A call runs to its end before the next one, and then all background work is done. What
the calls have made is numbered in the order in which it was answered. -/

namespace AuditedPetitions

/-- Identifier with the eight digits of a mark, the four of a family, and a number. -/
def Uuid.ofFamily (mark family n : Nat) : Uuid :=
  .ofNat (((mark * 0x10000 + family) * 0x10000 + 0x4000) * 0x10000000000000000 +
    0x8000000000000000 + n)

/-- Calls to the store that can be made to fail once. -/
inductive StoreCall
  | create
  | getById
  | list
  | hasVoted
  | vote
  | delete
  deriving DecidableEq, Repr

namespace StoreCall

def name : StoreCall → String
  | .create => "create"
  | .getById => "get_by_id"
  | .list => "get_all_paginated"
  | .hasVoted => "has_voted"
  | .vote => "vote_with_transaction"
  | .delete => "delete"

def ofName? (s : String) : Option StoreCall :=
  [create, getById, list, hasVoted, vote, delete].find? (·.name = s)

end StoreCall

/-- Call to the store that the next step makes. -/
def Call.storeCall? : Call → Option StoreCall
  | .create .. => some .create
  | .delete _ => some .delete
  | .preflight _ => some .hasVoted
  | .examine _ => some .getById
  | .commit .. => some .vote
  | .load (.petition _) _ => some .getById
  | .load (.listing ..) _ => some .list
  | _ => none

def Call.isCommit : Call → Bool
  | .commit .. => true
  | _ => false

/-- Request whose reply the next step needs. -/
def Call.pending? : Call → Option Ledger.Peer.Pending
  | .settle (.awaitSeal pending _ :: _) _ => some pending
  | _ => none

/-- Answer of a call that has ended. -/
def Call.answer? : Call → Option Answer
  | .done answer => some answer
  | _ => none

/-- Whether the next step asks something of the cache. -/
def Call.asksCache : Call → Bool
  | .settle (.dropPetition _ :: _) _ | .settle (.findListings :: _) _
  | .settle (.dropListings _ :: _) _ | .look .. | .fill .. => true
  | _ => false

/-- Petition that a call has created. -/
def Call.petitionId? (call : Call) : Option Uuid :=
  match call.answer? with
  | some (.ok (.petition p)) => some p.id
  | _ => none

/-- Vote that a call has cast. -/
def Call.voteId? (call : Call) : Option Uuid :=
  match call.answer? with
  | some (.ok (.vote v)) => some v.id
  | _ => none

structure Rehearsal where
  /-- Number with which the identifiers of this rehearsal begin, and no others. -/
  mark : Nat
  service : Service
  cache : Cache.Switches
  indexerFailing : Bool
  indexerLatency : Duration
  /-- Call to the store of which the next one fails. -/
  failNext : Option StoreCall
  now : Instant
  /-- Identifiers given out so far. -/
  issued : Nat
  /-- Petitions created, and votes accepted, so far. -/
  created : List Uuid
  accepted : List Uuid

/-- Something that happens to the store between the validation of a vote and its commitment. -/
inductive Interference
  | vote (type : VoteType) (petition : Uuid)
  | delete (petition : Uuid)

/-- Store after some interferences. A refused one changes nothing, a fault ends them. -/
def Store.interfere (s : Store) (now : Instant) :
    List Interference → Except ArithmeticFault Unit × Store
  | [] => (.ok (), s)
  | i :: is =>
    let after := match i with
      | .vote type id => s.increment ⟨id, type, now⟩
      | .delete id => s.delete id now
    match after with
    | .ok s => s.interfere now is
    | .error (.refused _) => s.interfere now is
    | .error (.arithmetic fault) => (.error fault, s)

namespace Rehearsal

def start (mark : Nat) (settings : Settings) (cache : CacheConfig) (ledger : Ledger.Peer)
    (now : Instant) : Rehearsal :=
  ⟨mark, .start settings cache ledger, .standard, false, ⟨0⟩, none, now, 0, [], []⟩

def indexFault? (r : Rehearsal) : Option IndexError :=
  let deadline := r.service.settings.indexTimeout
  if deadline.millis < r.indexerLatency.millis then some (.timeout deadline)
  else if r.indexerFailing then some (.unavailable "recording indexer switched off")
  else none

def storeFault? (r : Rehearsal) (call : Call) : Option StoreError :=
  (call.storeCall?.filter (some · = r.failNext)).map fun c => .unavailable (c.name ++ " failed")

/-- What a step of a call meets. Listings get the longest lifetime. -/
def conditions (r : Rehearsal) (call : Call) : Conditions where
  now := r.now
  moment := 0
  draw := UInt64.size
  store := r.storeFault? call
  cache := r.cache.fault? (some r.service.cacheConfig.opTimeout)
  index := r.indexFault?
  ledger := none

/-- Identifier for a petition. -/
def petitionId (mark n : Nat) : Uuid := .ofFamily mark 0xA1 n

/-- Identifier for a vote. -/
def voteId (mark n : Nat) : Uuid := .ofFamily mark 0xB2 n

/-- Names of the petitions and votes. -/
def aliases (r : Rehearsal) : List Alias :=
  [⟨"petition#", Alias.stemOf (petitionId r.mark 0), r.created⟩,
    ⟨"vote#", Alias.stemOf (voteId r.mark 0), r.accepted⟩]

/-- Gives the vote that is about to be committed an identifier of its own. -/
def identify (r : Rehearsal) : Call → Call
  | .commit b type => .commit { b with id := voteId r.mark r.issued } type
  | call => call

/-- Passes the time that a slow cache takes, in which the ledger's writer does all its work. -/
def awaitCache (r : Rehearsal) : Rehearsal :=
  if r.cache.latency.millis = 0 then r
  else { r with service := r.service.drainLedger r.now }

/-- Passes the time that the next step of a call takes. -/
def await (r : Rehearsal) (call : Call) : Rehearsal :=
  let r := if call.asksCache then r.awaitCache else r
  call.pending?.elim r fun pending => { r with service := r.service.await r.now pending }

/-- One step, after the reply that it needs. -/
def step (r : Rehearsal) (call : Call) : Rehearsal × Call :=
  let r := r.await call
  let (s, next) := r.service.step (r.conditions call) (r.identify call)
  ({ r with
    service := s
    failNext := if r.failNext = call.storeCall? then none else r.failNext
    issued := if call.isCommit then r.issued + 1 else r.issued }, next)

/-- As many steps as a call may take, or up to one before which to stop. -/
def steps (stop : Call → Bool) : Nat → Rehearsal × Call → Rehearsal × Call
  | 0, rc => rc
  | n + 1, (r, call) => if stop call then (r, call) else steps stop n (r.step call)

/-- Runs a call to its end. -/
def complete (r : Rehearsal) (call : Call) : Rehearsal × Call :=
  steps (fun _ => false) call.cost (r, call)

def create (r : Rehearsal) (request : NewPetition) : Rehearsal × Call :=
  let (r, call) := r.complete (Service.startCreate request (petitionId r.mark r.issued) r.now)
  ({ r with issued := r.issued + 1, created := r.created ++ call.petitionId?.toList }, call)

def startVote (r : Rehearsal) (voter petition : Uuid) (type : String) : Call :=
  r.service.startVote ⟨voter, petition, type, voteId r.mark r.issued⟩

/-- Counts the votes that calls have cast. -/
def accept (r : Rehearsal) (calls : List Call) : Rehearsal :=
  { r with accepted := r.accepted ++ calls.filterMap Call.voteId? }

def interfere (r : Rehearsal) (is : List Interference) : Except ArithmeticFault Unit × Rehearsal :=
  let (answer, store) := r.service.store.interfere r.now is
  (answer, { r with service := { r.service with store := store } })

/-- Runs a vote, and lets things happen to the store before its commitment, if it gets there. A
fault of those ends the vote. -/
def vote (r : Rehearsal) (voter petition : Uuid) (type : String) (is : List Interference) :
    Rehearsal × Call :=
  let call := r.startVote voter petition type
  let (r, call) := steps Call.isCommit call.cost (r, call)
  match r.interfere (if call.isCommit then is else []) with
  | (.ok (), r) =>
    let (r, call) := r.complete call
    (r.accept [call], call)
  | (.error fault, r) => (r, .done (.error (.arithmetic fault)))

/-- Puts a text into the cache, for an hour. -/
def putText (r : Rehearsal) (key text : String) : Outcome Cache.Error Unit × Rehearsal :=
  let r := r.awaitCache
  let backend := Cache.ExpiringMap.backend 0 (r.cache.fault? none)
  let cache := r.service.cache
  let (answer, state) := backend.set key text (Cache.seconds 3600) cache.state
  (answer, { r with service := { r.service with cache := { cache with state := state } } })

/-- Waits for all background work. -/
def flush (r : Rehearsal) : Rehearsal :=
  { r with service := r.service.flush (r.conditions (.done (.ok .deleted))) }

end Rehearsal

end AuditedPetitions
