import AuditedPetitions.Petition.Service

/-! Traffic: a service and the calls that any number of clients make of it. The calls take their
steps in any order, one collaborator at a time; between the steps the store is switched on and off,
background tasks finish and the ledger's writer goes on. A run is the list of these events. A client
whose call has ended stays in the traffic with its answer. -/

namespace AuditedPetitions

/-- What a client asks for, with the identifier that the service draws for it. -/
inductive Demand
  | create (request : NewPetition) (id : Uuid)
  | vote (ballot : Ballot)
  | delete (id : Uuid)
  | get (id : Uuid)
  | list (limit offset : Option Int64)
  deriving DecidableEq

namespace Demand

/-- Identifier drawn for a new petition. -/
def newId? : Demand → Option Uuid
  | .create _ id => some id
  | _ => none

/-- First place of a call. -/
def start (s : Service) (now : Instant) : Demand → Call
  | .create request id => Service.startCreate request id now
  | .vote ballot => s.startVote ballot
  | .delete id => .delete id
  | .get id => Service.startGet id
  | .list limit offset => s.startList limit offset

end Demand

/-- Vote that a call has written. -/
def Call.castVote? : Call → Option Vote
  | .settle _ (.vote v) => some v
  | .done (.ok (.vote v)) => some v
  | _ => none

structure Client where
  demand : Demand
  call : Call

/-- Whether the call is a voter's vote on a petition, and has been written. -/
def Client.hasCast (c : Client) (voter petition : Uuid) : Bool :=
  match c.demand with
  | .vote b => b.voter = voter && b.petition = petition && c.call.castVote?.isSome
  | _ => false

structure Traffic where
  service : Service
  /-- Clients in the order of their arrival. -/
  clients : List Client

namespace Traffic

inductive Event
  | arrive (demand : Demand) (now : Instant)
  /-- The call of a client takes a step. -/
  | advance (client : Nat) (c : Conditions)
  | switchStore (available : Bool)
  /-- A background task is run. -/
  | work (task : Nat) (c : Conditions)
  /-- Something happens at the ledger. -/
  | ledger (action : Ledger.Writer.Action)

def Event.demand? : Event → Option Demand
  | .arrive demand _ => some demand
  | _ => none

def start (settings : Settings) (cache : CacheConfig) (ledger : Ledger.Peer) : Traffic :=
  ⟨.start settings cache ledger, []⟩

def advance (t : Traffic) (n : Nat) (c : Conditions) : Traffic :=
  match t.clients[n]? with
  | none => t
  | some client =>
    let (service, call) := t.service.step c client.call
    ⟨service, t.clients.set n ⟨client.demand, call⟩⟩

/-- Takes a task out of the background and runs it. -/
def work (s : Service) (n : Nat) (c : Conditions) : Service :=
  match s.background[n]? with
  | none => s
  | some task => { s with background := s.background.eraseIdx n }.runTask c task

def step (t : Traffic) : Event → Traffic
  | .arrive demand now =>
    { t with clients := t.clients ++ [⟨demand, demand.start t.service now⟩] }
  | .advance n c => t.advance n c
  | .switchStore available =>
    { t with service.store.available := available }
  | .work n c => { t with service := work t.service n c }
  | .ledger action => { t with service.ledger := t.service.ledger.act action }

def run (t : Traffic) (events : List Event) : Traffic := events.foldl step t

/-- Number of calls that have written a voter's vote on a petition. -/
def commits (t : Traffic) (voter petition : Uuid) : Nat :=
  t.clients.countP (·.hasCast voter petition)

theorem run_append (t : Traffic) (xs ys : List Event) :
    t.run (xs ++ ys) = (t.run xs).run ys := List.foldl_append

theorem run_concat (t : Traffic) (xs : List Event) (x : Event) :
    t.run (xs ++ [x]) = (t.run xs).step x := run_append t xs [x]

end Traffic

end AuditedPetitions
