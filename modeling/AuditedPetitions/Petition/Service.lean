import AuditedPetitions.Ledger.Writer
import AuditedPetitions.Petition.Audit
import AuditedPetitions.Petition.Caching
import AuditedPetitions.Petition.Event
import AuditedPetitions.Petition.Metrics
import AuditedPetitions.Petition.Search
import AuditedPetitions.Petition.Store

/-! The service. The store alone decides whether an operation happened; once it has, the ledger, the
cache and the index are brought up to date, and what fails there is reported as a degraded write and
never changes the answer. A call runs in steps, each of which asks at most one collaborator, so the
steps of several calls can follow each other in any order. What a step meets, the time and which
collaborator fails, is given to it. -/

namespace AuditedPetitions

structure Conditions where
  now : Instant
  /-- Clock of the cache. -/
  moment : Nat
  /-- Number drawn for the lifetime of a listing. -/
  draw : Nat
  store : Option StoreError
  cache : Option Cache.Error
  index : Option IndexError
  ledger : Option Ledger.Error

/-- A vote that a caller asks for, with the identifier that it will have. -/
structure Ballot where
  voter : Uuid
  petition : Uuid
  type : String
  id : Uuid
  deriving DecidableEq

inductive Reply
  | petition (p : Petition)
  | vote (v : Vote)
  | deleted
  | listing (ps : List Petition)

abbrev Answer := Outcome PetitionError Reply

/-- Work that follows a committed write. -/
inductive Effect
  | record (d : Ledger.Draft)
  | awaitSeal (pending : Ledger.Peer.Pending) (description : String)
  | dropPetition (id : Uuid)
  | findListings
  | dropListings (keys : List String)

/-- Work that no caller waits for. -/
inductive Task
  | index (document : SearchDocument)
  | seal (pending : Ledger.Peer.Pending) (description : String)

/-- Request that a task waits for. -/
def Task.pending? : Task → Option Ledger.Peer.Pending
  | .seal pending _ => some pending
  | .index _ => none

/-- What a read asks the store for. -/
inductive Query
  | petition (id : Uuid)
  | listing (limit : Option Int64) (offset : Int64)

/-- Where a call stands. -/
inductive Call
  /-- A valid request, with the identifier that its petition will have. -/
  | create (request : NewPetition) (id : Uuid)
  | delete (id : Uuid)
  /-- A vote, before it looks for an earlier one. -/
  | preflight (b : Ballot)
  /-- A vote, before it reads its petition. -/
  | examine (b : Ballot)
  | commit (b : Ballot) (type : VoteType)
  | settle (effects : List Effect) (reply : Reply)
  | look (q : Query) (key : String)
  /-- A read without an entry in the cache, and the key under which its value will be stored. -/
  | load (q : Query) (key : Option String)
  | fill (q : Query) (key : String) (reply : Reply)
  | done (answer : Answer)

structure Service where
  settings : Settings
  cacheConfig : CacheConfig
  store : Store
  cache : Cache Cache.ExpiringMap
  ledger : Ledger.Peer
  /-- Documents in the order in which they were indexed. -/
  documents : List (Uuid × SearchDocument)
  audit : AuditTrail
  metrics : ServiceMetrics
  background : List Task

def Conditions.atStore {α : Type} (c : Conditions) (answer : Outcome StoreError α) :
    Outcome StoreError α :=
  match c.store with
  | some e => refuse e
  | none => answer

def Conditions.backend (c : Conditions) : Cache.Backend Cache.ExpiringMap :=
  Cache.ExpiringMap.backend c.moment c.cache

/-- Vote type of a ballot that a petition, as it was read, accepts. -/
def Petition.admit (p : Petition) (type : String) (now : Instant) :
    Outcome PetitionError VoteType := do
  match VoteType.ofText type with
  | .error e => refuse e
  | .ok type =>
    if p.isClosedAt now then refuse .votingClosed
    else if ← p.goalReached then refuse .goalReached
    else return type

def Query.codec (q : Query) : Cache.Codec Reply where
  encode
    | .petition p => p.toJson
    | .listing ps => .array (ps.map Petition.toJson)
    | .vote v => v.toJson
    | .deleted => .null
  decode d := match q with
    | .petition _ => (Petition.ofDocument? d).map .petition
    | .listing .. => (d.list? Petition.ofDocument?).map .listing

/-- Answer of the store to a query. -/
def Query.answer (q : Query) (s : Store) : Outcome StoreError Reply :=
  match q with
  | .petition id => (s.getById id).map .petition
  | .listing limit offset => (s.list limit offset).map .listing

/-- Lifetime of the entry under a key, in seconds. -/
def Query.ttl (q : Query) (c : CacheConfig) (draw : Nat) : UInt64 :=
  match q with
  | .petition _ => c.petitionTtl
  | .listing none _ => c.listingTtl draw
  | .listing (some _) _ => c.pageTtl

namespace Service

def start (settings : Settings) (cache : CacheConfig) (ledger : Ledger.Peer) : Service :=
  ⟨settings, cache, .empty, ⟨.empty, .zero⟩, ledger, [], [], .zero, []⟩

def emit (s : Service) (level : AuditLevel) (message : String) : Service :=
  { s with audit := s.audit ++ [⟨level, message⟩] }

/-- Reports a side effect that failed after its write. -/
def degrade (s : Service) (effect detail : String) : Service :=
  { s with metrics := s.metrics.recordDegraded effect }.emit .warn
    ("degraded write (" ++ effect ++ "): " ++ detail)

def spawn (s : Service) (t : Task) : Service := { s with background := s.background ++ [t] }

def degradeAppend (s : Service) (description : String) (e : Ledger.Error) : Service :=
  s.degrade "ledger" ("ledger append for '" ++ description ++ "' failed: " ++ e.message)

/-- Counts and reports the outcome of a vote. A vote that ends for want of a number leaves no trace. -/
def closeVote (s : Service) (voter petition : Uuid) (result : Outcome PetitionError Vote) :
    Service × Call :=
  let subject := "user " ++ voter.text
  match result with
  | .ok v =>
    ({ s with metrics := s.metrics.recordVote .accepted }.emit .info
      ("vote accepted: " ++ subject ++ " voted " ++ v.voteType.name ++ " on petition " ++
        petition.text), .done (.ok (.vote v)))
  | .error (.refused e) =>
    ({ s with metrics := s.metrics.recordVote e.outcome }.emit
      (if e.kind = ErrorKind.internal then .error else .info)
      ("vote rejected: " ++ subject ++ " on petition " ++ petition.text ++ ": " ++ e.message),
      .done (refuse e))
  | .error (.arithmetic fault) => (s, .done (.error (.arithmetic fault)))

/-- Same refusal or fault, as the answer of a call. -/
def failed (f : Failure StoreError) : Answer :=
  Outcome.mapRefusal PetitionError.ofStore (.error f)

def rejectVote (s : Service) (b : Ballot) (f : Failure StoreError) : Service × Call :=
  s.closeVote b.voter b.petition (Outcome.mapRefusal PetitionError.ofStore (.error f))

/-- Stamps a transaction and puts it into the ledger's mailbox, and waits for its block or leaves that
to a task. -/
def record (s : Service) (c : Conditions) (d : Ledger.Draft) : Service × List Effect :=
  match c.ledger.elim (s.ledger.submit (d.stamp c.now)) .error with
  | .error e => (s.degradeAppend d.description e, [])
  | .ok (pending, ledger) =>
    let s := { s with ledger := ledger }
    match s.settings.appendMode with
    | .inline => (s, [.awaitSeal pending d.description])
    | .background => (s.spawn (.seal pending d.description), [])

/-- What the end of a search means for the event that was submitted. -/
def noteReply (s : Service) (description : String) : Ledger.Reply → Service
  | .failed e => s.degradeAppend description e
  | .sealed _ | .stopped => s

/-- Performs an effect, and tells what is left of it. -/
def perform (s : Service) (c : Conditions) : Effect → Service × List Effect
  | .record d => s.record c d
  | .awaitSeal pending description =>
    match s.ledger.reply? pending with
    | none => (s, [.awaitSeal pending description])
    | some r => (s.noteReply description r, [])
  | .dropPetition id =>
    match s.cache.remove c.backend [CacheKey.petition id] with
    | (.ok _, cache) => ({ s with cache := cache }, [])
    | (.error e, cache) =>
      ({ s with cache := cache }.degrade "cache"
        ("invalidating petition " ++ id.text ++ " failed: " ++ e.message), [])
  | .findListings =>
    match s.cache.find c.backend CacheKey.listing with
    | (.ok [], cache) => ({ s with cache := cache }, [])
    | (.ok keys, cache) => ({ s with cache := cache }, [.dropListings keys])
    | (.error e, cache) =>
      ({ s with cache := cache }.degrade "cache" ("invalidating listings failed: " ++ e.message), [])
  | .dropListings keys =>
    match s.cache.remove c.backend keys with
    | (.ok _, cache) => ({ s with cache := cache }, [])
    | (.error e, cache) =>
      ({ s with cache := cache }.degrade "cache" ("invalidating listings failed: " ++ e.message), [])

/-- One step of a call. A call that is done, or waits for a block that is not there, stays. -/
def step (s : Service) (c : Conditions) : Call → Service × Call
  | .create request id =>
    let p := Petition.ofRequest request id c.now
    match c.atStore (s.store.create p) with
    | .error f => (s, .done (failed f))
    | .ok store =>
      ({ s with store := store }.emit .info
          ("petition " ++ p.id.text ++ " created by " ++ p.ownerId.text)
        |>.spawn (.index p.searchDocument),
        .settle [.findListings, .record p.draft] (.petition p))
  | .delete id =>
    match c.atStore (s.store.delete id c.now) with
    | .error f => (s, .done (failed f))
    | .ok store =>
      ({ s with store := store }.emit .info ("petition " ++ id.text ++ " deleted"),
        .settle [.dropPetition id, .findListings] .deleted)
  | .preflight b =>
    match c.atStore (s.store.hasVoted b.voter b.petition) with
    | .error f => s.rejectVote b f
    | .ok true => s.closeVote b.voter b.petition (refuse .alreadyVoted)
    | .ok false => (s, .examine b)
  | .examine b =>
    match c.atStore (s.store.getById b.petition) with
    | .error f => s.rejectVote b f
    | .ok p =>
      match p.admit b.type c.now with
      | .error f => s.closeVote b.voter b.petition (.error f)
      | .ok type => (s, .commit b type)
  | .commit b type =>
    let v : Vote := ⟨b.id, b.voter, b.petition, type, c.now⟩
    match c.atStore (s.store.vote v c.now) with
    | .error f => s.rejectVote b f
    | .ok store =>
      ({ s with store := store },
        .settle [.record v.draft, .dropPetition v.petitionId, .findListings] (.vote v))
  | .settle [] (.vote v) => s.closeVote v.voterId v.petitionId (.ok v)
  | .settle [] reply => (s, .done (.ok reply))
  | .settle (e :: es) reply =>
    let (s, more) := s.perform c e
    (s, .settle (more ++ es) reply)
  | .look q key =>
    match s.cache.lookup c.backend q.codec key with
    | (.hit reply, cache) => ({ s with cache := cache }, .done (.ok reply))
    | (_, cache) => ({ s with cache := cache }, .load q (some key))
  | .load q key =>
    match c.atStore (q.answer s.store), key with
    | .error f, _ => (s, .done (failed f))
    | .ok reply, none => (s, .done (.ok reply))
    | .ok reply, some key => (s, .fill q key reply)
  | .fill q key reply =>
    let ttl := Cache.seconds (q.ttl s.cacheConfig c.draw)
    match s.cache.fill c.backend q.codec key reply ttl with
    | (.ok (), cache) => ({ s with cache := cache }, .done (.ok reply))
    | (.error fault, cache) => ({ s with cache := cache }, .done (.error (.arithmetic fault)))
  | .done answer => (s, .done answer)

/-- Start of a creation, with the identifier that the petition will have. -/
def startCreate (request : NewPetition) (id : Uuid) (now : Instant) : Call :=
  match request.validate now with
  | .error e => .done (refuse e)
  | .ok () => .create request id

def startVote (s : Service) (b : Ballot) : Call :=
  if s.settings.preflight then .preflight b else .examine b

def startGet (id : Uuid) : Call := .look (.petition id) (CacheKey.petition id)

def startList (s : Service) (limit offset : Option Int64) : Call :=
  match PageRequest.resolve limit offset s.settings.pagination with
  | .error f => .done (.error f)
  | .ok request =>
    let q : Query := match request with
      | .all => .listing none 0
      | .page limit offset _ => .listing (some limit) offset
    match request.cacheKey? with
    | some key => .look q key
    | none => .load q none

/-- Runs a background task, or keeps it if its block is not there. -/
def runTask (s : Service) (c : Conditions) : Task → Service
  | .index d =>
    match c.index with
    | some e =>
      s.degrade "index" ("indexing petition " ++ d.id.text ++ " failed: " ++ e.message)
    | none => { s with documents := s.documents ++ [(d.id, d)] }
  | .seal pending description =>
    match s.ledger.reply? pending with
    | none => s.spawn (.seal pending description)
    | some r => s.noteReply description r

/-- Runs every background task once. -/
def runBackground (s : Service) (c : Conditions) : Service :=
  s.background.foldl (runTask · c) { s with background := [] }

/-- Lets the ledger's writer go on until there is a reply. -/
def await (s : Service) (now : Instant) (pending : Ledger.Peer.Pending) : Service :=
  { s with ledger := s.ledger.await now pending }

/-- Passes time in which the ledger's writer can do all its work. -/
def drainLedger (s : Service) (now : Instant) : Service := { s with ledger := s.ledger.drain now }

/-- Waits for all background work. -/
def flush (s : Service) (c : Conditions) : Service :=
  (s.background.filterMap Task.pending?).foldl (·.await c.now) s |>.runBackground c

def snapshot (s : Service) : Ledger.Snapshot := s.ledger.snapshot

end Service

/-- Steps that an effect takes at most. -/
def Effect.cost : Effect → Nat
  | .record _ | .findListings => 2
  | .awaitSeal .. | .dropPetition _ | .dropListings _ => 1

/-- Steps that a call takes at most, without those in which it waits for a block. -/
def Call.cost : Call → Nat
  | .create .. | .delete _ => 6
  | .preflight _ => 9
  | .examine _ => 8
  | .commit .. => 7
  | .settle effects _ => effects.foldr (fun e n => e.cost + n) 1
  | .look .. => 3
  | .load .. => 2
  | .fill .. => 1
  | .done _ => 0

end AuditedPetitions
