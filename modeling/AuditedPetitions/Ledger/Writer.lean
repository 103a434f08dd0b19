import AuditedPetitions.Arithmetic
import AuditedPetitions.Ledger.Config
import AuditedPetitions.Ledger.Metrics
import AuditedPetitions.Ledger.Snapshot

/-! The writer of a ledger. It alone extends the chain: requests wait in its mailbox, and it takes
them one by one, searches a nonce on the tail that it saw, and pushes the block. Clients may put
requests into the mailbox and may give up waiting at any time between these steps, so a run is a
list of actions. Each request has a ticket, under which the writer leaves its reply. A wait, for a
reply, for room in a full mailbox or for something else, is a run too: the writer takes turns until
it is over. -/

namespace AuditedPetitions.Ledger

inductive Request
  | append (ticket : Nat) (transaction : Transaction)
  | shutdown (ticket : Nat)

def Request.ticket : Request → Nat
  | .append ticket _ => ticket
  | .shutdown ticket => ticket

inductive Reply
  | sealed (block : Block)
  | failed (error : Error)
  /-- The writer has acknowledged a shutdown. -/
  | stopped

/-- What the writer is busy with. -/
inductive Work
  | idle
  | searching (ticket : Nat) (template : Template)
  | found (ticket : Nat) (result : Sealed) (micros : Nat)

structure Writer where
  chain : Chain
  metrics : Metrics
  /-- Requests, the oldest first. -/
  mailbox : List Request
  /-- Requests that the mailbox holds at most. -/
  capacity : Nat
  work : Work
  running : Bool
  nextTicket : Nat
  /-- Tickets whose clients wait no longer. -/
  forgotten : List Nat
  /-- Replies that were left for a waiting client, the latest first. -/
  replies : List (Nat × Reply)

namespace Writer

/-- Largest capacity that a mailbox can have. -/
def maxCapacity : UInt64 := 2305843009213693951

/-- A ledger starts with a sealed first block and an empty mailbox, made in this order. -/
def start (config : Config) (now eventTime : Instant) (micros : Nat) : Outcome Error Writer := do
  config.validate.mapError .refused
  let template := Template.genesis config.difficulty config.genesisDescription now eventTime
  let first ← template.findSeal.mapError .refused
  let chain ← (Chain.ofGenesis first.block).mapError .refused
  if maxCapacity < config.mailboxCapacity then .error (.arithmetic .capacityOverflow)
  else return ⟨chain, Metrics.zero.recordSealed (UInt64.ofNat first.attempts) micros, [],
    config.mailboxCapacity.toNat, .idle, true, 0, [], []⟩

/-- Leaves a reply, unless nobody waits for it. -/
def answer (w : Writer) (ticket : Nat) (r : Reply) : Writer :=
  if ticket ∈ w.forgotten then w else { w with replies := (ticket, r) :: w.replies }

def post (w : Writer) (request : Nat → Request) : Writer :=
  { w with mailbox := w.mailbox ++ [request w.nextTicket], nextTicket := w.nextTicket + 1 }

/-- Requests that are dropped with the mailbox fail. -/
def dropAll : List Request → Writer → Writer
  | [], w => w
  | r :: rs, w => dropAll rs (w.answer r.ticket (.failed (.concurrency .droppedReply)))

/-- Takes the oldest request: an append becomes a template on the present tail, a shutdown is
acknowledged and ends the mailbox. -/
def receive (w : Writer) (now : Instant) : Writer :=
  match w.running, w.work, w.mailbox with
  | true, .idle, .append ticket t :: rest =>
    { w with mailbox := rest, work := .searching ticket (w.chain.nextTemplate t now) }
  | true, .idle, .shutdown ticket :: rest =>
    dropAll rest ({ w with mailbox := [], running := false }.answer ticket .stopped)
  | _, _, _ => w

/-- Ends the search, with a block or with an error; it may be broken off from outside. -/
def search (w : Writer) (aborted : Bool) (micros : Nat) : Writer :=
  match w.work with
  | .searching ticket template =>
    match if aborted then .error (.sealing .aborted) else template.findSeal with
    | .ok result => { w with work := .found ticket result micros }
    | .error e => { w with work := .idle }.answer ticket (.failed e)
  | _ => w

/-- Pushes the block that was found, counts it, and replies with it. -/
def push (w : Writer) : Writer :=
  match w.work with
  | .found ticket result micros =>
    match w.chain.push result.block with
    | .ok chain =>
      { w with
        chain := chain
        metrics := w.metrics.recordSealed (UInt64.ofNat result.attempts) micros
        work := .idle }.answer ticket (.sealed result.block)
    | .error e => { w with work := .idle }.answer ticket (.failed e)
  | _ => w

inductive Action
  | submit (transaction : Transaction)
  | shutdown
  | forget (ticket : Nat)
  | receive (now : Instant)
  | search (aborted : Bool) (micros : Nat)
  | push

def step (w : Writer) : Action → Writer
  | .submit t => if w.running then w.post (.append · t) else w
  | .shutdown => if w.running then w.post .shutdown else w
  | .forget ticket =>
    { w with
      forgotten := ticket :: w.forgotten
      replies := w.replies.filter (·.1 ≠ ticket) }
  | .receive now => w.receive now
  | .search aborted micros => w.search aborted micros
  | .push => w.push

def run (w : Writer) (actions : List Action) : Writer := actions.foldl step w

/-- Puts a transaction into the mailbox, if there is still a writer to take it. -/
def submit (w : Writer) (t : Transaction) : Except Error (Nat × Writer) :=
  if w.running then .ok (w.nextTicket, w.step (.submit t)) else .error (.concurrency .stopped)

def shutdown (w : Writer) : Except Error (Nat × Writer) :=
  if w.running then .ok (w.nextTicket, w.step .shutdown) else .error (.concurrency .stopped)

def reply? (w : Writer) (ticket : Nat) : Option Reply :=
  (w.replies.find? (·.1 == ticket)).map Prod.snd

/-- Actions of one turn: the writer ends what it is busy with, and takes the next request. -/
def turn (now : Instant) : List Action := [.search false 0, .push, .receive now]

def advance (w : Writer) (now : Instant) : Writer := w.run (turn now)

/-- Waits until the mailbox can take a request. One turn is enough. -/
def makeRoom (w : Writer) (now : Instant) : Writer :=
  if w.mailbox.length < w.capacity then w else w.advance now

/-- Turns until a wait is over, but so many at most. -/
def advanceUntil (stop : Writer → Bool) (now : Instant) : Nat → Writer → Writer
  | 0, w => w
  | n + 1, w => if stop w then w else advanceUntil stop now n (w.advance now)

/-- Waits for the reply to a request. The present work and the mailbox bound the turns. -/
def await (w : Writer) (ticket : Nat) (now : Instant) : Writer :=
  advanceUntil (fun w => (w.reply? ticket).isSome) now (w.mailbox.length + 1) w

/-- Ends the present work and all that is in the mailbox. -/
def drain (w : Writer) (now : Instant) : Writer :=
  advanceUntil (fun _ => false) now (w.mailbox.length + 1) w

theorem run_append (w : Writer) (xs ys : List Action) : w.run (xs ++ ys) = (w.run xs).run ys :=
  List.foldl_append

theorem exists_run_makeRoom (w : Writer) (now : Instant) :
    ∃ actions, w.makeRoom now = w.run actions := by
  unfold makeRoom
  split
  · exact ⟨[], rfl⟩
  · exact ⟨turn now, rfl⟩

theorem exists_run_advanceUntil (stop : Writer → Bool) (now : Instant) (n : Nat) (w : Writer) :
    ∃ actions, advanceUntil stop now n w = w.run actions := by
  induction n generalizing w with
  | zero => exact ⟨[], rfl⟩
  | succ n ih =>
    rw [advanceUntil]
    split
    · exact ⟨[], rfl⟩
    · obtain ⟨actions, h⟩ := ih (w.advance now)
      exact ⟨turn now ++ actions, by rw [h, run_append, advance]⟩

/-- A wait is a run of the writer. -/
theorem exists_run_await (w : Writer) (ticket : Nat) (now : Instant) :
    ∃ actions, w.await ticket now = w.run actions :=
  exists_run_advanceUntil _ now _ w

theorem exists_run_drain (w : Writer) (now : Instant) : ∃ actions, w.drain now = w.run actions :=
  exists_run_advanceUntil _ now _ w

@[simp] theorem chain_answer (w : Writer) (ticket : Nat) (r : Reply) :
    (w.answer ticket r).chain = w.chain := by
  unfold answer
  split <;> rfl

@[simp] theorem metrics_answer (w : Writer) (ticket : Nat) (r : Reply) :
    (w.answer ticket r).metrics = w.metrics := by
  unfold answer
  split <;> rfl

@[simp] theorem mailbox_answer (w : Writer) (ticket : Nat) (r : Reply) :
    (w.answer ticket r).mailbox = w.mailbox := by
  unfold answer
  split <;> rfl

@[simp] theorem running_answer (w : Writer) (ticket : Nat) (r : Reply) :
    (w.answer ticket r).running = w.running := by
  unfold answer
  split <;> rfl

@[simp] theorem work_answer (w : Writer) (ticket : Nat) (r : Reply) :
    (w.answer ticket r).work = w.work := by
  unfold answer
  split <;> rfl

theorem mailbox_dropAll (rs : List Request) (w : Writer) :
    (dropAll rs w).mailbox = w.mailbox := by
  induction rs generalizing w with
  | nil => rfl
  | cons r rs ih => rw [dropAll, ih, mailbox_answer]

/-- After the search and the push the writer is free. -/
theorem work_push_search (w : Writer) (aborted : Bool) (micros : Nat) :
    (w.search aborted micros).push.work = .idle := by
  unfold search
  split
  · split
    · unfold push
      dsimp only
      split <;> simp
    · simp [push]
  · rename_i h
    unfold push
    cases hw : w.work with
    | idle => simpa using hw
    | searching ticket template => exact absurd hw (h ticket template)
    | found ticket result micros => dsimp only; split <;> simp

theorem mailbox_push_search (w : Writer) (aborted : Bool) (micros : Nat) :
    (w.search aborted micros).push.mailbox = w.mailbox ∧
      (w.search aborted micros).push.running = w.running := by
  have hs : (w.search aborted micros).mailbox = w.mailbox ∧
      (w.search aborted micros).running = w.running := by
    unfold search
    split
    · split <;> simp
    · simp
  rw [← hs.1, ← hs.2]
  unfold push
  split
  · split <;> simp
  · simp

/-- A turn takes a request out of the mailbox. -/
theorem length_mailbox_advance (w : Writer) (now : Instant)
    (h : w.running = true ∨ w.mailbox = []) :
    (w.advance now).mailbox.length ≤ w.mailbox.length - 1 := by
  have hm := mailbox_push_search w false 0
  have hw := work_push_search w false 0
  change ((w.search false 0).push.receive now).mailbox.length ≤ _
  rw [← hm.1, ← hm.2] at h
  rw [← hm.1]
  rcases hb : (w.search false 0).push.mailbox with _ | ⟨request, rest⟩
  · simp [receive, hb]
  · have hr : (w.search false 0).push.running = true := by simpa [hb] using h
    cases request <;> simp [receive, hb, hr, hw, mailbox_dropAll]

/-- A writer that runs no more has an empty mailbox, and a turn does not change that. -/
theorem running_or_mailbox_advance (w : Writer) (now : Instant)
    (h : w.running = true ∨ w.mailbox = []) :
    (w.advance now).running = true ∨ (w.advance now).mailbox = [] := by
  have hm := mailbox_push_search w false 0
  rw [← hm.1, ← hm.2] at h
  change ((w.search false 0).push.receive now).running = true ∨
    ((w.search false 0).push.receive now).mailbox = []
  unfold receive
  split
  · rename_i hr _ _
    exact .inl hr
  · simp [mailbox_dropAll]
  · exact h

theorem mailbox_advanceUntil (now : Instant) (n : Nat) (w : Writer)
    (hl : w.mailbox.length ≤ n) (h : w.running = true ∨ w.mailbox = []) :
    (advanceUntil (fun _ => false) now n w).mailbox = [] := by
  induction n generalizing w with
  | zero => exact List.length_eq_zero_iff.1 (Nat.le_zero.1 hl)
  | succ n ih =>
    have := w.length_mailbox_advance now h
    exact ih (w.advance now) (by omega) (w.running_or_mailbox_advance now h)

/-- A drained writer leaves nothing in the mailbox. -/
theorem mailbox_drain (w : Writer) (now : Instant) (h : w.running = true) :
    (w.drain now).mailbox = [] :=
  mailbox_advanceUntil now _ w (Nat.le_succ _) (.inl h)

theorem length_mailbox_makeRoom (w : Writer) (now : Instant) (hr : w.running = true)
    (hc : 0 < w.capacity) (hl : w.mailbox.length ≤ w.capacity) :
    (w.makeRoom now).mailbox.length < w.capacity := by
  unfold makeRoom
  split
  · assumption
  · have := w.length_mailbox_advance now (.inl hr)
    omega

end Writer

/-- Other end of a client's handle: a writer, or one of three ways to have none. -/
inductive Peer
  | live (w : Writer)
  /-- Takes requests and loses them. -/
  | losing
  /-- Answers every append with a failed search and loses shutdowns. -/
  | failing
  | closed

namespace Peer

/-- A submitted append: a ticket, or the reply that is already certain. -/
inductive Pending
  | ticket (n : Nat)
  | settled (r : Reply)

def submit (p : Peer) (t : Transaction) : Except Error (Pending × Peer) :=
  match p with
  | .live w => (w.submit t).map fun r => (.ticket r.1, .live r.2)
  | .losing => .ok (.settled (.failed (.concurrency .droppedReply)), p)
  | .failing => .ok (.settled (.failed (.sealing .nonceSpaceExhausted)), p)
  | .closed => .error (.concurrency .stopped)

def shutdown (p : Peer) : Except Error (Pending × Peer) :=
  match p with
  | .live w => w.shutdown.map fun r => (.ticket r.1, .live r.2)
  | .losing | .failing => .ok (.settled (.failed (.concurrency .droppedReply)), p)
  | .closed => .error (.concurrency .stopped)

/-- Waits until a request can be submitted. A peer that is no writer never is full. -/
def makeRoom (p : Peer) (now : Instant) : Peer :=
  match p with
  | .live w => .live (w.makeRoom now)
  | p => p

/-- Waits for the reply to a pending request. -/
def await (p : Peer) (now : Instant) : Pending → Peer
  | .settled _ => p
  | .ticket n =>
    match p with
    | .live w => .live (w.await n now)
    | p => p

/-- Passes time in which a writer can do all its work. -/
def drain (p : Peer) (now : Instant) : Peer :=
  match p with
  | .live w => .live (w.drain now)
  | p => p

/-- Reply to a pending request, once there is one. A peer that is no writer has dropped it. -/
def reply? (p : Peer) : Pending → Option Reply
  | .settled r => some r
  | .ticket n =>
    match p with
    | .live w => w.reply? n
    | _ => some (.failed (.concurrency .droppedReply))

def forget (p : Peer) : Pending → Peer
  | .settled _ => p
  | .ticket n =>
    match p with
    | .live w => .live (w.step (.forget n))
    | p => p

/-- An action at the other end; a peer that is no writer knows none. -/
def act (p : Peer) (action : Writer.Action) : Peer :=
  match p with
  | .live w => .live (w.step action)
  | p => p

/-- Chain so far; a broken peer has none. -/
def snapshot : Peer → Snapshot
  | .live w => w.chain.snapshot
  | _ => ⟨[]⟩

end Peer

end AuditedPetitions.Ledger
