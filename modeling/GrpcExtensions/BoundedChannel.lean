import GrpcExtensions.TransitionSystem

/-!
# Bounded first-in first-out channels

One bounded queue between senders and a single receiver.  A send meets a
closed receiver, a full queue or free room; a receive takes the oldest item,
reports the end of the stream once every sender is gone and the queue is
empty, or waits.  `placed` is the history of everything that ever entered the
queue, and each operation is described by what it does to that history.
-/

universe u

/-- A channel together with what its reader has been handed so far. -/
structure Channel (α : Type u) where
  capacity : ℕ
  queue : List α
  received : List α
  senderAlive : Bool
  receiverAlive : Bool
  /-- The reader has been told that the stream is over. -/
  finished : Bool
  bounded : queue.length ≤ capacity

namespace Channel

variable {α : Type u}

/-- A fresh channel: one live sender, one live receiver, nothing queued. -/
def new (α : Type u) (capacity : ℕ) : Channel α where
  capacity := capacity
  queue := []
  received := []
  senderAlive := true
  receiverAlive := true
  finished := false
  bounded := Nat.zero_le capacity

def HasRoom (ch : Channel α) : Prop :=
  ch.queue.length < ch.capacity

instance (ch : Channel α) : Decidable ch.HasRoom :=
  inferInstanceAs (Decidable (_ < _))

/-- Everything that has entered the queue, oldest item first. -/
def placed (ch : Channel α) : List α :=
  ch.received ++ ch.queue

def push (ch : Channel α) (item : α) (hroom : ch.HasRoom) : Channel α :=
  { ch with
    queue := ch.queue ++ [item]
    bounded := by
      have hlt : ch.queue.length < ch.capacity := hroom
      simp only [List.length_append, List.length_singleton]
      omega }

/-- Hand the oldest queued item to the reader. -/
def pop (ch : Channel α) : Channel α :=
  { ch with
    queue := ch.queue.tail
    received := ch.received ++ ch.queue.take 1
    bounded := by
      have hle := ch.bounded
      simp only [List.length_tail]
      omega }

def dropSender (ch : Channel α) : Channel α :=
  { ch with senderAlive := false }

def close (ch : Channel α) : Channel α :=
  { ch with receiverAlive := false }

/-- Tell the reader that the stream is over. -/
def finish (ch : Channel α) : Channel α :=
  { ch with finished := true }

/-- What an awaited send meets. -/
inductive SendOutcome (α : Type u) where
  | sent (ch : Channel α)
  | closed
  | full

def send (ch : Channel α) (item : α) : SendOutcome α :=
  if ch.receiverAlive = false then .closed
  else if hroom : ch.HasRoom then .sent (ch.push item hroom)
  else .full

/-- Poll the receiver: `none` says that the reader has to wait, has dropped
the receiver or has already seen the end. -/
def recv (ch : Channel α) : Option (Channel α) :=
  if ch.receiverAlive = false ∨ ch.finished = true then none
  else if ch.queue ≠ [] then some ch.pop
  else if ch.senderAlive = false then some ch.finish
  else none

theorem send_eq_closed {ch : Channel α} {item : α} :
    ch.send item = .closed ↔ ch.receiverAlive = false := by
  unfold send
  split
  next hclosed => simp [hclosed]
  next hopen =>
    split <;> simp [hopen]

theorem send_eq_sent {ch next : Channel α} {item : α} :
    ch.send item = .sent next ↔
      ch.receiverAlive = true ∧ ∃ hroom, next = ch.push item hroom := by
  unfold send
  split
  next hclosed => simp [hclosed]
  next hopen =>
    have halive : ch.receiverAlive = true := by simpa using hopen
    split
    next hroom =>
      simp only [SendOutcome.sent.injEq, halive, true_and]
      exact ⟨fun heq => ⟨hroom, heq.symm⟩, fun ⟨_, heq⟩ => heq.symm⟩
    next hfull => simp [hfull]

theorem send_of_room
    {ch : Channel α} (item : α) (hopen : ch.receiverAlive = true)
    (hroom : ch.HasRoom) : ch.send item = .sent (ch.push item hroom) :=
  send_eq_sent.mpr ⟨hopen, hroom, rfl⟩

theorem send_eq_full {ch : Channel α} {item : α} :
    ch.send item = .full ↔ ch.receiverAlive = true ∧ ¬ ch.HasRoom := by
  unfold send
  split
  next hclosed => simp [hclosed]
  next hopen =>
    have halive : ch.receiverAlive = true := by simpa using hopen
    split <;> simp [*]

theorem recv_eq_some {ch next : Channel α} :
    ch.recv = some next ↔
      ch.receiverAlive = true ∧ ch.finished = false ∧
        ((ch.queue ≠ [] ∧ next = ch.pop) ∨
          (ch.queue = [] ∧ ch.senderAlive = false ∧
            next = ch.finish)) := by
  unfold recv
  cases hreceiver : ch.receiverAlive <;> cases hfinished : ch.finished <;>
    cases hsender : ch.senderAlive <;>
    by_cases hqueue : ch.queue = [] <;>
    simp [hqueue, eq_comm]

/-- A reader that keeps reading waits only for a live sender. -/
theorem recv_eq_none {ch : Channel α} :
    ch.recv = none ↔
      ch.receiverAlive = false ∨ ch.finished = true ∨
        (ch.queue = [] ∧ ch.senderAlive = true) := by
  unfold recv
  cases hreceiver : ch.receiverAlive <;> cases hfinished : ch.finished <;>
    cases hsender : ch.senderAlive <;>
    by_cases hqueue : ch.queue = [] <;>
    simp [hqueue]

section Fields

variable (ch : Channel α) (item : α) (hroom : ch.HasRoom)

@[simp]
theorem new_placed (capacity : ℕ) :
    (new α capacity).placed = [] := rfl

@[simp]
theorem new_senderAlive (capacity : ℕ) :
    (new α capacity).senderAlive = true := rfl

@[simp]
theorem new_finished (capacity : ℕ) :
    (new α capacity).finished = false := rfl

@[simp]
theorem new_capacity (capacity : ℕ) :
    (new α capacity).capacity = capacity := rfl

@[simp]
theorem push_placed :
    (ch.push item hroom).placed = ch.placed ++ [item] := by
  simp [push, placed]

@[simp]
theorem pop_placed : ch.pop.placed = ch.placed := by
  cases hqueue : ch.queue <;> simp [pop, placed, hqueue]

@[simp]
theorem pop_finished : ch.pop.finished = ch.finished := rfl

@[simp]
theorem dropSender_placed : ch.dropSender.placed = ch.placed := rfl

@[simp]
theorem dropSender_senderAlive :
    ch.dropSender.senderAlive = false := rfl

@[simp]
theorem dropSender_receiverAlive :
    ch.dropSender.receiverAlive = ch.receiverAlive := rfl

@[simp]
theorem dropSender_finished :
    ch.dropSender.finished = ch.finished := rfl

@[simp]
theorem close_placed : ch.close.placed = ch.placed := rfl

@[simp]
theorem close_receiverAlive : ch.close.receiverAlive = false := rfl

@[simp]
theorem finish_placed : ch.finish.placed = ch.placed := rfl

end Fields

theorem received_prefix_placed (ch : Channel α) :
    ch.received <+: ch.placed :=
  List.prefix_append ch.received ch.queue

theorem placed_of_queue_nil {ch : Channel α} (hqueue : ch.queue = []) :
    ch.placed = ch.received := by
  simp [placed, hqueue]

/-- Reading on once the sender is gone: the queued items arrive in order and
then the stream ends. -/
theorem reads_to_end
    (ch : Channel α) (hsender : ch.senderAlive = false)
    (hreceiver : ch.receiverAlive = true) (hopen : ch.finished = false) :
    ∃ last,
      TransitionSystem.exec (fun (c : Channel α) (_ : Unit) => c.recv) ch
          (List.replicate (ch.queue.length + 1) ()) = some last ∧
        last.finished = true ∧ last.received = ch.placed := by
  induction hlength : ch.queue.length generalizing ch with
  | zero =>
      have hqueue : ch.queue = [] := List.length_eq_zero_iff.mp hlength
      refine ⟨ch.finish, ?_, rfl, ?_⟩
      · have hrecv : ch.recv = some ch.finish := by
          simp [recv_eq_some, hreceiver, hopen, hqueue, hsender]
        simp [TransitionSystem.exec, hrecv]
      · exact (placed_of_queue_nil hqueue).symm
  | succ n ih =>
      have hqueue : ch.queue ≠ [] := by
        intro hnil
        simp [hnil] at hlength
      have hrecv : ch.recv = some ch.pop := by
        simp [recv_eq_some, hreceiver, hopen, hqueue]
      have hpop : ch.pop.queue.length = n := by
        simp [pop, hlength]
      obtain ⟨last, hrun, hfinished, hreceived⟩ :=
        ih ch.pop hsender hreceiver hopen hpop
      refine ⟨last, ?_, hfinished, by simpa using hreceived⟩
      rw [List.replicate_succ, TransitionSystem.exec_cons_eq_some]
      exact ⟨ch.pop, hrecv, hrun⟩

end Channel
