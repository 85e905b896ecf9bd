import GrpcExtensions.BoundedChannel
import Mathlib.Logic.Function.Basic

/-!
# The shared state of a streamed request

A `StreamedRequest` made by `new_as_stream` is a value behind a mutex which
the producer's sends, the `set_sender` task of every `get_consumer` call and
the producer's end-of-stream task take in turn.  The mutex stays locked while
its owner awaits capacity in a consumer's channel, so an action below is what
one task does between two awaits.  `accepted`, `lost` and `refused` record
the history of the sends and are read by no operation.
-/

namespace GrpcExtensions
namespace StreamedRequest

universe u

variable {α : Type u}

/-- A consumer is named by the position of its `get_consumer` call. -/
abbrev ConsumerId := ℕ

/-- The value behind the mutex.  A stored sender is named by its consumer. -/
inductive RequestAsStream (α : Type u) where
  | notInitialized (items : List α) (hasEndOfStream : Bool)
  | initialized (sender : Option ConsumerId)

/-- What the owner of the mutex keeps across an await: the item of `send`, or
the rest of the drain of `set_sender`. -/
inductive Awaiting (α : Type u) where
  | send (c : ConsumerId) (item : α)
  | drain (c : ConsumerId) (rest : List α)

structure State (α : Type u) where
  channelSize : ℕ
  request : RequestAsStream α
  lock : Option (Awaiting α)
  consumers : ℕ
  channel : ConsumerId → Channel α
  /-- The `set_sender` task of the consumer has not taken the mutex yet. -/
  waiting : ConsumerId → Bool
  /-- Items whose `send` has returned normally, in that order. -/
  accepted : List α
  /-- Items that were dropped without reaching any channel. -/
  lost : List α
  /-- Items whose `send` panicked. -/
  refused : List α

def newAsStream (α : Type u) (channelSize : ℕ) : State α where
  channelSize := channelSize
  request := .notInitialized [] false
  lock := none
  consumers := 0
  channel := fun _ => Channel.new α channelSize
  waiting := fun _ => false
  accepted := []
  lost := []
  refused := []

/-- Drop a stored sender, if there is one. -/
def dropStored
    (channel : ConsumerId → Channel α) :
    Option ConsumerId → ConsumerId → Channel α
  | none => channel
  | some c => Function.update channel c (channel c).dropSender

section DropStored

variable (channel : ConsumerId → Channel α) (sender : Option ConsumerId)
  (c : ConsumerId)

theorem dropStored_apply :
    dropStored channel sender c =
      if sender = some c then (channel c).dropSender else channel c := by
  cases sender with
  | none => simp [dropStored]
  | some old =>
      by_cases heq : c = old
      · subst c
        simp [dropStored]
      · simp [dropStored, heq, Ne.symm heq]

@[simp]
theorem dropStored_placed :
    (dropStored channel sender c).placed = (channel c).placed := by
  rw [dropStored_apply]
  split <;> rfl

@[simp]
theorem dropStored_receiverAlive :
    (dropStored channel sender c).receiverAlive =
      (channel c).receiverAlive := by
  rw [dropStored_apply]
  split <;> rfl

@[simp]
theorem dropStored_finished :
    (dropStored channel sender c).finished = (channel c).finished := by
  rw [dropStored_apply]
  split <;> rfl

@[simp]
theorem dropStored_queue :
    (dropStored channel sender c).queue = (channel c).queue := by
  rw [dropStored_apply]
  split <;> rfl

@[simp]
theorem dropStored_capacity :
    (dropStored channel sender c).capacity = (channel c).capacity := by
  rw [dropStored_apply]
  split <;> rfl

theorem dropStored_senderAlive :
    (dropStored channel sender c).senderAlive = true ↔
      (channel c).senderAlive = true ∧ sender ≠ some c := by
  rw [dropStored_apply]
  split
  next heq => simp [heq]
  next hne => simp [hne]

end DropStored

namespace State

def getConsumer (s : State α) : State α :=
  { s with
    consumers := s.consumers + 1
    channel :=
      Function.update s.channel s.consumers (Channel.new α s.channelSize)
    waiting := Function.update s.waiting s.consumers true }

/-- `send` from the moment it owns the mutex to its first await or its end. -/
def send (s : State α) (item : α) : State α :=
  match s.request with
  | .notInitialized items hasEndOfStream =>
      if hasEndOfStream then
        { s with refused := s.refused ++ [item] }
      else
        { s with
          request := .notInitialized (items ++ [item]) hasEndOfStream
          accepted := s.accepted ++ [item] }
  | .initialized sender =>
      match sender with
      | some c => { s with lock := some (.send c item) }
      | none => { s with refused := s.refused ++ [item] }

/-- `set_sender` from the moment it owns the mutex to its first await or its
end.  `drain(..)` empties the vector at once: what the loop leaves behind is
dropped with the iterator. -/
def setSender (s : State α) (c : ConsumerId) : State α :=
  match s.request with
  | .notInitialized items hasEndOfStream =>
      { s with
        request := .notInitialized [] hasEndOfStream
        lock := some (.drain c items)
        waiting := Function.update s.waiting c false }
  | .initialized existingSender =>
      { s with
        request := .initialized (some c)
        channel := dropStored s.channel existingSender
        waiting := Function.update s.waiting c false }

def sendEof (s : State α) : State α :=
  match s.request with
  | .notInitialized items _ =>
      { s with request := .notInitialized items true }
  | .initialized sender =>
      { s with
        request := .initialized none
        channel := dropStored s.channel sender }

/-- The awaited `sender.send(item)` of the mutex's owner completes. -/
def place (s : State α) : Option (State α) :=
  match s.lock with
  | some (.send c item) =>
      match (s.channel c).send item with
      | .sent next =>
          some { s with
            channel := Function.update s.channel c next
            lock := none
            accepted := s.accepted ++ [item] }
      | .closed =>
          -- the error is printed and `send` returns normally
          some { s with
            lock := none
            accepted := s.accepted ++ [item]
            lost := s.lost ++ [item] }
      | .full => none
  | some (.drain c (item :: rest)) =>
      match (s.channel c).send item with
      | .sent next =>
          some { s with
            channel := Function.update s.channel c next
            lock := some (.drain c rest) }
      | .closed =>
          -- the early return drops the drain iterator and the new sender
          some { s with
            channel :=
              Function.update s.channel c (s.channel c).dropSender
            lock := none
            lost := s.lost ++ item :: rest }
      | .full => none
  | _ => none

/-- `set_sender` after its drain loop. -/
def finishDrain (s : State α) : Option (State α) :=
  match s.lock with
  | some (.drain c []) =>
      match s.request with
      | .notInitialized _ hasEndOfStream =>
          if hasEndOfStream then
            some { s with
              channel :=
                Function.update s.channel c (s.channel c).dropSender
              lock := none }
          else
            some { s with
              request := .initialized (some c)
              lock := none }
      | .initialized _ => none
  | _ => none

theorem send_buffered
    (s : State α) {items : List α} (item : α)
    (hrequest : s.request = .notInitialized items false) :
    s.send item =
      { s with
        request := .notInitialized (items ++ [item]) false
        accepted := s.accepted ++ [item] } := by
  simp [send, hrequest]

theorem send_refused
    (s : State α) (item : α)
    (hrequest : (∃ items, s.request = .notInitialized items true) ∨
      s.request = .initialized none) :
    s.send item = { s with refused := s.refused ++ [item] } := by
  rcases hrequest with ⟨items, hrequest⟩ | hrequest <;>
    simp [send, hrequest]

theorem send_started
    (s : State α) {c : ConsumerId} (item : α)
    (hrequest : s.request = .initialized (some c)) :
    s.send item = { s with lock := some (.send c item) } := by
  simp [send, hrequest]

theorem setSender_notInitialized
    (s : State α) {items : List α} {hasEndOfStream : Bool} (c : ConsumerId)
    (hrequest : s.request = .notInitialized items hasEndOfStream) :
    s.setSender c =
      { s with
        request := .notInitialized [] hasEndOfStream
        lock := some (.drain c items)
        waiting := Function.update s.waiting c false } := by
  simp [setSender, hrequest]

theorem setSender_initialized
    (s : State α) {existing : Option ConsumerId} (c : ConsumerId)
    (hrequest : s.request = .initialized existing) :
    s.setSender c =
      { s with
        request := .initialized (some c)
        channel := dropStored s.channel existing
        waiting := Function.update s.waiting c false } := by
  simp [setSender, hrequest]

theorem sendEof_notInitialized
    (s : State α) {items : List α} {hasEndOfStream : Bool}
    (hrequest : s.request = .notInitialized items hasEndOfStream) :
    s.sendEof = { s with request := .notInitialized items true } := by
  simp [sendEof, hrequest]

theorem sendEof_initialized
    (s : State α) {sender : Option ConsumerId}
    (hrequest : s.request = .initialized sender) :
    s.sendEof =
      { s with
        request := .initialized none
        channel := dropStored s.channel sender } := by
  simp [sendEof, hrequest]

def recv (s : State α) (c : ConsumerId) : Option (State α) :=
  ((s.channel c).recv).map fun next =>
    { s with channel := Function.update s.channel c next }

def close (s : State α) (c : ConsumerId) : State α :=
  { s with channel := Function.update s.channel c (s.channel c).close }

end State

inductive Action (α : Type u) where
  | getConsumer
  | send (item : α)
  | setSender (c : ConsumerId)
  | sendEof
  | place
  | finishDrain
  | recv (c : ConsumerId)
  | close (c : ConsumerId)

/-- Who may act: a task needs the mutex to start, its owner goes on alone, and
readers and `get_consumer` calls are never excluded. -/
def step (s : State α) : Action α → Option (State α)
  | .getConsumer => some s.getConsumer
  | .send item => if s.lock.isNone then some (s.send item) else none
  | .setSender c =>
      if s.lock.isNone ∧ s.waiting c = true then some (s.setSender c)
      else none
  | .sendEof => if s.lock.isNone then some s.sendEof else none
  | .place => s.place
  | .finishDrain => s.finishDrain
  | .recv c => if c < s.consumers then s.recv c else none
  | .close c => if c < s.consumers then some (s.close c) else none

/-- Everything a step can do, one case per branch of the source. -/
inductive Move : State α → Action α → State α → Prop where
  | getConsumer (s : State α) : Move s .getConsumer s.getConsumer
  | sendBuffered {s : State α} {items : List α} (item : α)
      (hlock : s.lock = none)
      (hrequest : s.request = .notInitialized items false) :
      Move s (.send item)
        { s with
          request := .notInitialized (items ++ [item]) false
          accepted := s.accepted ++ [item] }
  | sendRefused {s : State α} (item : α)
      (hlock : s.lock = none)
      (hrequest : (∃ items, s.request = .notInitialized items true) ∨
        s.request = .initialized none) :
      Move s (.send item) { s with refused := s.refused ++ [item] }
  | sendStarted {s : State α} {c : ConsumerId} (item : α)
      (hlock : s.lock = none)
      (hrequest : s.request = .initialized (some c)) :
      Move s (.send item) { s with lock := some (.send c item) }
  | bindDrain {s : State α} {items : List α} {hasEndOfStream : Bool}
      (c : ConsumerId) (hlock : s.lock = none)
      (hwaiting : s.waiting c = true)
      (hrequest : s.request = .notInitialized items hasEndOfStream) :
      Move s (.setSender c)
        { s with
          request := .notInitialized [] hasEndOfStream
          lock := some (.drain c items)
          waiting := Function.update s.waiting c false }
  | bindReplace {s : State α} {existing : Option ConsumerId}
      (c : ConsumerId) (hlock : s.lock = none)
      (hwaiting : s.waiting c = true)
      (hrequest : s.request = .initialized existing) :
      Move s (.setSender c)
        { s with
          request := .initialized (some c)
          channel := dropStored s.channel existing
          waiting := Function.update s.waiting c false }
  | eofFlagged {s : State α} {items : List α} {hasEndOfStream : Bool}
      (hlock : s.lock = none)
      (hrequest : s.request = .notInitialized items hasEndOfStream) :
      Move s .sendEof { s with request := .notInitialized items true }
  | eofTaken {s : State α} {sender : Option ConsumerId}
      (hlock : s.lock = none)
      (hrequest : s.request = .initialized sender) :
      Move s .sendEof
        { s with
          request := .initialized none
          channel := dropStored s.channel sender }
  | placeSend {s : State α} {c : ConsumerId} {item : α}
      (hlock : s.lock = some (.send c item))
      (hopen : (s.channel c).receiverAlive = true)
      (hroom : (s.channel c).HasRoom) :
      Move s .place
        { s with
          channel :=
            Function.update s.channel c ((s.channel c).push item hroom)
          lock := none
          accepted := s.accepted ++ [item] }
  | placeSendClosed {s : State α} {c : ConsumerId} {item : α}
      (hlock : s.lock = some (.send c item))
      (hclosed : (s.channel c).receiverAlive = false) :
      Move s .place
        { s with
          lock := none
          accepted := s.accepted ++ [item]
          lost := s.lost ++ [item] }
  | placeDrain {s : State α} {c : ConsumerId} {item : α} {rest : List α}
      (hlock : s.lock = some (.drain c (item :: rest)))
      (hopen : (s.channel c).receiverAlive = true)
      (hroom : (s.channel c).HasRoom) :
      Move s .place
        { s with
          channel :=
            Function.update s.channel c ((s.channel c).push item hroom)
          lock := some (.drain c rest) }
  | placeDrainClosed {s : State α} {c : ConsumerId} {item : α}
      {rest : List α}
      (hlock : s.lock = some (.drain c (item :: rest)))
      (hclosed : (s.channel c).receiverAlive = false) :
      Move s .place
        { s with
          channel := Function.update s.channel c (s.channel c).dropSender
          lock := none
          lost := s.lost ++ item :: rest }
  | drainEnded {s : State α} {c : ConsumerId} {items : List α}
      (hlock : s.lock = some (.drain c []))
      (hrequest : s.request = .notInitialized items true) :
      Move s .finishDrain
        { s with
          channel := Function.update s.channel c (s.channel c).dropSender
          lock := none }
  | drainBound {s : State α} {c : ConsumerId} {items : List α}
      (hlock : s.lock = some (.drain c []))
      (hrequest : s.request = .notInitialized items false) :
      Move s .finishDrain
        { s with
          request := .initialized (some c)
          lock := none }
  | recvItem {s : State α} (c : ConsumerId) (hc : c < s.consumers)
      (hopen : (s.channel c).receiverAlive = true)
      (hunfinished : (s.channel c).finished = false)
      (hqueue : (s.channel c).queue ≠ []) :
      Move s (.recv c)
        { s with
          channel := Function.update s.channel c (s.channel c).pop }
  | recvEnd {s : State α} (c : ConsumerId) (hc : c < s.consumers)
      (hopen : (s.channel c).receiverAlive = true)
      (hunfinished : (s.channel c).finished = false)
      (hqueue : (s.channel c).queue = [])
      (hsender : (s.channel c).senderAlive = false) :
      Move s (.recv c)
        { s with
          channel := Function.update s.channel c (s.channel c).finish }
  | close {s : State α} (c : ConsumerId) (hc : c < s.consumers) :
      Move s (.close c) (s.close c)

theorem move_of_step
    {s t : State α} {a : Action α} (hstep : step s a = some t) :
    Move s a t := by
  cases a with
  | getConsumer =>
      simp only [step, Option.some.injEq] at hstep
      exact hstep ▸ Move.getConsumer s
  | send item =>
      simp only [step, Option.isNone_iff_eq_none] at hstep
      split at hstep
      next hlock =>
        simp only [Option.some.injEq] at hstep
        subst hstep
        cases hrequest : s.request with
        | notInitialized items hasEndOfStream =>
            cases hasEndOfStream with
            | true =>
                rw [s.send_refused item (.inl ⟨items, hrequest⟩)]
                exact Move.sendRefused item hlock (.inl ⟨items, hrequest⟩)
            | false =>
                rw [s.send_buffered item hrequest]
                exact Move.sendBuffered item hlock hrequest
        | initialized sender =>
            cases sender with
            | none =>
                rw [s.send_refused item (.inr hrequest)]
                exact Move.sendRefused item hlock (.inr hrequest)
            | some c =>
                rw [s.send_started item hrequest]
                exact Move.sendStarted item hlock hrequest
      next => contradiction
  | setSender c =>
      simp only [step, Option.isNone_iff_eq_none] at hstep
      split at hstep
      next hready =>
        simp only [Option.some.injEq] at hstep
        subst hstep
        cases hrequest : s.request with
        | notInitialized items hasEndOfStream =>
            rw [s.setSender_notInitialized c hrequest]
            exact Move.bindDrain c hready.1 hready.2 hrequest
        | initialized existing =>
            rw [s.setSender_initialized c hrequest]
            exact Move.bindReplace c hready.1 hready.2 hrequest
      next => contradiction
  | sendEof =>
      simp only [step, Option.isNone_iff_eq_none] at hstep
      split at hstep
      next hlock =>
        simp only [Option.some.injEq] at hstep
        subst hstep
        cases hrequest : s.request with
        | notInitialized items hasEndOfStream =>
            rw [s.sendEof_notInitialized hrequest]
            exact Move.eofFlagged hlock hrequest
        | initialized sender =>
            rw [s.sendEof_initialized hrequest]
            exact Move.eofTaken hlock hrequest
      next => contradiction
  | place =>
      simp only [step, State.place] at hstep
      split at hstep
      next c item hlock =>
        split at hstep
        next next hsent =>
          obtain ⟨hopen, hroom, rfl⟩ := Channel.send_eq_sent.mp hsent
          simp only [Option.some.injEq] at hstep
          exact hstep ▸ Move.placeSend hlock hopen hroom
        next hclosed =>
          simp only [Option.some.injEq] at hstep
          exact hstep ▸ Move.placeSendClosed hlock
            (Channel.send_eq_closed.mp hclosed)
        next => contradiction
      next c item rest hlock =>
        split at hstep
        next next hsent =>
          obtain ⟨hopen, hroom, rfl⟩ := Channel.send_eq_sent.mp hsent
          simp only [Option.some.injEq] at hstep
          exact hstep ▸ Move.placeDrain hlock hopen hroom
        next hclosed =>
          simp only [Option.some.injEq] at hstep
          exact hstep ▸ Move.placeDrainClosed hlock
            (Channel.send_eq_closed.mp hclosed)
        next => contradiction
      next => contradiction
  | finishDrain =>
      simp only [step, State.finishDrain] at hstep
      split at hstep
      next c hlock =>
        split at hstep
        next items hasEndOfStream hrequest =>
          cases hasEndOfStream with
          | true =>
              simp only [if_true, Option.some.injEq] at hstep
              exact hstep ▸ Move.drainEnded hlock hrequest
          | false =>
              simp only [Bool.false_eq_true, if_false,
                Option.some.injEq] at hstep
              exact hstep ▸ Move.drainBound hlock hrequest
        next => contradiction
      next => contradiction
  | recv c =>
      simp only [step, State.recv] at hstep
      split at hstep
      next hc =>
        obtain ⟨next, hrecv, rfl⟩ := Option.map_eq_some_iff.mp hstep
        obtain ⟨hopen, hunfinished, hcase⟩ := Channel.recv_eq_some.mp hrecv
        rcases hcase with ⟨hqueue, rfl⟩ | ⟨hqueue, hsender, rfl⟩
        · exact Move.recvItem c hc hopen hunfinished hqueue
        · exact Move.recvEnd c hc hopen hunfinished hqueue hsender
      next => contradiction
  | close c =>
      simp only [step] at hstep
      split at hstep
      next hc =>
        simp only [Option.some.injEq] at hstep
        exact hstep ▸ Move.close c hc
      next => contradiction

section Frame

variable {s t : State α} {a : Action α}

theorem Move.channelSize_eq (hmove : Move s a t) :
    t.channelSize = s.channelSize := by
  cases hmove <;> rfl

/-- Only its own `close` drops a consumer's receiver. -/
theorem Move.receiverAlive
    (hmove : Move s a t) {c : ConsumerId} (hne : a ≠ .close c)
    (hopen : (s.channel c).receiverAlive = true) :
    (t.channel c).receiverAlive = true := by
  have hupdate : ∀ d (ch : Channel α),
      (d = c → ch.receiverAlive = true) →
      (Function.update s.channel d ch c).receiverAlive = true := by
    intro d ch hch
    by_cases heq : c = d
    · subst d
      rw [Function.update_self]
      exact hch rfl
    · rw [Function.update_of_ne heq]
      exact hopen
  cases hmove with
  | getConsumer => exact hupdate _ _ fun _ => rfl
  | bindReplace d hlock hwaiting hrequest =>
      exact (dropStored_receiverAlive _ _ c).trans hopen
  | eofTaken hlock hrequest =>
      exact (dropStored_receiverAlive _ _ c).trans hopen
  | placeSend hlock hreceiver hroom => exact hupdate _ _ fun _ => hreceiver
  | placeDrain hlock hreceiver hroom => exact hupdate _ _ fun _ => hreceiver
  | @placeDrainClosed d item rest hlock hclosed =>
      exact hupdate _ _ fun heq => heq ▸ hopen
  | @drainEnded d items hlock hrequest =>
      exact hupdate _ _ fun heq => heq ▸ hopen
  | recvItem d hd hreceiver hunfinished hqueue =>
      exact hupdate _ _ fun _ => hreceiver
  | recvEnd d hd hreceiver hunfinished hqueue hsender =>
      exact hupdate _ _ fun _ => hreceiver
  | close d hd =>
      exact hupdate _ _ fun heq => absurd (congrArg Action.close heq) hne
  | _ => exact hopen

end Frame

end StreamedRequest
end GrpcExtensions
