import GrpcExtensions.SharedSenders
import GrpcExtensions.StreamedResponseWriter

/-!
# The producers of a streamed response

A handler may give out producers, hand the stream over with `get_result` and
leave the sending to other tasks.  The writer and the producers share one
sender; the receiver stays in the writer until the stream is handed over.  A
send that fails is an error for the caller of `StreamedResponseProducer::send`
and a panic everywhere else.
-/

namespace GrpcExtensions
namespace ResponseProducers

open GrpcChannel (Status)
open ResponseWriter (Call)

universe u

variable {TResult : Type u}

inductive SendTimeoutError where
  | timeout
  | closed

/-- The writer is there, its stream has been handed over, or it has been
dropped with its receiver. -/
inductive Writer where
  | held
  | taken
  | dropped
  deriving DecidableEq

inductive Outcome where
  | ok
  | err (text : String)
  | panicked
  deriving DecidableEq

/-- The writer is the first to hold the sender, and every producer is another
holder. -/
def writerId : ℕ := 0

/-- A call that has come to its end. -/
structure Completed (TResult : Type u) where
  sender : ℕ
  call : Call TResult
  outcome : Outcome

/-- `calls` records the calls and is read by no operation. -/
structure State (TResult : Type u) where
  shared : SharedSenders.State (Except Status TResult)
  writer : Writer
  calls : List (Completed TResult)

def State.new (channelSize : ℕ) : State TResult where
  shared := SharedSenders.State.new _ channelSize
  writer := .held
  calls := []

/-- How a call ends when its `send_timeout` fails; `debug` is the text of the
error. -/
def failure (debug : SendTimeoutError → String) (sender : ℕ)
    (call : Call TResult) (err : SendTimeoutError) : Outcome :=
  if sender = writerId then .panicked
  else
    match call with
    | .send _ => .err (debug err)
    | .sendError _ => .panicked

inductive Action (TResult : Type u) where
  | getStreamProducer
  | send (sender : ℕ) (call : Call TResult)
  | timeout (sender : ℕ) (call : Call TResult)
  | getResult
  | dropWriter
  | dropProducer (producer : ℕ)
  | recv
  | close

namespace State

variable (s : State TResult)

def complete (sender : ℕ) (call : Call TResult) (outcome : Outcome) :
    State TResult :=
  { s with calls := s.calls ++ [⟨sender, call, outcome⟩] }

/-- Both ends of the channel that the writer holds go with it. -/
def loseWriter : State TResult :=
  { s with shared := (s.shared.leave writerId).close, writer := .dropped }

/-- A panic of the writer unwinds through the handler that owns it. -/
def fail (debug : SendTimeoutError → String) (sender : ℕ)
    (call : Call TResult) (err : SendTimeoutError) : State TResult :=
  let failed := s.complete sender call (failure debug sender call err)
  if sender = writerId then failed.loseWriter else failed

end State

def step (debug : SendTimeoutError → String) (s : State TResult) :
    Action TResult → Option (State TResult)
  | .getStreamProducer =>
      if s.writer = .held then some { s with shared := s.shared.share }
      else none
  | .send sender call =>
      if s.shared.holds sender then
        match s.shared.channel.send call.result with
        | .sent channel =>
            some { s with
              shared := s.shared.accept sender call.result channel
              calls := s.calls ++ [⟨sender, call, .ok⟩] }
        | .closed => some (s.fail debug sender call .closed)
        | .full => none
      else none
  | .timeout sender call =>
      if s.shared.holds sender then
        match s.shared.channel.send call.result with
        | .full => some (s.fail debug sender call .timeout)
        | _ => none
      else none
  | .getResult =>
      if s.writer = .held then
        some { s with shared := s.shared.leave writerId, writer := .taken }
      else none
  | .dropWriter => if s.writer = .held then some s.loseWriter else none
  | .dropProducer producer =>
      if producer ≠ writerId ∧ s.shared.holds producer then
        some { s with shared := s.shared.leave producer }
      else none
  | .recv =>
      if s.writer = .taken then
        s.shared.channel.recv.map fun channel =>
          { s with shared := s.shared.read channel }
      else none
  | .close =>
      if s.writer = .taken then some { s with shared := s.shared.close }
      else none

/-- The results of the calls that have returned without an error. -/
def State.delivered (s : State TResult) :
    List (ℕ × Except Status TResult) :=
  (s.calls.filter fun c => c.outcome = .ok).map fun c =>
    (c.sender, c.call.result)

structure State.WellFormed (debug : SendTimeoutError → String)
    (s : State TResult) : Prop where
  shared : s.shared.WellFormed
  writer : s.writer = .held ↔ s.shared.holds writerId = true
  /-- The writer keeps the receiver open as long as it has it. -/
  receiver : s.writer = .held → s.shared.channel.receiverAlive = true
  dropped : s.writer = .dropped → s.shared.channel.receiverAlive = false
  finished : s.shared.channel.finished = true → s.writer = .taken
  accepted : s.shared.accepted = s.delivered
  outcomes : ∀ c ∈ s.calls, c.outcome = .ok ∨
    ∃ err, c.outcome = failure debug c.sender c.call err

theorem failure_ne_ok (debug : SendTimeoutError → String) (sender : ℕ)
    (call : Call TResult) (err : SendTimeoutError) :
    failure debug sender call err ≠ .ok := by
  unfold failure
  split
  next => exact Outcome.noConfusion
  next => cases call <;> exact Outcome.noConfusion

section Steps

variable {debug : SendTimeoutError → String} {s : State TResult}

theorem new_wellFormed (channelSize : ℕ) :
    (State.new channelSize : State TResult).WellFormed debug := by
  constructor
  · exact SharedSenders.new_wellFormed channelSize
  · exact iff_of_true rfl rfl
  · intro _
    rfl
  · intro hdropped
    contradiction
  · intro hfinished
    exact absurd hfinished Bool.false_ne_true
  · rfl
  · intro c hc
    contradiction

/-- The writer is not the one that a call of another sender speaks of. -/
theorem made_pos (hgood : s.WellFormed debug) (hheld : s.writer = .held) :
    s.shared.made ≠ writerId :=
  Nat.ne_of_gt (hgood.shared.made writerId (hgood.writer.mp hheld))

theorem getStreamProducer_wellFormed
    (hgood : s.WellFormed debug) (hheld : s.writer = .held) :
    ({ s with shared := s.shared.share } : State TResult).WellFormed
      debug := by
  have hholds := hgood.writer.mp hheld
  constructor
  · exact SharedSenders.share_wellFormed hgood.shared hholds
  · have hold : s.shared.share.holds writerId = s.shared.holds writerId :=
      Function.update_of_ne (made_pos hgood hheld).symm _ _
    rw [hold]
    exact hgood.writer
  · exact hgood.receiver
  · exact hgood.dropped
  · exact hgood.finished
  · exact hgood.accepted
  · exact hgood.outcomes

theorem delivered_append (c : Completed TResult) :
    ({ s with calls := s.calls ++ [c] } : State TResult).delivered =
      if c.outcome = .ok then s.delivered ++ [(c.sender, c.call.result)]
      else s.delivered := by
  simp only [State.delivered, List.filter_append, List.map_append]
  split <;> simp_all

theorem outcomes_append
    (hgood : s.WellFormed debug) {c : Completed TResult}
    (hc : c.outcome = .ok ∨
      ∃ err, c.outcome = failure debug c.sender c.call err) :
    ∀ d ∈ s.calls ++ [c], d.outcome = .ok ∨
      ∃ err, d.outcome = failure debug d.sender d.call err := by
  intro d hd
  rcases List.mem_append.mp hd with hd | hd
  · exact hgood.outcomes d hd
  · rw [List.mem_singleton.mp hd]
    exact hc

theorem send_wellFormed
    (hgood : s.WellFormed debug) {sender : ℕ} {call : Call TResult}
    (hholds : s.shared.holds sender = true)
    (hroom : s.shared.channel.HasRoom) :
    ({ s with
        shared := s.shared.accept sender call.result
          (s.shared.channel.push call.result hroom)
        calls := s.calls ++ [⟨sender, call, .ok⟩] } :
      State TResult).WellFormed debug := by
  constructor
  · exact SharedSenders.accept_wellFormed hgood.shared hholds hroom
  · exact hgood.writer
  · exact hgood.receiver
  · exact hgood.dropped
  · exact hgood.finished
  · have hdelivered := delivered_append (s := s) ⟨sender, call, .ok⟩
    rw [if_pos rfl] at hdelivered
    exact (congrArg (· ++ [(sender, call.result)]) hgood.accepted).trans
      hdelivered.symm
  · exact outcomes_append hgood (.inl rfl)

theorem complete_wellFormed
    (hgood : s.WellFormed debug) (sender : ℕ) (call : Call TResult)
    (err : SendTimeoutError) :
    (s.complete sender call (failure debug sender call err)).WellFormed
      debug := by
  constructor
  · exact hgood.shared
  · exact hgood.writer
  · exact hgood.receiver
  · exact hgood.dropped
  · exact hgood.finished
  · have hdelivered := delivered_append (s := s)
      ⟨sender, call, failure debug sender call err⟩
    rw [if_neg (failure_ne_ok debug sender call err)] at hdelivered
    exact hgood.accepted.trans hdelivered.symm
  · exact outcomes_append hgood (.inr ⟨err, rfl⟩)

theorem loseWriter_wellFormed
    (hgood : s.WellFormed debug) (hheld : s.writer = .held) :
    s.loseWriter.WellFormed debug := by
  have hholds := hgood.writer.mp hheld
  have hgone : (s.shared.leave writerId).holds writerId = false :=
    SharedSenders.leave_holds_self writerId
  constructor
  · exact SharedSenders.close_wellFormed
      (SharedSenders.leave_wellFormed hgood.shared hholds)
  · exact iff_of_false Writer.noConfusion (by simp [State.loseWriter,
      SharedSenders.State.close, hgone])
  · exact Writer.noConfusion
  · intro _
    rfl
  · intro hfinished
    have hbefore : s.shared.channel.finished = true := by
      rw [← SharedSenders.leave_finished writerId]
      exact hfinished
    have htaken := hgood.finished hbefore
    rw [hheld] at htaken
    contradiction
  · exact hgood.accepted
  · exact hgood.outcomes

theorem fail_wellFormed
    (hgood : s.WellFormed debug) {sender : ℕ}
    (hholds : s.shared.holds sender = true) (call : Call TResult)
    (err : SendTimeoutError) :
    (s.fail debug sender call err).WellFormed debug := by
  have hfailed := complete_wellFormed hgood sender call err
  unfold State.fail
  dsimp only
  split
  next hwriter =>
    rw [hwriter] at hholds
    exact loseWriter_wellFormed hfailed (hgood.writer.mpr hholds)
  next => exact hfailed

theorem getResult_wellFormed
    (hgood : s.WellFormed debug) (hheld : s.writer = .held) :
    ({ s with shared := s.shared.leave writerId, writer := .taken } :
      State TResult).WellFormed debug := by
  have hholds := hgood.writer.mp hheld
  constructor
  · exact SharedSenders.leave_wellFormed hgood.shared hholds
  · rw [SharedSenders.leave_holds_self]
    exact iff_of_false Writer.noConfusion Bool.false_ne_true
  · exact Writer.noConfusion
  · exact Writer.noConfusion
  · intro _
    rfl
  · exact hgood.accepted
  · exact hgood.outcomes

theorem dropProducer_wellFormed
    (hgood : s.WellFormed debug) {producer : ℕ}
    (hproducer : producer ≠ writerId)
    (hholds : s.shared.holds producer = true) :
    ({ s with shared := s.shared.leave producer } :
      State TResult).WellFormed debug := by
  constructor
  · exact SharedSenders.leave_wellFormed hgood.shared hholds
  · rw [SharedSenders.leave_holds_of_ne hproducer.symm]
    exact hgood.writer
  · rw [SharedSenders.leave_receiverAlive]
    exact hgood.receiver
  · rw [SharedSenders.leave_receiverAlive]
    exact hgood.dropped
  · rw [SharedSenders.leave_finished]
    exact hgood.finished
  · exact hgood.accepted
  · exact hgood.outcomes

theorem recv_wellFormed
    (hgood : s.WellFormed debug) (htaken : s.writer = .taken)
    {next : Channel (Except Status TResult)}
    (hrecv : s.shared.channel.recv = some next) :
    ({ s with shared := s.shared.read next } : State TResult).WellFormed
      debug := by
  constructor
  · exact SharedSenders.read_wellFormed hgood.shared hrecv
  · exact hgood.writer
  · intro hheld
    rw [htaken] at hheld
    contradiction
  · intro hdropped
    rw [htaken] at hdropped
    contradiction
  · intro _
    exact htaken
  · exact hgood.accepted
  · exact hgood.outcomes

theorem close_wellFormed
    (hgood : s.WellFormed debug) (htaken : s.writer = .taken) :
    ({ s with shared := s.shared.close } : State TResult).WellFormed
      debug := by
  constructor
  · exact SharedSenders.close_wellFormed hgood.shared
  · exact hgood.writer
  · intro hheld
    rw [htaken] at hheld
    contradiction
  · intro _
    rfl
  · exact hgood.finished
  · exact hgood.accepted
  · exact hgood.outcomes

theorem step_wellFormed
    {t : State TResult} {a : Action TResult} (hgood : s.WellFormed debug)
    (hstep : step debug s a = some t) : t.WellFormed debug := by
  cases a with
  | getStreamProducer =>
      rcases Option.ite_none_right_eq_some.mp hstep with ⟨hheld, heq⟩
      cases heq
      exact getStreamProducer_wellFormed hgood hheld
  | send sender call =>
      rcases Option.ite_none_right_eq_some.mp hstep with ⟨hholds, heq⟩
      split at heq
      next channel hsent =>
        rcases Channel.send_eq_sent.mp hsent with ⟨_, hroom, rfl⟩
        cases heq
        exact send_wellFormed hgood hholds hroom
      next =>
        cases heq
        exact fail_wellFormed hgood hholds call .closed
      next => contradiction
  | timeout sender call =>
      rcases Option.ite_none_right_eq_some.mp hstep with ⟨hholds, heq⟩
      split at heq
      next =>
        cases heq
        exact fail_wellFormed hgood hholds call .timeout
      next => contradiction
  | getResult =>
      rcases Option.ite_none_right_eq_some.mp hstep with ⟨hheld, heq⟩
      cases heq
      exact getResult_wellFormed hgood hheld
  | dropWriter =>
      rcases Option.ite_none_right_eq_some.mp hstep with ⟨hheld, heq⟩
      cases heq
      exact loseWriter_wellFormed hgood hheld
  | dropProducer producer =>
      rcases Option.ite_none_right_eq_some.mp hstep with
        ⟨⟨hproducer, hholds⟩, heq⟩
      cases heq
      exact dropProducer_wellFormed hgood hproducer hholds
  | recv =>
      rcases Option.ite_none_right_eq_some.mp hstep with ⟨htaken, heq⟩
      rcases Option.map_eq_some_iff.mp heq with ⟨next, hrecv, rfl⟩
      exact recv_wellFormed hgood htaken hrecv
  | close =>
      rcases Option.ite_none_right_eq_some.mp hstep with ⟨htaken, heq⟩
      cases heq
      exact close_wellFormed hgood htaken

end Steps

/-- The results that reached the channel, in the order of the calls. -/
def State.results (s : State TResult) : List (Except Status TResult) :=
  s.delivered.map Prod.snd

/-- What the reader of the stream and the callers can rely on. -/
structure State.Reliable (debug : SendTimeoutError → String)
    (s : State TResult) : Prop where
  /-- What has been read are the results of the calls that returned `Ok`. -/
  inOrder : s.shared.channel.received <+: s.results
  /-- At the end everything has been read and nobody can send any more. -/
  ended : s.shared.channel.finished = true →
    s.shared.channel.received = s.results ∧ s.writer = .taken ∧
      ∀ holder, s.shared.holds holder = false
  /-- The end comes as soon as the last producer is dropped. -/
  ends : s.writer = .taken → (∀ holder, s.shared.holds holder = false) →
    s.shared.channel.receiverAlive = true →
    s.shared.channel.finished = false →
    ∃ last,
      TransitionSystem.exec
          (fun (ch : Channel (Except Status TResult)) (_ : Unit) => ch.recv)
          s.shared.channel
          (List.replicate (s.shared.channel.queue.length + 1) ()) =
        some last ∧ last.finished = true ∧ last.received = s.results
  /-- No call waits for a reader that has gone. -/
  refused : s.shared.channel.receiverAlive = false →
    ∀ sender call, s.shared.holds sender = true →
      step debug s (.send sender call) =
        some (s.complete sender call (failure debug sender call .closed))
  /-- `StreamedResponseProducer::send` returns its failures. -/
  panics : ∀ c ∈ s.calls, c.outcome = .panicked →
    c.sender = writerId ∨ ∃ err, c.call = .sendError err

theorem State.WellFormed.results_eq
    {debug : SendTimeoutError → String} {s : State TResult}
    (hgood : s.WellFormed debug) : s.results = s.shared.sent := by
  rw [State.results, ← hgood.accepted]
  rfl

theorem State.WellFormed.panics
    {debug : SendTimeoutError → String} {s : State TResult}
    (hgood : s.WellFormed debug) {c : Completed TResult} (hc : c ∈ s.calls)
    (hpanicked : c.outcome = .panicked) :
    c.sender = writerId ∨ ∃ err, c.call = .sendError err := by
  rcases hgood.outcomes c hc with hok | ⟨err, hfailed⟩
  · rw [hpanicked] at hok
    contradiction
  · rw [hpanicked] at hfailed
    unfold failure at hfailed
    split at hfailed
    next hwriter => exact .inl hwriter
    next =>
      split at hfailed
      next => contradiction
      next status hcall => exact .inr ⟨status, hcall⟩

theorem State.WellFormed.refused
    {debug : SendTimeoutError → String} {s : State TResult}
    (hgood : s.WellFormed debug)
    (hclosed : s.shared.channel.receiverAlive = false)
    {sender : ℕ} (hholds : s.shared.holds sender = true)
    (call : Call TResult) :
    step debug s (.send sender call) =
      some (s.complete sender call (failure debug sender call .closed)) := by
  have hsender : sender ≠ writerId := by
    intro hwriter
    rw [hwriter] at hholds
    have hopen := hgood.receiver (hgood.writer.mpr hholds)
    rw [hclosed] at hopen
    contradiction
  have hsend : s.shared.channel.send call.result = .closed :=
    Channel.send_eq_closed.mpr hclosed
  simp only [step, hholds, hsend, State.fail, if_true, if_neg hsender]

theorem producers_are_reliable
    (debug : SendTimeoutError → String) {channelSize : ℕ}
    {acts : List (Action TResult)} {s : State TResult}
    (hrun : TransitionSystem.exec (step debug) (State.new channelSize)
      acts = some s) : s.Reliable debug := by
  have hgood : s.WellFormed debug :=
    TransitionSystem.exec_invariant
      (fun _ _ _ hs hstep => step_wellFormed hs hstep)
      (new_wellFormed channelSize) hrun
  constructor
  · rw [hgood.results_eq]
    exact hgood.shared.received_prefix
  · intro hfinished
    rcases hgood.shared.received_of_finished hfinished with ⟨hread, hleft⟩
    rw [hgood.results_eq]
    exact ⟨hread, hgood.finished hfinished, hleft⟩
  · intro _ hleft hopen hunfinished
    rw [hgood.results_eq]
    exact hgood.shared.reads_to_end hleft hopen hunfinished
  · intro hclosed sender call hholds
    exact hgood.refused hclosed hholds call
  · intro c hc hpanicked
    exact hgood.panics hc hpanicked

/-- Two producers send through one place of the buffer; the send that times
out is the only one whose item is not read. -/
theorem producers_are_reliable_two_producers :
    ∃ s : State ℕ,
      TransitionSystem.exec (step fun _ => "Timeout(..)") (State.new 1)
          [.getStreamProducer, .getStreamProducer, .getResult,
            .send 1 (.send 10), .timeout 2 (.send 20), .recv,
            .send 2 (.send 21), .dropProducer 1, .dropProducer 2, .recv,
            .recv] = some s ∧
        s.results = [.ok 10, .ok 21] ∧
        s.shared.channel.finished = true ∧
        s.Reliable fun _ => "Timeout(..)" := by
  have hrun : TransitionSystem.exec (step fun _ => "Timeout(..)")
      (State.new 1)
      [.getStreamProducer, .getStreamProducer, .getResult,
        .send 1 (.send 10), .timeout 2 (.send 20), .recv,
        .send 2 (.send 21), .dropProducer 1, .dropProducer 2, .recv,
        .recv] = some _ := rfl
  exact ⟨_, hrun, rfl, rfl, producers_are_reliable _ hrun⟩

end ResponseProducers
end GrpcExtensions
