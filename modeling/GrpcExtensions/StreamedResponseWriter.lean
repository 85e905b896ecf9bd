import GrpcExtensions.BoundedChannel
import GrpcExtensions.GrpcChannel

/-!
# Sending through the writer of a streamed response

A handler that sends through `StreamedResponseWriter` itself still holds the
receiver: `get_result` consumes the writer and hands the stream over behind
the last send.  Nobody reads before, so a send either finds room in the
buffer or waits until it times out, and the error is unwrapped.
-/

namespace GrpcExtensions
namespace ResponseWriter

open GrpcChannel (Status)

universe u

/-- The most a buffer can hold, `usize::MAX >> 3`. -/
def maxPermits : ℕ := (UInt64.size - 1) / 8

/-- Both ends of the channel are held by the writer, and nothing has been
read from it. -/
structure StreamedResponseWriter (TResult : Type u) where
  channel : Channel (Except Status TResult)
  senderAlive : channel.senderAlive = true
  receiverAlive : channel.receiverAlive = true
  unread : channel.received = []
  unfinished : channel.finished = false

variable {TResult : Type u}

namespace StreamedResponseWriter

def empty (channelSize : ℕ) : StreamedResponseWriter TResult where
  channel := Channel.new (Except Status TResult) channelSize
  senderAlive := rfl
  receiverAlive := rfl
  unread := rfl
  unfinished := rfl

/-- A buffer without room, or with more than a channel supports, panics. -/
def new (channelSize : ℕ) : Option (StreamedResponseWriter TResult) :=
  if 0 < channelSize ∧ channelSize ≤ maxPermits then some (empty channelSize)
  else none

variable (writer : StreamedResponseWriter TResult)

def push (result : Except Status TResult) (hroom : writer.channel.HasRoom) :
    StreamedResponseWriter TResult where
  channel := writer.channel.push result hroom
  senderAlive := writer.senderAlive
  receiverAlive := writer.receiverAlive
  unread := writer.unread
  unfinished := writer.unfinished

/-- `send_timeout` with its result unwrapped: `none` is the panic.  The
receiver is held by the writer, so a full channel stays full. -/
def sendTimeout (result : Except Status TResult) :
    Option (StreamedResponseWriter TResult) :=
  if hroom : writer.channel.HasRoom then some (writer.push result hroom)
  else none

def send (itm : TResult) : Option (StreamedResponseWriter TResult) :=
  writer.sendTimeout (.ok itm)

def sendError (err : Status) : Option (StreamedResponseWriter TResult) :=
  writer.sendTimeout (.error err)

/-- The receiver becomes the stream of the response; the sender goes away
with the writer. -/
def getResult : Channel (Except Status TResult) :=
  writer.channel.dropSender

end StreamedResponseWriter

inductive Call (TResult : Type u) where
  | send (itm : TResult)
  | sendError (err : Status)

def Call.run (writer : StreamedResponseWriter TResult) :
    Call TResult → Option (StreamedResponseWriter TResult)
  | .send itm => writer.send itm
  | .sendError err => writer.sendError err

/-- What the reader should see of a call. -/
def Call.result : Call TResult → Except Status TResult
  | .send itm => .ok itm
  | .sendError err => .error err

/-- A handler that makes these calls before it returns its stream. -/
def handler (channelSize : ℕ) (calls : List (Call TResult)) :
    Option (Channel (Except Status TResult)) :=
  (StreamedResponseWriter.new channelSize).bind fun writer =>
    (TransitionSystem.exec Call.run writer calls).map
      StreamedResponseWriter.getResult

/-- Whoever reads the stream is handed these results in order, and then its
end. -/
def Yields {β : Type u} (stream : Channel β) (results : List β) : Prop :=
  ∃ reads last,
    TransitionSystem.exec (fun (ch : Channel β) (_ : Unit) => ch.recv)
        stream (List.replicate reads ()) = some last ∧
      last.finished = true ∧ last.received = results

/-- No call panics, and the stream yields what was sent. -/
def Delivers (channelSize : ℕ) (calls : List (Call TResult)) : Prop :=
  ∃ stream, handler channelSize calls = some stream ∧
    Yields stream (calls.map Call.result)

section Calls

variable (writer : StreamedResponseWriter TResult)

theorem run_eq_sendTimeout (call : Call TResult) :
    call.run writer = writer.sendTimeout call.result := by
  cases call <;> rfl

theorem getResult_yields :
    Yields writer.getResult writer.channel.queue := by
  rcases Channel.reads_to_end writer.getResult rfl writer.receiverAlive
      writer.unfinished with ⟨last, hrun, hfinished, hreceived⟩
  refine ⟨_, last, hrun, hfinished, ?_⟩
  rw [hreceived, Channel.placed]
  exact congrArg (· ++ writer.channel.queue) writer.unread

/-- The calls find room one after the other, each behind what is queued. -/
theorem calls_of_room
    (calls : List (Call TResult))
    (hroom : writer.channel.queue.length + calls.length ≤
      writer.channel.capacity) :
    ∃ last, TransitionSystem.exec Call.run writer calls = some last ∧
      last.channel.queue =
        writer.channel.queue ++ calls.map Call.result := by
  induction calls generalizing writer with
  | nil => exact ⟨writer, rfl, (List.append_nil _).symm⟩
  | cons call calls ih =>
      rw [List.length_cons] at hroom
      have hfree : writer.channel.HasRoom := by
        unfold Channel.HasRoom
        omega
      have hsend : call.run writer =
          some (writer.push call.result hfree) := by
        rw [run_eq_sendTimeout]
        exact dif_pos hfree
      have hqueue : (writer.push call.result hfree).channel.queue =
          writer.channel.queue ++ [call.result] := rfl
      obtain ⟨last, hrun, hlast⟩ := ih (writer.push call.result hfree) (by
        rw [hqueue, List.length_append, List.length_singleton]
        exact Nat.le_trans (by omega) hroom)
      refine ⟨last, TransitionSystem.exec_cons_eq_some.mpr
        ⟨_, hsend, hrun⟩, ?_⟩
      rw [hlast, hqueue, List.append_assoc, List.map_cons,
        List.singleton_append]

/-- Calls that all return have found room. -/
theorem room_of_calls
    (calls : List (Call TResult)) (last : StreamedResponseWriter TResult)
    (hrun : TransitionSystem.exec Call.run writer calls = some last) :
    writer.channel.queue.length + calls.length ≤
      writer.channel.capacity := by
  induction calls generalizing writer with
  | nil => exact writer.channel.bounded
  | cons call calls ih =>
      rcases TransitionSystem.exec_cons_eq_some.mp hrun with
          ⟨next, hnext, hrest⟩
      rw [run_eq_sendTimeout] at hnext
      unfold StreamedResponseWriter.sendTimeout at hnext
      split at hnext
      next hfree =>
        cases hnext
        have hle := ih _ hrest
        simp only [StreamedResponseWriter.push, Channel.push,
          List.length_append, List.length_singleton] at hle
        rw [List.length_cons]
        omega
      next hfull => cases hnext

end Calls

/-- A handler may make its calls before it returns the stream if and only if
the buffer exists and holds all of them. -/
theorem delivers_iff (channelSize : ℕ) (calls : List (Call TResult)) :
    Delivers channelSize calls ↔
      0 < channelSize ∧ channelSize ≤ maxPermits ∧
        calls.length ≤ channelSize := by
  rw [← and_assoc]
  by_cases hsize : 0 < channelSize ∧ channelSize ≤ maxPermits
  · have hhandler : handler channelSize calls =
        (TransitionSystem.exec Call.run (.empty channelSize) calls).map
          StreamedResponseWriter.getResult := by
      rw [handler, StreamedResponseWriter.new, if_pos hsize]
      rfl
    rw [Delivers, hhandler]
    constructor
    · rintro ⟨stream, hstream, _⟩
      rcases Option.map_eq_some_iff.mp hstream with ⟨last, hrun, _⟩
      have hroom := room_of_calls _ calls last hrun
      exact ⟨hsize, Nat.le_of_add_left_le hroom⟩
    · rintro ⟨_, hlength⟩
      obtain ⟨last, hrun, hqueue⟩ := calls_of_room (.empty channelSize) calls
        (by simpa [StreamedResponseWriter.empty, Channel.new] using hlength)
      refine ⟨last.getResult, by rw [hrun]; rfl, ?_⟩
      have hyields := getResult_yields last
      rw [hqueue] at hyields
      exact hyields
  · have hhandler : handler channelSize calls = none := by
      rw [handler, StreamedResponseWriter.new, if_neg hsize]
      rfl
    constructor
    · rintro ⟨stream, hstream, _⟩
      rw [hhandler] at hstream
      contradiction
    · rintro ⟨hpermitted, _⟩
      exact absurd hpermitted hsize

/-- The second send of a handler with a buffer for one item panics. -/
theorem second_send_panics :
    ∃ calls : List (Call ℕ), calls.length = 2 ∧
      handler 1 calls = none ∧ ¬ Delivers 1 calls := by
  refine ⟨[.send 1, .send 2], rfl, rfl, ?_⟩
  rintro ⟨stream, hhandler, _⟩
  cases hhandler

end ResponseWriter
end GrpcExtensions
