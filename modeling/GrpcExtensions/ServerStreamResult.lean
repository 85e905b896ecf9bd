import GrpcExtensions.SharedSenders
import GrpcExtensions.StreamedResponseReaders

/-!
# The result of a server stream

`GrpcServerStreamResult::new` makes the stream and the only sender of it at
once, so the reader may read while the handler sends.  A send waits for room
as long as the timeout says; its failures are returned as texts, and the
handler may go on behind them.
-/

namespace GrpcExtensions
namespace ServerStreamResult

open GrpcChannel (Status)
open StreamedResponseReaders (Duration)

universe u

variable {TModel : Type u}

/-- The size of the buffer. -/
def bufferSize : ℕ := 32768

structure Completed (TModel : Type u) where
  item : TModel
  result : Except String Unit

/-- `calls` records the sends that have returned and is read by no
operation. -/
structure State (TModel : Type u) where
  shared : SharedSenders.State (Except Status TModel)
  timeout : Duration
  calls : List (Completed TModel)

def State.new (TModel : Type u) : State TModel where
  shared := SharedSenders.State.new _ bufferSize
  timeout := ⟨3, 0, by decide⟩
  calls := []

inductive Action (TModel : Type u) where
  | setTimeout (timeout : Duration)
  | send (item : TModel)
  | timeout (item : TModel)
  | drop
  | recv
  | close

def State.complete (s : State TModel) (item : TModel)
    (result : Except String Unit) : State TModel :=
  { s with calls := s.calls ++ [⟨item, result⟩] }

/-- The handler is the holder `0`; `debug` is the text of a `SendError`. -/
def step (debug : String) (s : State TModel) :
    Action TModel → Option (State TModel)
  | .setTimeout timeout =>
      if s.shared.holds 0 then some { s with timeout := timeout } else none
  | .send item =>
      if s.shared.holds 0 then
        match s.shared.channel.send (.ok item) with
        | .sent channel =>
            some { s with
              shared := s.shared.accept 0 (.ok item) channel
              calls := s.calls ++ [⟨item, .ok ()⟩] }
        | .closed =>
            some (s.complete item (.error ("Send Error: " ++ debug)))
        | .full => none
      else none
  | .timeout item =>
      if s.shared.holds 0 then
        match s.shared.channel.send (.ok item) with
        | .full =>
            some (s.complete item (.error ("Timeout: " ++ s.timeout.debug)))
        | _ => none
      else none
  | .drop =>
      if s.shared.holds 0 then some { s with shared := s.shared.leave 0 }
      else none
  | .recv =>
      s.shared.channel.recv.map fun channel =>
        { s with shared := s.shared.read channel }
  | .close => some { s with shared := s.shared.close }

/-- The items of the sends that returned `Ok`. -/
def State.delivered (s : State TModel) : List TModel :=
  (s.calls.filter fun c => c.result.isOk).map Completed.item

structure State.WellFormed (debug : String) (s : State TModel) : Prop where
  shared : s.shared.WellFormed
  sent : s.shared.sent = s.delivered.map .ok
  capacity : s.shared.channel.capacity = bufferSize
  /-- A send has failed only on a closed stream, which stays closed, or when
  the buffer was full. -/
  timeouts : ∀ c ∈ s.calls, c.result.isOk = true ∨
    (c.result = .error ("Send Error: " ++ debug) ∧
      s.shared.channel.receiverAlive = false) ∨
    bufferSize ≤ s.delivered.length

section Steps

variable {debug : String} {s : State TModel}

theorem delivered_complete (item : TModel) (text : String) :
    (s.complete item (.error text)).delivered = s.delivered := by
  simp [State.delivered, State.complete, Except.isOk, Except.toBool]

theorem delivered_sent (c : Completed TModel) (hc : c.result.isOk = true)
    (shared : SharedSenders.State (Except Status TModel)) :
    ({ s with shared := shared, calls := s.calls ++ [c] } :
      State TModel).delivered = s.delivered ++ [c.item] := by
  simp [State.delivered, hc]

theorem new_wellFormed : (State.new TModel).WellFormed debug := by
  constructor
  · exact SharedSenders.new_wellFormed bufferSize
  · rfl
  · rfl
  · intro c hc
    contradiction

/-- The buffer holds a part of what was delivered. -/
theorem State.WellFormed.length_queue_le (hgood : s.WellFormed debug) :
    s.shared.channel.queue.length ≤ s.delivered.length := by
  have hplaced := congrArg List.length (hgood.shared.placed.trans hgood.sent)
  simp only [Channel.placed, List.length_append, List.length_map] at hplaced
  omega

theorem send_wellFormed
    (hgood : s.WellFormed debug) (hholds : s.shared.holds 0 = true)
    (item : TModel) (hroom : s.shared.channel.HasRoom) :
    ({ s with
        shared := s.shared.accept 0 (.ok item)
          (s.shared.channel.push (.ok item) hroom)
        calls := s.calls ++ [⟨item, .ok ()⟩] } :
      State TModel).WellFormed debug := by
  constructor
  · exact SharedSenders.accept_wellFormed hgood.shared hholds hroom
  · rw [delivered_sent ⟨item, .ok ()⟩ rfl, List.map_append, ← hgood.sent]
    simp [SharedSenders.State.sent, SharedSenders.State.accept]
  · exact hgood.capacity
  · intro c hc
    rw [delivered_sent ⟨item, .ok ()⟩ rfl, List.length_append]
    rcases List.mem_append.mp hc with hc | hc
    · rcases hgood.timeouts c hc with hok | hclosed | hfull
      · exact .inl hok
      · exact .inr (.inl hclosed)
      · exact .inr (.inr (Nat.le_add_right_of_le hfull))
    · rw [List.mem_singleton.mp hc]
      exact .inl rfl

theorem complete_wellFormed
    (hgood : s.WellFormed debug) (item : TModel) (text : String)
    (hreason : (text = "Send Error: " ++ debug ∧
        s.shared.channel.receiverAlive = false) ∨
      bufferSize ≤ s.delivered.length) :
    (s.complete item (.error text)).WellFormed debug := by
  constructor
  · exact hgood.shared
  · rw [delivered_complete]
    exact hgood.sent
  · exact hgood.capacity
  · intro c hc
    rw [delivered_complete]
    rcases List.mem_append.mp hc with hc | hc
    · exact hgood.timeouts c hc
    · rw [List.mem_singleton.mp hc]
      rcases hreason with ⟨htext, hclosed⟩ | hfull
      · exact .inr (.inl ⟨congrArg Except.error htext, hclosed⟩)
      · exact .inr (.inr hfull)

/-- The sender and the reader act on the channel alone. -/
theorem shared_wellFormed
    (hgood : s.WellFormed debug)
    {shared : SharedSenders.State (Except Status TModel)}
    (hshared : shared.WellFormed) (hsent : shared.sent = s.shared.sent)
    (hcapacity : shared.channel.capacity = s.shared.channel.capacity)
    (hclosed : s.shared.channel.receiverAlive = false →
      shared.channel.receiverAlive = false) :
    ({ s with shared := shared } : State TModel).WellFormed debug := by
  constructor
  · exact hshared
  · exact hsent.trans hgood.sent
  · exact hcapacity.trans hgood.capacity
  · intro c hc
    rcases hgood.timeouts c hc with hok | ⟨herror, hgone⟩ | hfull
    · exact .inl hok
    · exact .inr (.inl ⟨herror, hclosed hgone⟩)
    · exact .inr (.inr hfull)

theorem step_wellFormed
    {t : State TModel} {a : Action TModel} (hgood : s.WellFormed debug)
    (hstep : step debug s a = some t) : t.WellFormed debug := by
  cases a with
  | setTimeout timeout =>
      rcases Option.ite_none_right_eq_some.mp hstep with ⟨_, heq⟩
      cases heq
      exact ⟨hgood.shared, hgood.sent, hgood.capacity, hgood.timeouts⟩
  | send item =>
      rcases Option.ite_none_right_eq_some.mp hstep with ⟨hholds, heq⟩
      split at heq
      next channel hsent =>
        rcases Channel.send_eq_sent.mp hsent with ⟨_, hroom, rfl⟩
        cases heq
        exact send_wellFormed hgood hholds item hroom
      next hgone =>
        cases heq
        exact complete_wellFormed hgood item _
          (.inl ⟨rfl, Channel.send_eq_closed.mp hgone⟩)
      next => contradiction
  | timeout item =>
      rcases Option.ite_none_right_eq_some.mp hstep with ⟨_, heq⟩
      split at heq
      next hfull =>
        cases heq
        apply complete_wellFormed hgood item _ (.inr _)
        have hroom := (Channel.send_eq_full.mp hfull).2
        have hqueue := hgood.length_queue_le
        have hcapacity := hgood.capacity
        unfold Channel.HasRoom at hroom
        omega
      next => contradiction
  | drop =>
      rcases Option.ite_none_right_eq_some.mp hstep with ⟨hholds, heq⟩
      cases heq
      have hleft : (s.shared.leave 0).channel = s.shared.channel ∨
          (s.shared.leave 0).channel = s.shared.channel.dropSender := by
        unfold SharedSenders.State.leave
        dsimp only
        split
        · exact .inl rfl
        · exact .inr rfl
      apply shared_wellFormed hgood
        (SharedSenders.leave_wellFormed hgood.shared hholds) rfl
      · rcases hleft with heq | heq
        · rw [heq]
        · rw [heq]
          rfl
      · intro hgone
        rcases hleft with heq | heq
        · rwa [heq]
        · rw [heq]
          exact hgone
  | recv =>
      rcases Option.map_eq_some_iff.mp hstep with ⟨next, hrecv, rfl⟩
      apply shared_wellFormed hgood
        (SharedSenders.read_wellFormed hgood.shared hrecv) rfl
      · rcases Channel.recv_eq_some.mp hrecv with
          ⟨_, _, ⟨_, rfl⟩ | ⟨_, _, rfl⟩⟩ <;> rfl
      · -- a closed stream is not read any more
        intro hgone
        have hopen := (Channel.recv_eq_some.mp hrecv).1
        exact absurd (hgone.symm.trans hopen) Bool.false_ne_true
  | close =>
      cases hstep
      exact shared_wellFormed hgood
        (SharedSenders.close_wellFormed hgood.shared) rfl rfl fun _ => rfl

end Steps

/-- Whatever the handler does behind a send that has failed, the reader is
handed the items of the sends that returned `Ok`, in order and without an
error between them, and the end means that these were all.  Until as many
items have been delivered as the buffer holds, a send that has failed says
that the reader is gone, and it is. -/
theorem reads_what_was_sent
    (debug : String) {acts : List (Action TModel)} {s : State TModel}
    (hrun : TransitionSystem.exec (step debug) (State.new TModel) acts =
      some s) :
    s.shared.channel.received <+: s.delivered.map .ok ∧
      (s.shared.channel.finished = true →
        s.shared.channel.received = s.delivered.map .ok ∧
          s.shared.holds 0 = false) ∧
      (s.delivered.length < bufferSize → ∀ c ∈ s.calls,
        c.result.isOk = true ∨
          (c.result = .error ("Send Error: " ++ debug) ∧
            s.shared.channel.receiverAlive = false)) := by
  have hgood : s.WellFormed debug :=
    TransitionSystem.exec_invariant
      (fun _ _ _ hs hstep => step_wellFormed hs hstep) new_wellFormed hrun
  rw [← hgood.sent]
  refine ⟨hgood.shared.received_prefix, ?_, ?_⟩
  · intro hfinished
    rcases hgood.shared.received_of_finished hfinished with ⟨hread, hleft⟩
    exact ⟨hread, hleft 0⟩
  · intro hshort c hc
    rcases hgood.timeouts c hc with hok | hclosed | hfull
    · exact .inl hok
    · exact .inr hclosed
    · exact absurd hfull (Nat.not_le.mpr hshort)

theorem reads_what_was_sent_before_close :
    ∃ s : State ℕ,
      TransitionSystem.exec (step "SendError \x7b .. \x7d") (State.new ℕ)
          [.send 1, .send 2, .recv, .close, .send 3, .drop] = some s ∧
        s.delivered = [1, 2] ∧
        s.shared.channel.received <+: s.delivered.map .ok ∧
        ∀ c ∈ s.calls, c.result.isOk = true ∨
          (c.result = .error ("Send Error: " ++ "SendError { .. }") ∧
            s.shared.channel.receiverAlive = false) := by
  have hrun : TransitionSystem.exec (step "SendError \x7b .. \x7d")
      (State.new ℕ) [.send 1, .send 2, .recv, .close, .send 3, .drop] =
        some _ := rfl
  obtain ⟨hread, _, hfailed⟩ := reads_what_was_sent _ hrun
  exact ⟨_, hrun, rfl, hread, hfailed (by decide)⟩

end ServerStreamResult
end GrpcExtensions
