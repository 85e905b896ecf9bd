import GrpcExtensions.ChannelTaskProgress
import GrpcExtensions.ServerStream

/-!
# The streams of a server end

Whatever a task of `grpc_server_streams.rs` meets, and however its reader is
scheduled against it, the reader of the stream is not left waiting.  A source
that makes no more contracts than the channel holds is never cut short: none
of its sends can time out.
-/

namespace GrpcExtensions
namespace ServerStream

open ChannelTask

universe u

variable {ι β ε : Type u}

/-- No task is spawned, and the sender is gone when the function returns. -/
def createEmptyStream : SendStream ι β ε where
  channelSize := 1
  src := []
  task := .done

def sendVecToStream
    (src : List ι) (mapping : ι → Option β) : SendStream ι β ε :=
  sendFromIteratorWithTransformation src mapping

/-- The streams that the functions of `grpc_server_streams.rs` hand out, with
what their tasks make of the items of the source. -/
inductive Offered {ε : Type u} :
    {ι β : Type u} → SendStream ι β ε → (List ι → List β → Prop) → Prop where
  | createEmptyStream {ι β : Type u} :
      Offered (ServerStream.createEmptyStream : SendStream ι β ε)
        fun items contracts => items = [] ∧ contracts = []
  | sendVecToStream {ι β : Type u} (src : List ι) (mapping : ι → Option β) :
      Offered (ServerStream.sendVecToStream src mapping) (Mapped mapping)
  | call {ι β : Type u} (call : Call ι β) : Offered (call.stream ε) call.Makes

def SendStream.start (stream : SendStream ι β ε) :
    ChannelTask.State ι (Except ε β) :=
  ChannelTask.start stream.channelSize stream.task

section Offered

variable {stream : SendStream ι β ε} {makes : List ι → List β → Prop}

theorem Offered.task_stopsOnFailure (hoffered : Offered stream makes) :
    stream.task.StopsOnFailure Succeeds := by
  cases hoffered with
  | createEmptyStream => exact .done
  | sendVecToStream src mapping => exact sendLoop_stopsOnFailure mapping src
  | call call => exact call.task_stopsOnFailure

theorem Offered.delivered_prefix (hoffered : Offered stream makes) :
    stream.task.delivered <+: stream.src := by
  cases hoffered with
  | createEmptyStream => exact List.prefix_refl _
  | sendVecToStream src mapping => exact sendLoop_delivered_prefix mapping src
  | call call => exact call.delivered_prefix

theorem Offered.initiallyMadeOf (hoffered : Offered stream makes) :
    InitiallyMadeOf makes stream.task.messages := by
  cases hoffered with
  | createEmptyStream => exact initiallyMadeOf_nil ⟨rfl, rfl⟩
  | sendVecToStream src mapping => exact sendLoop_madeOf mapping src
  | call call => exact call.initiallyMadeOf

/-- A run of any length has a bounded number of sends and reads, and from
wherever it has come, the task and its reader need no more steps than there is
work and then the task is over, its sender is dropped, and a reader that is
still there has read a part of the source, as far as it was sent, and the
end.  What it has read are the contracts that the function makes of that
part. -/
theorem offered_stream_ends
    (hoffered : Offered stream makes) {acts : List Action}
    {s : ChannelTask.State ι (Except ε β)}
    (hrun : TransitionSystem.exec ChannelTask.step stream.start acts =
      some s) :
    acts.countP Action.transfers + s.work ≤ 2 * stream.src.length + 2 ∧
      s.Settles ∧
      carried s.channel.received <+: stream.src ∧
      MadeOf makes s.channel.received := by
  have hstops := hoffered.task_stopsOnFailure
  have hinitial := hoffered.delivered_prefix
  have hsound := ChannelTask.exec_sound hstops hrun
  refine ⟨?_, hsound.settles, ?_, ?_⟩
  · have hcount := ChannelTask.countP_transfers_le hstops hrun
    have hlength := hinitial.length_le
    omega
  · have hreceived : carried s.channel.received <+: s.reach := by
      rw [State.reach, Channel.placed, carried, carried,
        List.flatMap_append, List.append_assoc]
      exact List.prefix_append _ _
    exact (hreceived.trans hsound.reach).trans hinitial
  · exact hoffered.initiallyMadeOf _ (s.channel.received_prefix_placed.trans
      (ChannelTask.exec_messages hstops hrun))

end Offered

theorem offered_stream_ends_slow_reader :
    ∃ s : ChannelTask.State ℕ (Except Unit ℕ),
      TransitionSystem.exec ChannelTask.step
          ((Call.sendSingleItemToStream 7).stream Unit).start [.send] =
        some s ∧ s.work = 3 ∧ s.Settles := by
  have hrun : TransitionSystem.exec ChannelTask.step
      ((Call.sendSingleItemToStream 7).stream Unit).start [.send] =
        some _ := rfl
  exact ⟨_, hrun, rfl, (offered_stream_ends (.call _) hrun).2.1⟩

/-- If a call makes no more contracts than its channel holds and nothing
panics, then no send of any run is given up, and a reader that stays to the
end has read the contracts of the whole source, however slow it is. -/
theorem short_source_is_read_whole
    (call : Call ι β) (hcalm : call.NothingPanics)
    (hshort : (call.stream ε).task.contracts.length ≤
      (call.stream ε).channelSize)
    {acts : List Action} {s : ChannelTask.State ι (Except ε β)}
    (hrun : TransitionSystem.exec ChannelTask.step (call.start ε) acts =
      some s) :
    ChannelTask.step s .timeout = none ∧
      (s.channel.finished = true →
        carried s.channel.received = (call.stream ε).src ∧
          MadeOf call.Makes s.channel.received) := by
  have hstops := call.task_stopsOnFailure (ε := ε)
  constructor
  · by_contra htimeout
    rcases Option.ne_none_iff_exists'.mp htimeout with ⟨t, hstep⟩
    have hfits := ChannelTask.exec_fits hstops hshort hrun
    exact (ChannelTask.move_of_step hstep).ne_timeout_of_fits hfits rfl
  · intro hfinished
    have halong := ChannelTask.along_ne_timeout hstops hshort hrun
    refine ⟨?_, call.received_madeOf hrun⟩
    rw [(ChannelTask.delivered_iff_no_timeout hstops hrun hfinished).mpr
      halong]
    exact call.delivered_iff_nothingPanics.mpr hcalm

theorem short_source_is_read_whole_pair :
    ∃ s : ChannelTask.State ℕ (Except Unit ℕ),
      TransitionSystem.exec ChannelTask.step
          ((Call.sendFromIterator [4, 5] some).start Unit)
          [.send, .send, .finish, .recv, .recv, .recv] = some s ∧
        s.channel.finished = true ∧ carried s.channel.received = [4, 5] := by
  have hrun : TransitionSystem.exec ChannelTask.step
      ((Call.sendFromIterator [4, 5] some).start Unit)
      [.send, .send, .finish, .recv, .recv, .recv] = some _ := rfl
  have hcalm : (Call.sendFromIterator [4, 5]
      (some : ℕ → Option ℕ)).NothingPanics :=
    fun _ _ => rfl
  have hshort : ((Call.sendFromIterator [4, 5] (some : ℕ → Option ℕ)).stream
      Unit).task.contracts.length ≤ 100 := by
    decide
  exact ⟨_, hrun, rfl,
    ((short_source_is_read_whole _ hcalm hshort hrun).2 rfl).1⟩

end ServerStream
end GrpcExtensions
