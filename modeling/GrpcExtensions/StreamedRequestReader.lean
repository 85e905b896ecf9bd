import GrpcExtensions.StreamedRequestDelivery
import GrpcExtensions.StreamedRequestProgress
import GrpcExtensions.StreamedResponseReaders

/-!
# A streamed request and the handler that reads it

A client makes a call with the stream of `get_consumer`, and the handler on
the other side collects it with `into_vec` of `StreamedRequestReader`.  The
transport between them hands over what the client's stream has given, in
order, and its end; it may fail at any read, and so may the reader's clock.
The call is over when the handler returns.
-/

namespace GrpcExtensions

open GrpcChannel (Status)
open ReadGrpcStream (ReadEvent)
open StreamedRequest (Action Move Session SessionAction State)
open StreamedResponseReaders (Duration)

universe u v

/-- The stream of the reader is that of its `Call`. -/
structure StreamedRequestReader where
  timeout : Duration

namespace StreamedRequestReader

variable {TItem : Type u} {TResult : Type v}

def new : StreamedRequestReader := ⟨⟨20, 0, Nat.succ_pos 999999999⟩⟩

def setTimeout (reader : StreamedRequestReader) (value : Duration) :
    StreamedRequestReader :=
  { reader with timeout := value }

variable (reader : StreamedRequestReader)

def timeoutStatus : Status :=
  ⟨.unavailable, "Timeout: " ++ reader.timeout.debug⟩

/-- `get_next`, when this is what the read of the stream gives: `none` is its
end. -/
def getNext : Option (ReadEvent TItem) → Option (Except Status TItem)
  | none => none
  | some (.item item) => some (.ok item)
  | some (.status err) => some (.error err)
  | some .timeout => some (.error reader.timeoutStatus)

/-- The handler is in the loop of `into_vec` or has left it. -/
inductive Handler (TResult : Type v) where
  | reading (result : List TResult)
  | returned (result : Except Status (List TResult))

variable (into : TItem → TResult)

/-- One turn of the loop of `into_vec`. -/
def intoVecTurn (result : List TResult) (read : Option (ReadEvent TItem)) :
    Handler TResult :=
  match reader.getNext read with
  | none => .returned (.ok result)
  | some (.ok item) => .reading (result ++ [into item])
  | some (.error err) => .returned (.error err)

/-- The client's side and the handler, which has made so many reads. -/
structure Call (TItem : Type u) (TResult : Type v) where
  session : Session TItem
  reads : ℕ
  handler : Handler TResult

inductive CallAction where
  | session (a : SessionAction)
  | read
  | timeout
  | status (err : Status)

/-- The reads that fail. -/
def CallAction.fails : CallAction → Bool
  | .timeout | .status _ => true
  | .session _ | .read => false

namespace Call

def start (channelSize : ℕ) (xs : List TItem) : Call TItem TResult where
  session := Session.start channelSize xs
  reads := 0
  handler := .reading []

/-- What the next read gives, once the client's stream has given it. -/
def nextRead (call : Call TItem TResult) : Option (Option (ReadEvent TItem)) :=
  match (call.session.shared.channel 0).received[call.reads]? with
  | some item => some (some (.item item))
  | none =>
      if (call.session.shared.channel 0).finished = true then some none
      else none

def afterRead (call : Call TItem TResult) (result : List TResult)
    (read : Option (ReadEvent TItem)) : Call TItem TResult :=
  { call with
    reads := call.reads + 1
    handler := reader.intoVecTurn into result read }

/-- The handler runs from the call of `get_consumer` on. -/
def step (call : Call TItem TResult) (a : CallAction) :
    Option (Call TItem TResult) :=
  match call.handler with
  | .returned _ => none
  | .reading result =>
      match a with
      | .session a =>
          (call.session.stepOneConsumer a).map fun next =>
            { call with session := next }
      | .read =>
          if call.session.shared.consumers = 0 then none
          else call.nextRead.map (call.afterRead reader into result)
      | .timeout =>
          if call.session.shared.consumers = 0 then none
          else some (call.afterRead reader into result (some .timeout))
      | .status err =>
          if call.session.shared.consumers = 0 then none
          else some (call.afterRead reader into result (some (.status err)))

/-- Everything a step of a call can do. -/
inductive Moves : Call TItem TResult → CallAction → Call TItem TResult → Prop
    where
  | session {call : Call TItem TResult} {result : List TResult}
      {a : SessionAction} {next : Session TItem}
      (hreading : call.handler = .reading result)
      (hstep : call.session.stepOneConsumer a = some next) :
      Moves call (.session a) { call with session := next }
  | item {call : Call TItem TResult} {result : List TResult} {item : TItem}
      (hreading : call.handler = .reading result)
      (hitem : (call.session.shared.channel 0).received[call.reads]? =
        some item) :
      Moves call .read
        { call with
          reads := call.reads + 1
          handler := .reading (result ++ [into item]) }
  | finish {call : Call TItem TResult} {result : List TResult}
      (hreading : call.handler = .reading result)
      (hmade : 0 < call.session.shared.consumers)
      (hread : (call.session.shared.channel 0).received.length ≤ call.reads)
      (hfinished : (call.session.shared.channel 0).finished = true) :
      Moves call .read
        { call with
          reads := call.reads + 1
          handler := .returned (.ok result) }
  | timeout {call : Call TItem TResult} {result : List TResult}
      (hreading : call.handler = .reading result) :
      Moves call .timeout
        { call with
          reads := call.reads + 1
          handler := .returned (.error reader.timeoutStatus) }
  | status {call : Call TItem TResult} {result : List TResult} (err : Status)
      (hreading : call.handler = .reading result) :
      Moves call (.status err)
        { call with
          reads := call.reads + 1
          handler := .returned (.error err) }

variable {reader into}

theorem moves_of_step
    {call after : Call TItem TResult} {a : CallAction}
    (hstep : call.step reader into a = some after) :
    Moves reader into call a after := by
  unfold step at hstep
  split at hstep
  next => contradiction
  next result hreading =>
    cases a with
    | session a =>
        obtain ⟨next, hnext, rfl⟩ := Option.map_eq_some_iff.mp hstep
        exact Moves.session hreading hnext
    | read =>
        simp only at hstep
        split at hstep
        next => contradiction
        next hmade =>
          obtain ⟨read, hread, rfl⟩ := Option.map_eq_some_iff.mp hstep
          unfold nextRead at hread
          split at hread
          next item hitem =>
            simp only [Option.some.injEq] at hread
            subst hread
            exact Moves.item hreading hitem
          next hnone =>
            split at hread
            next hfinished =>
              simp only [Option.some.injEq] at hread
              subst hread
              exact Moves.finish hreading (Nat.pos_of_ne_zero hmade)
                (List.getElem?_eq_none_iff.mp hnone) hfinished
            next => contradiction
    | timeout =>
        simp only at hstep
        split at hstep
        next => contradiction
        next hmade =>
          simp only [Option.some.injEq] at hstep
          exact hstep ▸ Moves.timeout hreading
    | status err =>
        simp only at hstep
        split at hstep
        next => contradiction
        next hmade =>
          simp only [Option.some.injEq] at hstep
          exact hstep ▸ Moves.status err hreading

end Call

section Work

/-- The producer's items, its end and the call of `get_consumer`. -/
def endWork : StreamedRequest.EndTask → ℕ
  | .alive => 2
  | .spawned => 1
  | .done => 0

def sessionWork (session : Session TItem) : ℕ :=
  session.shared.work + 3 * session.todo.length + endWork session.eof +
    4 * (1 - session.shared.consumers)

/-- What `send` adds to the work of the tasks. -/
theorem work_of_send
    {s t : State TItem} {item : TItem} (hmove : Move s (.send item) t) :
    t.work ≤ s.work + 2 ∧ t.consumers = s.consumers := by
  unfold State.work
  cases hmove with
  | sendBuffered item hlock hrequest =>
      rw [hrequest]
      simp only [State.consumersWork, StreamedRequest.requestWork,
        List.length_append, List.length_singleton, and_true]
      omega
  | sendRefused item hlock hrequest => exact ⟨Nat.le_add_right _ _, rfl⟩
  | sendStarted item hlock hrequest =>
      rw [hlock]
      exact ⟨le_refl _, rfl⟩

theorem work_of_sendEof
    {s t : State TItem} (hmove : Move s .sendEof t) :
    t.work = s.work ∧ t.consumers = s.consumers := by
  unfold State.work
  cases hmove with
  | eofFlagged hlock hrequest =>
      rw [hrequest]
      exact ⟨rfl, rfl⟩
  | @eofTaken sender hlock hrequest =>
      have hsame : ({ s with
            request := .initialized none
            channel := StreamedRequest.dropStored s.channel sender } :
          State TItem).consumersWork = s.consumersWork := by
        refine StreamedRequest.consumersWork_eq (s := s) rfl fun d => ?_
        simp [StreamedRequest.consumerWork]
      rw [hrequest]
      refine ⟨?_, rfl⟩
      simp only [State.consumersWork, StreamedRequest.requestWork]
        at hsame ⊢
      omega

/-- The only consumer has to be bound and to read the end. -/
theorem work_of_getConsumer
    {s t : State TItem} (hmove : Move s .getConsumer t)
    (hnone : s.consumers = 0) :
    t.work = s.work + 3 ∧ t.consumers = s.consumers + 1 := by
  cases hmove
  refine ⟨?_, rfl⟩
  simp [State.work, State.consumersWork, State.getConsumer, hnone,
    StreamedRequest.consumerWork, Channel.new]
  omega

theorem consumers_of_internal
    {s t : State TItem} {a : Action TItem} (hmove : Move s a t)
    (hinternal : a.Internal) : t.consumers = s.consumers := by
  cases hmove <;> first | rfl | exact hinternal.elim

/-- Every step of the client's side does some of its work. -/
theorem sessionWork_lt
    {xs : List TItem} {session after : Session TItem} {a : SessionAction}
    (hserving : session.Serving xs)
    (hstep : session.stepOneConsumer a = some after) :
    sessionWork after < sessionWork session := by
  rcases TransitionSystem.restrict_eq_some.mp hstep with ⟨hallowed, hnext⟩
  unfold sessionWork
  cases Session.moves_of_step hnext with
  | send htodo hmove =>
      have hwork := work_of_send hmove
      simp only [htodo, List.length_cons, hwork.2]
      omega
  | dropProducer htodo halive hidle =>
      simp only [halive, endWork]
      omega
  | sendEof hspawned hmove =>
      have hwork := work_of_sendEof hmove
      simp only [hspawned, endWork, hwork.1, hwork.2]
      omega
  | task task hmove =>
      by_cases hinternal : (task.action : Action TItem).Internal
      · have hwork := hmove.work_lt hinternal hserving.sound.good
        have hsame := consumers_of_internal hmove hinternal
        simp only [hsame]
        omega
      · cases task with
        | getConsumer =>
            have hnone : session.shared.consumers = 0 := hallowed
            have hwork := work_of_getConsumer hmove hnone
            simp only [hwork.1, hwork.2, hnone]
            omega
        | close c => exact hallowed.elim
        | _ => exact absurd trivial hinternal

end Work

/-- Once the consumer has read the end, it has been handed everything. -/
theorem received_of_finished
    {xs : List TItem} {session : Session TItem}
    (hserving : session.Serving xs) (hmade : 0 < session.shared.consumers)
    (hfinished : (session.shared.channel 0).finished = true) :
    (session.shared.channel 0).received = xs := by
  have hgood := hserving.sound.good
  rcases hgood.finished 0 hfinished with ⟨hsender, hqueue⟩
  have hdropped : ¬ session.shared.HoldsSender 0 := by
    intro hholds
    have halive := (hgood.sender_iff 0 hmade).mpr hholds
    rw [hsender] at halive
    contradiction
  have hplaced := hserving.tracked.gone hmade hdropped (.inr hfinished)
  rwa [Channel.placed_of_queue_nil hqueue] at hplaced

namespace Call

variable {reader} {into}

/-- What a call keeps: the client's side has made a run of its own, and the
handler holds what it has made of the items it has read. -/
structure Sound (into : TItem → TResult) (channelSize : ℕ) (xs : List TItem)
    (call : Call TItem TResult) : Prop where
  run : ∃ acts, TransitionSystem.exec Session.stepOneConsumer
    (Session.start channelSize xs) acts = some call.session
  collected : ∀ result, call.handler = .reading result →
    result = (xs.take call.reads).map into
  whole : ∀ result, call.handler = .returned (.ok result) →
    result = xs.map into

variable {channelSize : ℕ} {xs : List TItem}
variable {call after : Call TItem TResult} {a : CallAction}

theorem start_sound (into : TItem → TResult) (channelSize : ℕ)
    (xs : List TItem) : (start channelSize xs).Sound into channelSize xs := by
  refine ⟨⟨[], rfl⟩, ?_, ?_⟩
  · rintro result ⟨⟩
    rfl
  · rintro result ⟨⟩

theorem Sound.serving (hsound : call.Sound into channelSize xs) :
    call.session.Serving xs := by
  rcases hsound.run with ⟨acts, hrun⟩
  exact Session.exec_serving hrun

/-- The item that is read is the next item of the producer. -/
theorem Sound.getElem?_of_received
    (hsound : call.Sound into channelSize xs) {item : TItem}
    (hitem : (call.session.shared.channel 0).received[call.reads]? =
      some item) : xs[call.reads]? = some item := by
  rcases hsound.serving.received_prefix with ⟨rest, hrest⟩
  rw [← hrest, List.getElem?_append_left, hitem]
  exact (List.getElem?_eq_some_iff.mp hitem).1

theorem Moves.sound
    (hmoves : Moves reader into call a after)
    (hsound : call.Sound into channelSize xs) :
    after.Sound into channelSize xs := by
  cases hmoves with
  | @session result a next hreading hstep =>
      rcases hsound.run with ⟨acts, hrun⟩
      refine ⟨⟨acts ++ [a], ?_⟩, hsound.collected, hsound.whole⟩
      apply TransitionSystem.exec_append_eq_some.mpr
      exact ⟨call.session, hrun,
        TransitionSystem.exec_cons_eq_some.mpr ⟨next, hstep, rfl⟩⟩
  | @item result item hreading hitem =>
      refine ⟨hsound.run, ?_, ?_⟩
      · rintro longer ⟨⟩
        have hnext := hsound.getElem?_of_received hitem
        rw [List.take_add_one, hnext, List.map_append,
          ← hsound.collected result hreading]
        rfl
      · rintro longer ⟨⟩
  | @finish result hreading hmade hread hfinished =>
      refine ⟨hsound.run, ?_, ?_⟩
      · rintro longer ⟨⟩
      · rintro final ⟨⟩
        rw [received_of_finished hsound.serving hmade hfinished] at hread
        rw [hsound.collected result hreading, List.take_of_length_le hread]
  | timeout hreading =>
      refine ⟨hsound.run, ?_, ?_⟩ <;> rintro result ⟨⟩
  | status err hreading =>
      refine ⟨hsound.run, ?_, ?_⟩ <;> rintro result ⟨⟩

/-- What is left to do until the handler returns. -/
def work (xs : List TItem) (call : Call TItem TResult) : ℕ :=
  match call.handler with
  | .returned _ => 0
  | .reading _ => sessionWork call.session + (xs.length - call.reads) + 1

theorem work_of_reading
    {result : List TResult} (hreading : call.handler = .reading result) :
    call.work xs =
      sessionWork call.session + (xs.length - call.reads) + 1 := by
  simp [work, hreading]

theorem Moves.work_lt
    (hmoves : Moves reader into call a after)
    (hsound : call.Sound into channelSize xs) :
    after.work xs < call.work xs := by
  cases hmoves with
  | @session result a next hreading hstep =>
      have hlt := sessionWork_lt hsound.serving hstep
      have hnext : work xs { call with session := next } =
          sessionWork next + (xs.length - call.reads) + 1 :=
        work_of_reading hreading
      rw [work_of_reading hreading, hnext]
      omega
  | item hreading hitem =>
      have hnext := hsound.getElem?_of_received hitem
      have hlt := (List.getElem?_eq_some_iff.mp hnext).1
      rw [work_of_reading hreading, work_of_reading rfl]
      simp only
      omega
  | finish hreading hmade hread hfinished =>
      rw [work_of_reading hreading]
      exact Nat.succ_pos _
  | timeout hreading =>
      rw [work_of_reading hreading]
      exact Nat.succ_pos _
  | status err hreading =>
      rw [work_of_reading hreading]
      exact Nat.succ_pos _

/-- The handler fails with its own timeout or with what the transport gave
it. -/
def Explained (reader : StreamedRequestReader) (call : Call TItem TResult)
    (acts : List CallAction) : Prop :=
  ∀ err, call.handler = .returned (.error err) →
    .status err ∈ acts ∨ .timeout ∈ acts ∧ err = reader.timeoutStatus

theorem Moves.explained
    (hmoves : Moves reader into call a after) (past : List CallAction) :
    after.Explained reader (past ++ [a]) := by
  intro err hfailed
  cases hmoves with
  | session hreading hstep =>
      rw [show call.handler = _ from hfailed] at hreading
      contradiction
  | item hreading hitem => contradiction
  | finish hreading hmade hread hfinished => cases hfailed
  | timeout hreading =>
      cases hfailed
      exact .inr ⟨by simp, rfl⟩
  | status err hreading =>
      cases hfailed
      exact .inl (by simp)

/-- A handler that is still reading waits for nobody that cannot move. -/
theorem Sound.exists_step
    (hsound : call.Sound into channelSize xs) (hsize : 1 ≤ channelSize)
    {result : List TResult} (hreading : call.handler = .reading result) :
    ∃ a after, a.fails = false ∧ call.step reader into a = some after := by
  by_cases hstuck :
      TransitionSystem.Stuck Session.stepOneConsumer call.session
  · rcases hsound.run with ⟨acts, hrun⟩
    have hmade := hsound.serving.sole.consumers_of_settled
      (Session.Serving.settled_of_stuck hstuck)
    have hdelivered := hsound.serving.delivered_of_stuck hstuck
      ((Session.exec_channelSize hrun).symm ▸ hsize)
    have hread : ∃ read, call.nextRead = some read := by
      unfold nextRead
      rw [hdelivered.2]
      split
      next item hitem => exact ⟨_, rfl⟩
      next hnone => exact ⟨_, rfl⟩
    rcases hread with ⟨read, hread⟩
    refine ⟨.read, call.afterRead reader into result read, rfl, ?_⟩
    simp [step, hreading, hmade, hread]
  · unfold TransitionSystem.Stuck at hstuck
    push Not at hstuck
    rcases hstuck with ⟨a, ha⟩
    rcases Option.ne_none_iff_exists'.mp ha with ⟨next, hnext⟩
    refine ⟨.session a, { call with session := next }, rfl, ?_⟩
    simp [step, hreading, hnext]

/-- How a call goes, after the actions `acts`. -/
structure Answered (reader : StreamedRequestReader) (into : TItem → TResult)
    (xs : List TItem) (acts : List CallAction) (call : Call TItem TResult) :
    Prop where
  bounded : acts.length ≤ 4 * xs.length + 7
  /-- The handler is handed everything or it is told of a failure. -/
  whole : ∀ result, call.handler = .returned (.ok result) →
    result = xs.map into
  failed : ∀ err, call.handler = .returned (.error err) →
    .status err ∈ acts ∨ .timeout ∈ acts ∧ err = reader.timeoutStatus
  /-- Until then it holds the first items, and no failure is needed to go
  on. -/
  held : ∀ result, call.handler = .reading result →
    result <+: xs.map into ∧
      ∃ a after, a.fails = false ∧ call.step reader into a = some after

/-- A call with a streamed request is over after a bounded number of steps,
and the handler has then collected all the items in order or has got the error
of its last read. -/
theorem streamed_call_is_answered
    (reader : StreamedRequestReader) (into : TItem → TResult)
    {channelSize : ℕ} (hsize : 1 ≤ channelSize) {xs : List TItem}
    {acts : List CallAction} {call : Call TItem TResult}
    (hrun : TransitionSystem.exec (step reader into) (start channelSize xs)
      acts = some call) : call.Answered reader into xs acts := by
  have hkeep : ∀ (before : Call TItem TResult) a after,
      before.Sound into channelSize xs →
      before.step reader into a = some after →
      after.Sound into channelSize xs :=
    fun _ _ _ hsound hstep => (moves_of_step hstep).sound hsound
  have hstart := start_sound into channelSize xs
  have hsound := TransitionSystem.exec_invariant hkeep hstart hrun
  constructor
  · have hwork := TransitionSystem.length_add_rank_le hkeep
      (fun _ _ _ hsound hstep => (moves_of_step hstep).work_lt hsound)
      hstart hrun
    have hfirst : (start channelSize xs : Call TItem TResult).work xs =
        4 * xs.length + 7 := by
      simp [work, start, sessionWork, Session.start, endWork,
        StreamedRequest.newAsStream, State.work, State.consumersWork,
        StreamedRequest.requestWork, StreamedRequest.lockWork]
      omega
    omega
  · exact hsound.whole
  · have hexplained : call.Explained reader ([] ++ acts) :=
      TransitionSystem.exec_history
        (fun _ past _ _ _ hstep => (moves_of_step hstep).explained past)
        (by rintro err ⟨⟩) hrun
    exact hexplained
  · intro result hreading
    refine ⟨?_, hsound.exists_step hsize hreading⟩
    rw [hsound.collected result hreading]
    exact (List.take_prefix _ _).map into

/-- The handler reads the first item before the second is sent: two items are
collected with as many steps as there can be. -/
theorem streamed_call_is_answered_in_turn :
    ∃ (acts : List CallAction) (call : Call ℕ ℕ),
      TransitionSystem.exec (step new (· + 1)) (start 1 [7, 8]) acts =
          some call ∧
        acts.length = 4 * 2 + 7 ∧
        call.handler = .returned (.ok [8, 9]) ∧
        call.Answered new (· + 1) [7, 8] acts := by
  have hrun : TransitionSystem.exec (step new (· + 1)) (start 1 [7, 8])
      [.session .send, .session (.task .getConsumer),
        .session (.task (.setSender 0)), .session (.task .place),
        .session (.task .finishDrain), .session (.task (.recv 0)), .read,
        .session .send, .session (.task .place), .session .dropProducer,
        .session .sendEof, .session (.task (.recv 0)),
        .session (.task (.recv 0)), .read, .read] = some _ := rfl
  exact ⟨_, _, hrun, rfl, rfl,
    streamed_call_is_answered new _ (Nat.le_refl 1) hrun⟩

end Call

end StreamedRequestReader
end GrpcExtensions
