import GrpcExtensions.StreamedRequestRebinding

/-!
# Retrying a streamed request

The loops of `RequestBuilderWithInputStreamWithRetries` call the generated
executor once for each attempt that gets a channel, and each call makes a
consumer of the same request.  `get_response` and `get_streamed_response` are
one loop here: they differ in what an accepted attempt returns.  An attempt
that succeeds after its stream was read to the end may have seen only part of
the items, since an earlier attempt may have drained the buffer.
-/

namespace GrpcExtensions
namespace StreamedRequest

universe u

variable {α : Type u}

/-- Where the retry loop is.  A running attempt is named by its consumer, and
a successful one records whether its stream had been read to the end. -/
inductive Loop where
  | ready (attemptNo : ℕ)
  | running (attemptNo : ℕ) (c : ConsumerId)
  | succeeded (c : ConsumerId) (readToEnd : Bool)
  | failed

def Loop.consumer : Loop → Option ConsumerId
  | .running _ c => some c
  | .succeeded c _ => some c
  | _ => none

structure Retry (α : Type u) where
  session : Session α
  maxAttemptsAmount : ℕ
  loop : Loop

inductive RetryAction where
  /-- `get_channel` fails, and with it the attempt. -/
  | connectFails
  /-- The executor is called, which calls `get_consumer`. -/
  | execute
  | attemptFails
  | attemptSucceeds
  | session (a : SessionAction)

/-- `attempt_no += 1` and the test against `max_attempts_amount`. -/
def afterError (maxAttemptsAmount attemptNo : ℕ) : Loop :=
  if attemptNo + 1 ≥ maxAttemptsAmount then .failed
  else .ready (attemptNo + 1)

namespace Retry

def start (channelSize maxAttemptsAmount : ℕ) (xs : List α) : Retry α where
  session := Session.start channelSize xs
  maxAttemptsAmount := maxAttemptsAmount
  loop := .ready 0

/-- Only the executor makes consumers, so `get_consumer` is no action of the
session here. -/
def step (retry : Retry α) : RetryAction → Option (Retry α)
  | .connectFails =>
      match retry.loop with
      | .ready attemptNo =>
          some { retry with
            loop := afterError retry.maxAttemptsAmount attemptNo }
      | _ => none
  | .execute =>
      match retry.loop with
      | .ready attemptNo =>
          (retry.session.step (.task .getConsumer)).map fun next =>
            { retry with
              session := next
              loop := .running attemptNo retry.session.shared.consumers }
      | _ => none
  | .attemptFails =>
      match retry.loop with
      | .running attemptNo _ =>
          some { retry with
            loop := afterError retry.maxAttemptsAmount attemptNo }
      | _ => none
  | .attemptSucceeds =>
      match retry.loop with
      | .running _ c =>
          some { retry with
            loop :=
              .succeeded c (retry.session.shared.channel c).finished }
      | _ => none
  | .session (.task .getConsumer) => none
  | .session a =>
      (retry.session.step a).map fun next => { retry with session := next }

end Retry

/-- What a loop action does to the session. -/
def RetryAction.visible : RetryAction → Option SessionAction
  | .execute => some (.task .getConsumer)
  | .session a => some a
  | _ => none

namespace Retry

theorem step_session_eq_some
    {retry after : Retry α} {a : SessionAction}
    (hstep : retry.step (.session a) = some after) :
    ∃ next, retry.session.step a = some next ∧
      after = { retry with session := next } := by
  cases a with
  | task task =>
      cases task with
      | getConsumer => simp [step] at hstep
      | _ =>
          obtain ⟨next, hnext, rfl⟩ := Option.map_eq_some_iff.mp hstep
          exact ⟨next, hnext, rfl⟩
  | _ =>
      obtain ⟨next, hnext, rfl⟩ := Option.map_eq_some_iff.mp hstep
      exact ⟨next, hnext, rfl⟩

theorem step_execute_eq_some
    {retry after : Retry α} (hstep : retry.step .execute = some after) :
    ∃ attemptNo next, retry.loop = .ready attemptNo ∧
      retry.session.step (.task .getConsumer) = some next ∧
      after = { retry with
        session := next
        loop := .running attemptNo retry.session.shared.consumers } := by
  simp only [step] at hstep
  split at hstep
  next attemptNo hready =>
    obtain ⟨next, hnext, rfl⟩ := Option.map_eq_some_iff.mp hstep
    exact ⟨attemptNo, next, hready, hnext, rfl⟩
  next => contradiction

/-- The loop drives the session only through session actions. -/
theorem exec_session
    {retry after : Retry α} {acts : List RetryAction}
    (hrun : TransitionSystem.exec Retry.step retry acts = some after) :
    TransitionSystem.exec Session.step retry.session
        (acts.filterMap RetryAction.visible) = some after.session := by
  refine TransitionSystem.exec_filterMap ?_ ?_ hrun
  · intro before a next b hvisible hstep
    cases a with
    | execute =>
        obtain ⟨attemptNo, session, _, hnext, rfl⟩ :=
          step_execute_eq_some hstep
        cases hvisible
        exact hnext
    | session a =>
        obtain ⟨session, hnext, rfl⟩ := step_session_eq_some hstep
        cases hvisible
        exact hnext
    | _ => simp [RetryAction.visible] at hvisible
  · intro before a next hvisible hstep
    cases a with
    | execute => simp [RetryAction.visible] at hvisible
    | session a => simp [RetryAction.visible] at hvisible
    | _ =>
        simp only [step] at hstep
        split at hstep
        next =>
          simp only [Option.some.injEq] at hstep
          rw [← hstep]
        next => contradiction

/-- The consumer of the current attempt exists, and a stream that was read to
the end stays so. -/
structure Coherent (retry : Retry α) : Prop where
  made : ∀ c, retry.loop.consumer = some c →
    c < retry.session.shared.consumers
  read : ∀ c, retry.loop = .succeeded c true →
    (retry.session.shared.channel c).finished = true

theorem start_coherent
    (channelSize maxAttemptsAmount : ℕ) (xs : List α) :
    (start channelSize maxAttemptsAmount xs).Coherent := by
  constructor
  · intro c hconsumer
    contradiction
  · intro c hsucceeded
    contradiction

theorem afterError_consumer (maxAttemptsAmount attemptNo : ℕ) :
    (afterError maxAttemptsAmount attemptNo).consumer = none := by
  unfold afterError
  split <;> rfl

theorem Coherent.step
    {xs : List α} {retry after : Retry α} {a : RetryAction}
    (hstep : retry.step a = some after)
    (hsound : retry.session.Sound xs) (hcoherent : retry.Coherent) :
    after.Coherent := by
  have hextends : ∀ {b : SessionAction} {next : Session α},
      retry.session.step b = some next →
        retry.session.shared.Extends next.shared := by
    intro b next hnext
    exact (Session.moves_of_step hnext).extends hsound
  cases a with
  | execute =>
      obtain ⟨attemptNo, session, _, hnext, rfl⟩ :=
        step_execute_eq_some hstep
      constructor
      · intro c hconsumer
        have hc : retry.session.shared.consumers = c := by
          simpa [Loop.consumer] using hconsumer
        cases Session.moves_of_step hnext with
        | task task hmove =>
            cases hmove with
            | getConsumer => exact hc ▸ Nat.lt_succ_self _
      · intro c hsucceeded
        contradiction
  | session a =>
      obtain ⟨session, hnext, rfl⟩ := step_session_eq_some hstep
      have hgrows := hextends hnext
      constructor
      · intro c hconsumer
        exact (hcoherent.made c hconsumer).trans_le hgrows.consumers
      · intro c hsucceeded
        have hc := hcoherent.made c
          (by rw [show retry.loop = _ from hsucceeded]; rfl)
        exact hgrows.finished c hc (hcoherent.read c hsucceeded)
  | attemptSucceeds =>
      simp only [Retry.step] at hstep
      split at hstep
      next attemptNo c hrunning =>
        simp only [Option.some.injEq] at hstep
        subst hstep
        constructor
        · intro d hconsumer
          apply hcoherent.made d
          rw [hrunning]
          exact hconsumer
        · intro d hsucceeded
          injection hsucceeded with hconsumer hread
          rw [← hconsumer]
          exact hread
      next => contradiction
  | _ =>
      simp only [Retry.step] at hstep
      split at hstep
      next =>
        simp only [Option.some.injEq] at hstep
        subst hstep
        have hnone := afterError_consumer retry.maxAttemptsAmount
        constructor
        · intro c hconsumer
          rw [hnone] at hconsumer
          contradiction
        · intro c hsucceeded
          have hconsumer := hnone _ ▸ congrArg Loop.consumer hsucceeded
          contradiction
      next => contradiction

theorem exec_coherent
    {channelSize maxAttemptsAmount : ℕ} {xs : List α}
    {acts : List RetryAction} {retry : Retry α}
    (hrun : TransitionSystem.exec Retry.step
      (start channelSize maxAttemptsAmount xs) acts = some retry) :
    retry.Coherent := by
  have hboth : retry.session.Sound xs ∧ retry.Coherent := by
    refine TransitionSystem.exec_invariant
      (I := fun r : Retry α => r.session.Sound xs ∧ r.Coherent) ?_
      ⟨Session.start_sound channelSize xs,
        start_coherent channelSize maxAttemptsAmount xs⟩ hrun
    intro before a after ⟨hsound, hcoherent⟩ hstep
    refine ⟨?_, hcoherent.step hstep hsound⟩
    have hone : TransitionSystem.exec Retry.step before [a] = some after :=
      TransitionSystem.exec_cons_eq_some.mpr ⟨after, hstep, rfl⟩
    exact TransitionSystem.exec_invariant
      (fun _ _ _ hs hnext => (Session.moves_of_step hnext).sound hs)
      hsound (exec_session hone)
  exact hboth.2

/-- A successful attempt that has read its stream to the end has read all of
the producer's items if and only if its consumer was never disturbed: its
`set_sender` found everything still in the buffer, and no `set_sender` of
another attempt took its place before the producer's last item. -/
theorem retry_received_all_iff
    {channelSize maxAttemptsAmount : ℕ} {xs : List α}
    {acts : List RetryAction} {retry : Retry α} {c : ConsumerId}
    (hrun : TransitionSystem.exec Retry.step
      (start channelSize maxAttemptsAmount xs) acts = some retry)
    (hsucceeded : retry.loop = .succeeded c true) :
    (retry.session.shared.channel c).received = xs ↔
      TransitionSystem.Along Session.step (Session.Undisturbed c)
        (Session.start channelSize xs)
        (acts.filterMap RetryAction.visible) := by
  have hcoherent := exec_coherent hrun
  apply Session.received_all_iff (exec_session hrun)
  · apply hcoherent.made
    rw [hsucceeded]
    rfl
  · exact hcoherent.read c hsucceeded

/-- The first attempt gets no channel and the second one succeeds. -/
theorem retry_received_all_iff_after_failed_connect :
    ∃ retry : Retry ℕ,
      TransitionSystem.exec Retry.step (start 1 2 [7])
          [.connectFails, .session .send, .execute,
            .session (.task (.setSender 0)), .session (.task .place),
            .session (.task .finishDrain), .session .dropProducer,
            .session .sendEof, .session (.task (.recv 0)),
            .session (.task (.recv 0)), .attemptSucceeds] = some retry ∧
      ((retry.session.shared.channel 0).received = [7] ↔
        TransitionSystem.Along Session.step (Session.Undisturbed 0)
          (Session.start 1 [7])
          ([.connectFails, .session .send, .execute,
            .session (.task (.setSender 0)), .session (.task .place),
            .session (.task .finishDrain), .session .dropProducer,
            .session .sendEof, .session (.task (.recv 0)),
            .session (.task (.recv 0)), .attemptSucceeds].filterMap
              RetryAction.visible)) := by
  have hrun : TransitionSystem.exec Retry.step (start 1 2 [7])
      [.connectFails, .session .send, .execute,
        .session (.task (.setSender 0)), .session (.task .place),
        .session (.task .finishDrain), .session .dropProducer,
        .session .sendEof, .session (.task (.recv 0)),
        .session (.task (.recv 0)), .attemptSucceeds] = some _ := rfl
  exact ⟨_, hrun, retry_received_all_iff hrun rfl⟩

/-- Both items are sent and drained into the first attempt, which fails.  The
second attempt finds the buffer empty, sees the end of its stream and
succeeds without having read anything. -/
theorem second_attempt_succeeds_on_nothing :
    ∃ retry : Retry ℕ,
      TransitionSystem.exec Retry.step (start 1024 2 [1, 2])
          [.session .send, .session .send, .execute,
            .session (.task (.setSender 0)), .session (.task .place),
            .session (.task .place), .session (.task .finishDrain),
            .attemptFails, .session (.task (.close 0)), .execute,
            .session (.task (.setSender 1)), .session .dropProducer,
            .session .sendEof, .session (.task (.recv 1)),
            .attemptSucceeds] = some retry ∧
        retry.loop = .succeeded 1 true ∧
        (retry.session.shared.channel 1).received = [] ∧
        (retry.session.shared.channel 1).received ≠ [1, 2] := by
  refine ⟨_, rfl, rfl, rfl, ?_⟩
  intro hall
  contradiction

end Retry

end StreamedRequest
end GrpcExtensions
