import GrpcExtensions.StreamedRequestConservation
import GrpcExtensions.StreamedRequestEndOfStream
import GrpcExtensions.StreamedRequestSoleConsumer
import GrpcExtensions.StreamedRequestTracking

/-!
# One consumer, one producer

With a single `get_consumer` call whose stream is never closed, the consumer
is handed the producer's items in order, each once, and then the end of the
stream, wherever the binding and the end-of-stream task fall between the
sends.  Nothing waits for ever: the mutex is held across an await only while
the consumer's queue is full, and then the consumer can read.
-/

namespace GrpcExtensions
namespace StreamedRequest

universe u

variable {α : Type u}

/-- `get_consumer` is called once and its stream is never closed. -/
def OneConsumer (session : Session α) : SessionAction → Prop
  | .task .getConsumer => session.shared.consumers = 0
  | .task (.close _) => False
  | _ => True

instance (session : Session α) (a : SessionAction) :
    Decidable (OneConsumer session a) := by
  cases a with
  | task task => cases task <;> unfold OneConsumer <;> infer_instance
  | _ => unfold OneConsumer; infer_instance

namespace Session

def stepOneConsumer (session : Session α) (a : SessionAction) :
    Option (Session α) :=
  TransitionSystem.restrict Session.step OneConsumer session a

structure Serving (xs : List α) (session : Session α) : Prop where
  sound : session.Sound xs
  tracked : session.shared.Tracked xs 0
  single : session.shared.consumers ≤ 1
  opened : ∀ c, (session.shared.channel c).receiverAlive = true
  lossless : session.shared.lost = []
  /-- Until its task has run, the only consumer is bound nowhere. -/
  unbound : session.shared.consumers = 0 ∨
      session.shared.waiting 0 = true ∨
      session.shared.draining = some 0 →
    ∃ items hasEndOfStream,
      session.shared.request = .notInitialized items hasEndOfStream
  ended : session.eof = .done → session.shared.Marked

theorem start_serving (channelSize : ℕ) (xs : List α) :
    (start channelSize xs).Serving xs := by
  refine ⟨start_sound channelSize xs,
    newAsStream_tracked xs 0 channelSize, Nat.zero_le 1, fun _ => rfl, rfl,
    fun _ => ⟨[], false, rfl⟩, ?_⟩
  simp [start]

namespace Serving

variable {xs : List α} {session : Session α}

theorem sole (hserving : session.Serving xs) : session.shared.Sole :=
  ⟨hserving.sound.good, hserving.single, hserving.opened,
    hserving.lossless, hserving.unbound⟩

/-- Before its binding the consumer's channel is fresh, so the buffer holds
everything that was accepted. -/
theorem accepted_of_waiting
    (hserving : session.Serving xs)
    (hwaiting : session.shared.waiting 0 = true) :
    session.shared.accepted = session.shared.buffered := by
  have hgood := hserving.sound.good
  have hc := (hgood.waiting 0 hwaiting).1
  have hone : session.shared.consumers = 1 :=
    le_antisymm hserving.single hc
  have hplaced : session.shared.placed = 0 := by
    simp [State.placed, hone, (hgood.waiting 0 hwaiting).2]
  exact hserving.sound.accounted.accepted_of_untouched hplaced
    hserving.lossless

/-- What a step of the shared state keeps, given what it does to the end. -/
theorem tracked_of_move
    {next : State α} {a : Action α}
    (hserving : session.Serving xs) (hmove : Move session.shared a next)
    (hend : a = .sendEof → session.shared.accepted = xs) :
    next.Tracked xs 0 := by
  have hwaits : ∀ c, a = .setSender c → session.shared.waiting c = true := by
    rintro c rfl
    cases hmove with
    | bindDrain c hlock hwaiting hrequest => exact hwaiting
    | bindReplace c hlock hwaiting hrequest => exact hwaiting
  apply hmove.tracked hserving.sound.good hserving.tracked
  · intro hbind
    exact hserving.accepted_of_waiting (hwaits 0 hbind)
  · intro d hbind hne
    exact absurd (hserving.sole.eq_zero_of_waiting (hwaits d hbind)) hne
  · rintro (hflagged | heof)
    · exact hserving.sound.accepted_of_flagged hflagged
    · exact hend heof

end Serving

/-- The guard of a session is that of its shared state. -/
theorem sole_of_oneConsumer
    {session : Session α} {task : Task}
    (hallowed : OneConsumer session (.task task)) :
    (task.action : Action α).Sole session.shared := by
  cases task <;> exact hallowed

theorem Moves.serving
    {xs : List α} {session after : Session α} {a : SessionAction}
    (hmoves : Moves session a after) (hallowed : OneConsumer session a)
    (hserving : session.Serving xs) : after.Serving xs := by
  have hsound := hmoves.sound hserving.sound
  cases hmoves with
  | @send item rest next htodo hmove =>
      have halive : session.eof = .alive := by
        by_contra hended
        have hnil := (hserving.sound.quiet hended).1
        rw [htodo] at hnil
        contradiction
      have hsole := hmove.sole trivial hserving.sole
      refine ⟨hsound, hserving.tracked_of_move hmove (by simp),
        hsole.single, hsole.opened, hsole.lossless, hsole.unbound, ?_⟩
      intro hdone
      rw [show session.eof = .done from hdone] at halive
      contradiction
  | dropProducer htodo halive hidle =>
      exact ⟨hsound, hserving.tracked, hserving.single, hserving.opened,
        hserving.lossless, hserving.unbound, EndTask.noConfusion⟩
  | @sendEof next hspawned hmove =>
      have hquiet : session.eof ≠ .alive := by simp [hspawned]
      have hsole := hmove.sole trivial hserving.sole
      refine ⟨hsound,
        hserving.tracked_of_move hmove
          (fun _ => hserving.sound.accepted_of_quiet hquiet),
        hsole.single, hsole.opened, hsole.lossless, hsole.unbound, ?_⟩
      intro _
      cases hmove with
      | eofFlagged hlock hrequest => exact .inl ⟨_, rfl⟩
      | eofTaken hlock hrequest => exact .inr rfl
  | @task next task hmove =>
      have hneof : task.action ≠ (.sendEof : Action α) := by
        cases task <;> simp [Task.action]
      have hsole :=
        hmove.sole (sole_of_oneConsumer hallowed) hserving.sole
      exact ⟨hsound,
        hserving.tracked_of_move hmove (fun heof => absurd heof hneof),
        hsole.single, hsole.opened, hsole.lossless, hsole.unbound,
        fun hdone =>
          hserving.sole.marked_of_move hmove (hserving.ended hdone)⟩

theorem exec_serving
    {channelSize : ℕ} {xs : List α} {acts : List SessionAction}
    {session : Session α}
    (hrun : TransitionSystem.exec stepOneConsumer (start channelSize xs)
      acts = some session) : session.Serving xs := by
  refine TransitionSystem.exec_invariant ?_ (start_serving channelSize xs)
    hrun
  intro before a after hserving hstep
  obtain ⟨hallowed, hnext⟩ := TransitionSystem.restrict_eq_some.mp hstep
  exact (moves_of_step hnext).serving hallowed hserving

/-- With the mutex free, whoever could still take it has done so. -/
theorem idle_of_stuck
    {session : Session α}
    (hstuck : TransitionSystem.Stuck stepOneConsumer session)
    (hlock : session.shared.lock = none) :
    session.shared.waiting 0 = false ∧ session.eof = .done := by
  have hbind := hstuck.step_eq_none (a := .task (.setSender 0)) trivial
  have hsend := hstuck.step_eq_none (a := .send) trivial
  have hdrop := hstuck.step_eq_none (a := .dropProducer) trivial
  have heof := hstuck.step_eq_none (a := .sendEof) trivial
  constructor
  · simpa [Session.step, Task.action, StreamedRequest.step, hlock]
      using hbind
  · have htodo : session.todo = [] := by
      cases htodo : session.todo with
      | nil => rfl
      | cons item rest =>
          simp [Session.step, StreamedRequest.step, htodo, hlock] at hsend
    cases heofState : session.eof with
    | alive =>
        simp [Session.step, State.inflight, htodo, heofState, hlock]
          at hdrop
    | spawned =>
        simp [Session.step, StreamedRequest.step, heofState, hlock] at heof
    | done => rfl

namespace Serving

variable {xs : List α} {session : Session α}

theorem received_prefix (hserving : session.Serving xs) :
    (session.shared.channel 0).received <+: xs := by
  have hgood := hserving.sound.good
  have htracked := hserving.tracked
  have hreading : session.shared.Reading 0 := .inl (hserving.opened 0)
  have haccepted : session.shared.accepted <+: xs := by
    rw [← hserving.sound.sent, List.append_assoc]
    exact List.prefix_append _ _
  apply (session.shared.channel 0).received_prefix_placed.trans
  by_cases hmade : 0 < session.shared.consumers
  · by_cases hholds : session.shared.HoldsSender 0
    · rcases hholds with hwaiting | hdraining | hstored
      · rw [(hgood.waiting 0 hwaiting).2]
        exact List.nil_prefix
      · unfold State.draining at hdraining
        split at hdraining
        next c rest hlock =>
          have hzero : c = 0 := Option.some.inj hdraining
          subst c
          apply List.IsPrefix.trans _ haccepted
          rw [htracked.draining rest hlock]
          exact List.prefix_append _ _
        next => contradiction
      · rw [← htracked.stored hstored hreading]
        exact haccepted
    · rw [htracked.gone hmade hholds hreading]
  · rw [htracked.unmade (not_lt.mp hmade)]
    exact List.nil_prefix

/-- In a session where nobody can act the tasks have settled. -/
theorem settled_of_stuck
    (hstuck : TransitionSystem.Stuck stepOneConsumer session) :
    session.shared.Settled := by
  intro task hsole
  have hallowed : OneConsumer session (.task task) := by
    cases task <;> exact hsole
  have hnone := hstuck.step_eq_none hallowed
  simpa [Session.step] using hnone

theorem delivered_of_stuck
    (hserving : session.Serving xs)
    (hstuck : TransitionSystem.Stuck stepOneConsumer session)
    (hsize : 1 ≤ session.shared.channelSize) :
    (session.shared.channel 0).received = xs ∧
      (session.shared.channel 0).finished = true := by
  have hgood := hserving.sound.good
  have hsole := hserving.sole
  have hsettled := settled_of_stuck hstuck
  have hlock := hsole.lock_of_settled hsettled hsize
  obtain ⟨hreleased, hdone⟩ := idle_of_stuck hstuck hlock
  have hmade : 0 < session.shared.consumers := by
    rw [hsole.consumers_of_settled hsettled]
    exact Nat.one_pos
  have hdropped : ¬ session.shared.HoldsSender 0 := by
    rintro (hwaiting | hdraining | hstored)
    · exact absurd (hreleased.symm.trans hwaiting) Bool.false_ne_true
    · simp [State.draining, hlock] at hdraining
    · rcases hserving.ended hdone with ⟨items, hflagged⟩ | hnone
      · simp [State.stored, hflagged] at hstored
      · simp [State.stored, hnone] at hstored
  have hplaced : (session.shared.channel 0).placed = xs :=
    hserving.tracked.gone hmade hdropped (.inl (hserving.opened 0))
  rcases Channel.recv_eq_none.mp (hsole.recv_of_settled hsettled) with
    hclosed | hfinished | ⟨_, halive⟩
  · rw [hserving.opened 0] at hclosed
    contradiction
  · have hqueue := (hgood.finished 0 hfinished).2
    rw [Channel.placed_of_queue_nil hqueue] at hplaced
    exact ⟨hplaced, hfinished⟩
  · exact absurd ((hgood.sender_iff 0 hmade).mp halive) hdropped

end Serving

theorem exec_channelSize
    {channelSize : ℕ} {xs : List α} {acts : List SessionAction}
    {session : Session α}
    (hrun : TransitionSystem.exec stepOneConsumer (start channelSize xs)
      acts = some session) :
    session.shared.channelSize = channelSize := by
  refine TransitionSystem.exec_invariant
    (I := fun s : Session α => s.shared.channelSize = channelSize) ?_ rfl
    hrun
  intro before a after hsize hstep
  have hmoves := moves_of_step
    (TransitionSystem.restrict_eq_some.mp hstep).2
  cases hmoves with
  | dropProducer htodo halive hidle => exact hsize
  | send htodo hmove => exact hmove.channelSize_eq.trans hsize
  | sendEof hspawned hmove => exact hmove.channelSize_eq.trans hsize
  | task task hmove => exact hmove.channelSize_eq.trans hsize

/-- One consumer of one producer receives the items in order, each once, and
then the end of the stream: no send panics, what has been received is always
a prefix, and a session in which nobody can act has delivered everything. -/
theorem delivers_exactly_once
    {channelSize : ℕ} (hsize : 1 ≤ channelSize)
    {xs : List α} {acts : List SessionAction} {session : Session α}
    (hrun : TransitionSystem.exec stepOneConsumer (start channelSize xs)
      acts = some session) :
    session.shared.refused = [] ∧
      (session.shared.channel 0).received <+: xs ∧
      (TransitionSystem.Stuck stepOneConsumer session →
        (session.shared.channel 0).received = xs ∧
          (session.shared.channel 0).finished = true) := by
  have hserving := exec_serving hrun
  refine ⟨hserving.sound.refused, hserving.received_prefix, ?_⟩
  intro hstuck
  apply hserving.delivered_of_stuck hstuck
  rw [exec_channelSize hrun]
  exact hsize

/-- The consumer binds after the first of two sends. -/
theorem delivers_exactly_once_bound_between :
    ∃ session : Session ℕ,
      TransitionSystem.exec stepOneConsumer (start 1 [1, 2])
          [.send, .task .getConsumer, .task (.setSender 0), .task .place,
            .task .finishDrain, .send, .task (.recv 0), .task .place,
            .dropProducer, .sendEof, .task (.recv 0), .task (.recv 0)] =
        some session ∧
      session.shared.refused = [] ∧
      (session.shared.channel 0).received <+: [1, 2] ∧
      (TransitionSystem.Stuck stepOneConsumer session →
        (session.shared.channel 0).received = [1, 2] ∧
          (session.shared.channel 0).finished = true) := by
  have hrun : TransitionSystem.exec stepOneConsumer (start 1 [1, 2])
      [.send, .task .getConsumer, .task (.setSender 0), .task .place,
        .task .finishDrain, .send, .task (.recv 0), .task .place,
        .dropProducer, .sendEof, .task (.recv 0), .task (.recv 0)] =
      some _ := rfl
  exact ⟨_, hrun, delivers_exactly_once (le_refl 1) hrun⟩

end Session

end StreamedRequest
end GrpcExtensions
