import GrpcExtensions.StreamedRequestInvariant

/-!
# One producer at work

A session runs a streamed request together with its only producer, which
sends a list in order and is then dropped; the drop spawns the end-of-stream
task.  Consumers, their `set_sender` tasks and the readers act freely.
-/

namespace GrpcExtensions
namespace StreamedRequest

universe u

variable {α : Type u}

/-- The producer is alive, its drop has spawned the end-of-stream task, or
that task has run. -/
inductive EndTask where
  | alive
  | spawned
  | done

structure Session (α : Type u) where
  shared : State α
  todo : List α
  eof : EndTask

/-- What the other tasks of a session do. -/
inductive Task where
  | getConsumer
  | setSender (c : ConsumerId)
  | place
  | finishDrain
  | recv (c : ConsumerId)
  | close (c : ConsumerId)

def Task.action : Task → Action α
  | .getConsumer => .getConsumer
  | .setSender c => .setSender c
  | .place => .place
  | .finishDrain => .finishDrain
  | .recv c => .recv c
  | .close c => .close c

inductive SessionAction where
  | send
  | dropProducer
  | sendEof
  | task (task : Task)

/-- The item of a `send` that awaits channel capacity. -/
def State.inflight (s : State α) : List α :=
  match s.lock with
  | some (.send _ item) => [item]
  | _ => []

namespace Session

def start (channelSize : ℕ) (xs : List α) : Session α where
  shared := newAsStream α channelSize
  todo := xs
  eof := .alive

def step (session : Session α) : SessionAction → Option (Session α)
  | .send =>
      match session.todo with
      | item :: rest =>
          (StreamedRequest.step session.shared (.send item)).map fun next =>
            { session with shared := next, todo := rest }
      | [] => none
  | .dropProducer =>
      match session.todo, session.eof, session.shared.inflight with
      | [], .alive, [] => some { session with eof := .spawned }
      | _, _, _ => none
  | .sendEof =>
      match session.eof with
      | .spawned =>
          (StreamedRequest.step session.shared .sendEof).map fun next =>
            { session with shared := next, eof := .done }
      | _ => none
  | .task task =>
      (StreamedRequest.step session.shared task.action).map fun next =>
        { session with shared := next }

/-- Everything a session step can do. -/
inductive Moves : Session α → SessionAction → Session α → Prop where
  | send {session : Session α} {item : α} {rest : List α} {next : State α}
      (htodo : session.todo = item :: rest)
      (hmove : Move session.shared (.send item) next) :
      Moves session .send { session with shared := next, todo := rest }
  | dropProducer {session : Session α}
      (htodo : session.todo = []) (halive : session.eof = .alive)
      (hidle : session.shared.inflight = []) :
      Moves session .dropProducer { session with eof := .spawned }
  | sendEof {session : Session α} {next : State α}
      (hspawned : session.eof = .spawned)
      (hmove : Move session.shared .sendEof next) :
      Moves session .sendEof { session with shared := next, eof := .done }
  | task {session : Session α} {next : State α} (task : Task)
      (hmove : Move session.shared task.action next) :
      Moves session (.task task) { session with shared := next }

theorem moves_of_step
    {session after : Session α} {a : SessionAction}
    (hstep : session.step a = some after) : Moves session a after := by
  cases a with
  | send =>
      simp only [step] at hstep
      split at hstep
      next item rest htodo =>
        obtain ⟨next, hnext, rfl⟩ := Option.map_eq_some_iff.mp hstep
        exact Moves.send htodo (move_of_step hnext)
      next => contradiction
  | dropProducer =>
      simp only [step] at hstep
      split at hstep
      next htodo halive hidle =>
        simp only [Option.some.injEq] at hstep
        exact hstep ▸ Moves.dropProducer htodo halive hidle
      next => contradiction
  | sendEof =>
      simp only [step] at hstep
      split at hstep
      next hspawned =>
        obtain ⟨next, hnext, rfl⟩ := Option.map_eq_some_iff.mp hstep
        exact Moves.sendEof hspawned (move_of_step hnext)
      next => contradiction
  | task task =>
      obtain ⟨next, hnext, rfl⟩ := Option.map_eq_some_iff.mp hstep
      exact Moves.task task (move_of_step hnext)

end Session

/-- The end has been recorded, by the flag or by an empty sender slot. -/
def State.Marked (s : State α) : Prop :=
  s.Flagged ∨ s.request = .initialized none

theorem State.not_marked_of_stored
    {s : State α} {c : ConsumerId}
    (hrequest : s.request = .initialized (some c)) : ¬ s.Marked := by
  rintro (⟨items, hflagged⟩ | hnone) <;> simp_all

/-- The tasks other than `send` and `send_eof` neither accept anything new
nor mark the end. -/
theorem Move.task_frame
    {s t : State α} {task : Task} (hmove : Move s task.action t) :
    t.accepted ++ t.inflight = s.accepted ++ s.inflight ∧
      t.refused = s.refused ∧
      (s.inflight = [] → t.inflight = []) ∧
      (t.Marked → s.Marked) := by
  cases task with
  | getConsumer =>
      cases hmove with
      | getConsumer => exact ⟨rfl, rfl, id, id⟩
  | setSender c =>
      cases hmove with
      | @bindDrain items hasEndOfStream c hlock hwaiting hrequest =>
          refine ⟨?_, rfl, ?_, ?_⟩
          · simp [State.inflight, hlock]
          · simp [State.inflight]
          · rintro (⟨ended, hflagged⟩ | hnone)
            · injection hflagged with hitems hflag
              exact .inl ⟨items, by rw [hrequest, hflag]⟩
            · contradiction
      | bindReplace c hlock hwaiting hrequest =>
          refine ⟨rfl, rfl, id, ?_⟩
          intro hmarked
          exact (State.not_marked_of_stored rfl hmarked).elim
  | place =>
      cases hmove with
      | placeSend hlock hopen hroom =>
          exact ⟨by simp [State.inflight, hlock], rfl,
            by simp [State.inflight], id⟩
      | placeSendClosed hlock hclosed =>
          exact ⟨by simp [State.inflight, hlock], rfl,
            by simp [State.inflight], id⟩
      | placeDrain hlock hopen hroom =>
          exact ⟨by simp [State.inflight, hlock], rfl,
            by simp [State.inflight], id⟩
      | placeDrainClosed hlock hclosed =>
          exact ⟨by simp [State.inflight, hlock], rfl,
            by simp [State.inflight], id⟩
  | finishDrain =>
      cases hmove with
      | drainEnded hlock hrequest =>
          exact ⟨by simp [State.inflight, hlock], rfl,
            by simp [State.inflight], id⟩
      | drainBound hlock hrequest =>
          refine ⟨by simp [State.inflight, hlock], rfl,
            by simp [State.inflight], ?_⟩
          intro hmarked
          exact (State.not_marked_of_stored rfl hmarked).elim
  | recv c =>
      cases hmove with
      | recvItem c hc hopen hunfinished hqueue => exact ⟨rfl, rfl, id, id⟩
      | recvEnd c hc hopen hunfinished hqueue hsender =>
          exact ⟨rfl, rfl, id, id⟩
  | close c =>
      cases hmove with
      | close c hc => exact ⟨rfl, rfl, id, id⟩

theorem Move.marked_of_send
    {s t : State α} {item : α} (hmove : Move s (.send item) t)
    (hmarked : t.Marked) : s.Marked := by
  cases hmove with
  | sendBuffered item hlock hrequest =>
      rcases hmarked with ⟨ended, hflagged⟩ | hnone
      · injection hflagged with hitems hflag
        contradiction
      · contradiction
  | sendRefused item hlock hrequest => exact hrequest
  | sendStarted item hlock hrequest => exact hmarked

/-- Only the end-of-stream task records the end. -/
theorem Move.marked_of_ne
    {s t : State α} {a : Action α} (hmove : Move s a t)
    (hne : a ≠ .sendEof) (hmarked : t.Marked) : s.Marked := by
  have htask : ∀ task : Task, Move s task.action t → s.Marked :=
    fun task hmove => hmove.task_frame.2.2.2 hmarked
  cases a with
  | getConsumer => exact htask .getConsumer hmove
  | send item => exact hmove.marked_of_send hmarked
  | setSender c => exact htask (.setSender c) hmove
  | sendEof => exact absurd rfl hne
  | place => exact htask .place hmove
  | finishDrain => exact htask .finishDrain hmove
  | recv c => exact htask (.recv c) hmove
  | close c => exact htask (.close c) hmove

/-- What holds in every state of a session that sends `xs`: nothing panics,
and the accepted items, the one in flight and the unsent ones make up `xs`. -/
structure Session.Sound (xs : List α) (session : Session α) : Prop where
  good : session.shared.WellFormed
  accounted : session.shared.Accounted
  sent : session.shared.accepted ++ session.shared.inflight ++
    session.todo = xs
  refused : session.shared.refused = []
  quiet : session.eof ≠ .alive →
    session.todo = [] ∧ session.shared.inflight = []
  marked : session.shared.Marked → session.eof = .done

theorem Session.Sound.accepted_of_quiet
    {xs : List α} {session : Session α} (hsound : session.Sound xs)
    (hquiet : session.eof ≠ .alive) : session.shared.accepted = xs := by
  obtain ⟨htodo, hinflight⟩ := hsound.quiet hquiet
  have hsent := hsound.sent
  rw [htodo, hinflight, List.append_nil, List.append_nil] at hsent
  exact hsent

theorem Session.Sound.accepted_of_flagged
    {xs : List α} {session : Session α} (hsound : session.Sound xs)
    (hflagged : session.shared.Flagged) : session.shared.accepted = xs := by
  apply hsound.accepted_of_quiet
  rw [hsound.marked (.inl hflagged)]
  exact EndTask.noConfusion

theorem Session.start_sound (channelSize : ℕ) (xs : List α) :
    (Session.start channelSize xs).Sound xs := by
  refine ⟨newAsStream_wellFormed α channelSize,
    newAsStream_accounted α channelSize, ?_, rfl, ?_, ?_⟩
  · simp [Session.start, newAsStream, State.inflight]
  · simp [Session.start]
  · rintro (⟨items, hflagged⟩ | hnone)
    · simp [Session.start, newAsStream] at hflagged
    · simp [Session.start, newAsStream] at hnone

theorem Session.Moves.sound
    {xs : List α} {session after : Session α} {a : SessionAction}
    (hmoves : Session.Moves session a after)
    (hsound : session.Sound xs) : after.Sound xs := by
  obtain ⟨hgood, hacc, hsent, hrefused, hquiet, hmarked⟩ := hsound
  cases hmoves with
  | @send item rest next htodo hmove =>
      have hgoodNext := hmove.wellFormed hgood
      have haccNext := hmove.accounted hgood hacc
      have halive : session.eof = .alive := by
        by_contra hended
        have := (hquiet hended).1
        simp [htodo] at this
      rw [htodo] at hsent
      have hunmarked : ¬ session.shared.Marked := by
        intro hmark
        rw [hmarked hmark] at halive
        contradiction
      cases hmove with
      | @sendBuffered items item hlock hrequest =>
          refine ⟨hgoodNext, haccNext, ?_, hrefused, ?_, ?_⟩
          · simpa [State.inflight, hlock] using hsent
          · simp [halive]
          · rintro (⟨ended, hflagged⟩ | hnone)
            · injection hflagged with hitems hflag
              contradiction
            · contradiction
      | sendRefused item hlock hrequest =>
          exact (hunmarked hrequest).elim
      | sendStarted item hlock hrequest =>
          refine ⟨hgoodNext, haccNext, ?_, hrefused, ?_, hmarked⟩
          · simpa [State.inflight, hlock] using hsent
          · simp [halive]
  | dropProducer htodo halive hidle =>
      refine ⟨hgood, hacc, hsent, hrefused, fun _ => ⟨htodo, hidle⟩, ?_⟩
      intro hmark
      have hdone := hmarked hmark
      rw [halive] at hdone
      contradiction
  | @sendEof next hspawned hmove =>
      have hgoodNext := hmove.wellFormed hgood
      have haccNext := hmove.accounted hgood hacc
      have hended := hquiet (by simp [hspawned])
      cases hmove with
      | eofFlagged hlock hrequest =>
          exact ⟨hgoodNext, haccNext, hsent, hrefused, fun _ => hended,
            fun _ => rfl⟩
      | eofTaken hlock hrequest =>
          exact ⟨hgoodNext, haccNext, hsent, hrefused, fun _ => hended,
            fun _ => rfl⟩
  | @task next task hmove =>
      obtain ⟨haccepted, hsame, hidle, hmark⟩ := hmove.task_frame
      refine ⟨hmove.wellFormed hgood, hmove.accounted hgood hacc, ?_,
        hsame.trans hrefused, ?_, fun h => hmarked (hmark h)⟩
      · rw [haccepted]
        exact hsent
      · intro hended
        exact ⟨(hquiet hended).1, hidle (hquiet hended).2⟩

end StreamedRequest
end GrpcExtensions
