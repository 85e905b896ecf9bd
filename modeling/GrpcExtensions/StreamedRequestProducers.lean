import GrpcExtensions.StreamedRequestSoleConsumer

/-!
# Several producers of one stream

Every `get_producer` call hands out one more producer of the same request,
and the drop of each of them spawns an end-of-stream task of its own.  The
request counts neither producers nor tasks, so the first task that runs ends
the stream for everybody.  With one consumer that stays open, all producers
are served exactly as long as no end-of-stream task runs before the last
producer is gone and no producer is obtained after the end.
-/

namespace GrpcExtensions
namespace StreamedRequest

universe u

variable {α : Type u}

/-- A producer is named by the position of its `get_producer` call. -/
abbrev ProducerId := ℕ

/-- A streamed request with its producers.  Every item carries the producer
that sends it, and `sent` records the sends that have taken the mutex. -/
structure Producers (α : Type u) where
  shared : State (ProducerId × α)
  made : ℕ
  alive : ProducerId → Bool
  /-- End-of-stream tasks that have been spawned and have not run. -/
  ends : ℕ
  sent : List (ProducerId × α)

inductive ProducersAction (α : Type u) where
  | getProducer
  | send (p : ProducerId) (item : α)
  | dropProducer (p : ProducerId)
  | sendEof
  | task (task : Task)

/-- The items of one producer, in the order of the whole list. -/
def itemsOf (p : ProducerId) (entries : List (ProducerId × α)) : List α :=
  entries.filterMap fun entry => if entry.1 = p then some entry.2 else none

theorem State.send_refused_eq_iff (s : State α) (item : α) :
    (s.send item).refused = s.refused ↔ ¬ s.Marked := by
  constructor
  · intro hsame hmarked
    rw [s.send_refused item hmarked] at hsame
    simp at hsame
  · intro hunmarked
    cases hrequest : s.request with
    | notInitialized items hasEndOfStream =>
        cases hasEndOfStream with
        | false => rw [s.send_buffered item hrequest]
        | true => exact absurd (.inl ⟨items, hrequest⟩) hunmarked
    | initialized sender =>
        cases sender with
        | none => exact absurd (.inr hrequest) hunmarked
        | some c => rw [s.send_started item hrequest]

theorem itemsOf_prefix
    {entries all : List (ProducerId × α)} (hentries : entries <+: all)
    (p : ProducerId) : itemsOf p entries <+: itemsOf p all :=
  hentries.filterMap _

namespace Producers

def start (α : Type u) (channelSize : ℕ) : Producers α where
  shared := newAsStream (ProducerId × α) channelSize
  made := 0
  alive := fun _ => false
  ends := 0
  sent := []

/-- A producer is borrowed by its own `send` until that returns, so it cannot
be dropped meanwhile. -/
def step (s : Producers α) : ProducersAction α → Option (Producers α)
  | .getProducer =>
      some { s with
        made := s.made + 1
        alive := Function.update s.alive s.made true }
  | .send p item =>
      if s.alive p = true then
        (StreamedRequest.step s.shared (.send (p, item))).map fun next =>
          { s with shared := next, sent := s.sent ++ [(p, item)] }
      else none
  | .dropProducer p =>
      if s.alive p = true ∧ itemsOf p s.shared.inflight = [] then
        some { s with
          alive := Function.update s.alive p false
          ends := s.ends + 1 }
      else none
  | .sendEof =>
      match s.ends with
      | 0 => none
      | ends + 1 =>
          (StreamedRequest.step s.shared .sendEof).map fun next =>
            { s with shared := next, ends := ends }
  | .task task =>
      (StreamedRequest.step s.shared task.action).map fun next =>
        { s with shared := next }

inductive Moves : Producers α → ProducersAction α → Producers α → Prop where
  | getProducer (s : Producers α) :
      Moves s .getProducer { s with
        made := s.made + 1
        alive := Function.update s.alive s.made true }
  | send {s : Producers α} {p : ProducerId} {item : α}
      {next : State (ProducerId × α)} (halive : s.alive p = true)
      (hmove : Move s.shared (.send (p, item)) next) :
      Moves s (.send p item)
        { s with shared := next, sent := s.sent ++ [(p, item)] }
  | dropProducer {s : Producers α} {p : ProducerId}
      (halive : s.alive p = true)
      (hidle : itemsOf p s.shared.inflight = []) :
      Moves s (.dropProducer p) { s with
        alive := Function.update s.alive p false
        ends := s.ends + 1 }
  | sendEof {s : Producers α} {ends : ℕ} {next : State (ProducerId × α)}
      (hspawned : s.ends = ends + 1)
      (hmove : Move s.shared .sendEof next) :
      Moves s .sendEof { s with shared := next, ends := ends }
  | task {s : Producers α} {next : State (ProducerId × α)} (task : Task)
      (hmove : Move s.shared task.action next) :
      Moves s (.task task) { s with shared := next }

theorem moves_of_step
    {s t : Producers α} {a : ProducersAction α}
    (hstep : s.step a = some t) : Moves s a t := by
  cases a with
  | getProducer =>
      cases hstep
      exact Moves.getProducer s
  | send p item =>
      simp only [step] at hstep
      split at hstep
      next halive =>
        obtain ⟨next, hnext, rfl⟩ := Option.map_eq_some_iff.mp hstep
        exact Moves.send halive (move_of_step hnext)
      next => contradiction
  | dropProducer p =>
      simp only [step] at hstep
      split at hstep
      next hfree =>
        cases hstep
        exact Moves.dropProducer hfree.1 hfree.2
      next => contradiction
  | sendEof =>
      simp only [step] at hstep
      split at hstep
      next => contradiction
      next ends hspawned =>
        obtain ⟨next, hnext, rfl⟩ := Option.map_eq_some_iff.mp hstep
        exact Moves.sendEof hspawned (move_of_step hnext)
  | task task =>
      obtain ⟨next, hnext, rfl⟩ := Option.map_eq_some_iff.mp hstep
      exact Moves.task task (move_of_step hnext)

/-- `get_consumer` is called once and its stream is never closed. -/
def OneConsumer (s : Producers α) : ProducersAction α → Prop
  | .task task => (task.action : Action (ProducerId × α)).Sole s.shared
  | _ => True

instance (s : Producers α) (a : ProducersAction α) :
    Decidable (OneConsumer s a) := by
  cases a <;> unfold OneConsumer <;> infer_instance

def stepOneConsumer (s : Producers α) (a : ProducersAction α) :
    Option (Producers α) :=
  TransitionSystem.restrict Producers.step OneConsumer s a

/-- The stream serves its producers: no send has panicked, nor would the next
one of a producer that is alive, for which the stream stays open; the items
of each producer are received in its order, and all of them once the tasks
have settled. -/
structure Served (s : Producers α) : Prop where
  unrefused : s.shared.refused = []
  accepts : ∀ p, s.alive p = true → ∀ item,
    (s.shared.send (p, item)).refused = s.shared.refused
  opened : (∃ p, s.alive p = true) → ∀ c, c < s.shared.consumers →
    (s.shared.channel c).senderAlive = true ∧
      (s.shared.channel c).finished = false
  inOrder : ∀ p, itemsOf p (s.shared.channel 0).received <+:
    itemsOf p s.sent
  delivered : s.shared.Settled → ∀ p,
    itemsOf p (s.shared.channel 0).received = itemsOf p s.sent

/-- The end of the stream comes after the last producer: the task of a drop
runs when nobody is left, and nobody is added once the end is recorded. -/
def EndsLast (s : Producers α) : ProducersAction α → Prop
  | .sendEof => ∀ p, s.alive p = false
  | .getProducer => ¬ s.shared.Marked
  | _ => True

/-- What holds in every state, wherever the end falls. -/
structure Sound (s : Producers α) : Prop where
  sole : s.shared.Sole
  inOrder : s.shared.InOrder
  size : 1 ≤ s.shared.channelSize
  sent : s.shared.refused = [] →
    s.sent = s.shared.accepted ++ s.shared.inflight

theorem start_sound {channelSize : ℕ} (hsize : 1 ≤ channelSize) :
    (start α channelSize).Sound :=
  ⟨newAsStream_sole _ channelSize, newAsStream_inOrder _ channelSize, hsize,
    fun _ => rfl⟩

theorem Moves.sound
    {s t : Producers α} {a : ProducersAction α} (hmoves : Moves s a t)
    (hallowed : OneConsumer s a) (hsound : s.Sound) : t.Sound := by
  obtain ⟨hsole, hin, hsize, hsent⟩ := hsound
  cases hmoves with
  | getProducer => exact ⟨hsole, hin, hsize, hsent⟩
  | dropProducer halive hidle => exact ⟨hsole, hin, hsize, hsent⟩
  | @send p item next halive hmove =>
      refine ⟨hmove.sole trivial hsole, hmove.inOrder trivial hsole hin,
        hmove.channelSize_eq ▸ hsize, ?_⟩
      cases hmove with
      | sendBuffered item hlock hrequest =>
          intro hrefused
          simpa [State.inflight, hlock] using hsent hrefused
      | sendRefused item hlock hrequest => simp
      | sendStarted item hlock hrequest =>
          intro hrefused
          simpa [State.inflight, hlock] using hsent hrefused
  | @sendEof ends next hspawned hmove =>
      refine ⟨hmove.sole trivial hsole, hmove.inOrder trivial hsole hin,
        hmove.channelSize_eq ▸ hsize, ?_⟩
      cases hmove with
      | eofFlagged hlock hrequest => exact hsent
      | eofTaken hlock hrequest => exact hsent
  | @task next task hmove =>
      obtain ⟨haccepted, hsame, -, -⟩ := hmove.task_frame
      refine ⟨hmove.sole hallowed hsole, hmove.inOrder hallowed hsole hin,
        hmove.channelSize_eq ▸ hsize, ?_⟩
      intro hrefused
      rw [haccepted]
      exact hsent (hsame ▸ hrefused)

theorem sound_of_step
    {s t : Producers α} {a : ProducersAction α} (hsound : s.Sound)
    (hstep : stepOneConsumer s a = some t) : t.Sound := by
  obtain ⟨hallowed, hnext⟩ := TransitionSystem.restrict_eq_some.mp hstep
  exact (moves_of_step hnext).sound hallowed hsound

theorem Sound.served
    {s : Producers α} (hsound : s.Sound)
    (hrefused : s.shared.refused = [])
    (hunmarked : ∀ p, s.alive p = true → ¬ s.shared.Marked) :
    s.Served := by
  have hsent := hsound.sent hrefused
  refine ⟨hrefused, ?_, ?_, ?_, ?_⟩
  · intro p halive item
    exact (s.shared.send_refused_eq_iff (p, item)).mpr (hunmarked p halive)
  · rintro ⟨p, halive⟩ c hc
    have hzero := hsound.sole.eq_zero hc
    subst c
    have hholds := hsound.inOrder.holdsSender hc (hunmarked p halive)
    have hsender := (hsound.sole.good.sender_iff 0 hc).mpr hholds
    exact ⟨hsender, hsound.sole.good.unfinished hsender⟩
  · intro p
    apply itemsOf_prefix
    rw [hsent]
    exact hsound.inOrder.received_prefix.trans (List.prefix_append _ _)
  · intro hsettled p
    have hlock := hsound.sole.lock_of_settled hsettled hsound.size
    rw [hsent, hsound.inOrder.received_of_settled hsound.sole hsettled
      hsound.size, State.inflight, hlock, List.append_nil]

theorem Served.not_marked
    [Nonempty α] {s : Producers α} (hserved : s.Served)
    {p : ProducerId} (halive : s.alive p = true) : ¬ s.shared.Marked := by
  obtain ⟨item⟩ := ‹Nonempty α›
  exact (s.shared.send_refused_eq_iff (p, item)).mp
    (hserved.accepts p halive item)

theorem Moves.served
    [Nonempty α] {s t : Producers α} {a : ProducersAction α}
    (hmoves : Moves s a t) (hnext : t.Sound)
    (hserved : s.Served) (hlast : EndsLast s a) : t.Served := by
  have hrefused := hserved.unrefused
  apply hnext.served
  · cases hmoves with
    | getProducer => exact hrefused
    | dropProducer halive hidle => exact hrefused
    | send halive hmove =>
        have hunmarked := hserved.not_marked halive
        cases hmove with
        | sendRefused item hlock hrequest =>
            exact absurd hrequest hunmarked
        | _ => exact hrefused
    | sendEof hspawned hmove => cases hmove <;> exact hrefused
    | task task hmove => exact hmove.task_frame.2.1.trans hrefused
  · intro p halive
    cases hmoves with
    | getProducer => exact hlast
    | dropProducer hq hidle => exact hserved.not_marked hq
    | send hq hmove =>
        intro hmarked
        exact hserved.not_marked hq (hmove.marked_of_send hmarked)
    | sendEof hspawned hmove =>
        rw [hlast p] at halive
        contradiction
    | task task hmove =>
        intro hmarked
        exact hserved.not_marked halive (hmove.task_frame.2.2.2 hmarked)

theorem start_served {channelSize : ℕ} (hsize : 1 ≤ channelSize) :
    (start α channelSize).Served :=
  (start_sound hsize).served rfl (fun _ halive => nomatch halive)

/-- Whoever is served afterwards was not cut off by this step. -/
theorem Served.endsLast
    [Nonempty α] {s t : Producers α} {a : ProducersAction α}
    (hmoves : Moves s a t) (hserved : t.Served) : EndsLast s a := by
  cases hmoves with
  | getProducer =>
      exact hserved.not_marked (p := s.made) (Function.update_self ..)
  | sendEof hspawned hmove =>
      intro p
      by_contra halive
      have hunmarked := hserved.not_marked (p := p) (by simpa using halive)
      apply hunmarked
      cases hmove with
      | eofFlagged hlock hrequest => exact .inl ⟨_, rfl⟩
      | eofTaken hlock hrequest => exact .inr rfl
  | _ => trivial

/-- In every run with one open consumer, all producers are served in every
state if and only if the end comes after the last of them: no end-of-stream
task runs while a producer is alive and none is obtained after the end.  A
state that serves a producer would take its next send, whether the run makes
one or not. -/
theorem served_iff_ends_last
    [Nonempty α] {channelSize : ℕ} (hsize : 1 ≤ channelSize)
    {acts : List (ProducersAction α)} {s : Producers α}
    (hrun : TransitionSystem.exec stepOneConsumer (start α channelSize)
      acts = some s) :
    TransitionSystem.Always stepOneConsumer Served (start α channelSize)
        acts ↔
      TransitionSystem.Along stepOneConsumer EndsLast (start α channelSize)
        acts := by
  have hmoves : ∀ {s t : Producers α} {a : ProducersAction α},
      stepOneConsumer s a = some t → Moves s a t := fun hstep =>
    moves_of_step (TransitionSystem.restrict_eq_some.mp hstep).2
  refine TransitionSystem.always_iff_along (I := Sound) ?_ ?_ ?_
    (start_sound hsize) (start_served hsize) hrun
  · intro s a t hsound hstep
    exact sound_of_step hsound hstep
  · intro s a t hsound hserved hlast hstep
    exact (hmoves hstep).served (sound_of_step hsound hstep) hserved hlast
  · intro s a t _ _ hstep hserved
    exact hserved.endsLast (hmoves hstep)

/-- Two producers, one before and one after the binding; the second is
dropped and its task runs last. -/
theorem served_iff_ends_last_two_producers :
    ∃ (acts : List (ProducersAction ℕ)) (s : Producers ℕ),
      acts = [.getProducer, .send 0 7, .task .getConsumer,
        .task (.setSender 0), .task .place, .task .finishDrain,
        .getProducer, .task (.recv 0), .dropProducer 0, .send 1 8,
        .task .place, .dropProducer 1, .sendEof] ∧
      TransitionSystem.exec stepOneConsumer (start ℕ 1) acts = some s ∧
      (TransitionSystem.Always stepOneConsumer Served (start ℕ 1) acts ↔
        TransitionSystem.Along stepOneConsumer EndsLast (start ℕ 1)
          acts) := by
  have hrun : TransitionSystem.exec stepOneConsumer (start ℕ 1)
      [.getProducer, .send 0 7, .task .getConsumer,
        .task (.setSender 0), .task .place, .task .finishDrain,
        .getProducer, .task (.recv 0), .dropProducer 0, .send 1 8,
        .task .place, .dropProducer 1, .sendEof] = some _ := rfl
  exact ⟨_, _, rfl, hrun, served_iff_ends_last (le_refl 1) hrun⟩

/-- The first of two producers is dropped and its end-of-stream task runs: the
bound consumer reads the end, and the send of the producer that is still
alive panics. -/
theorem first_drop_ends_stream :
    ∃ s : Producers ℕ,
      TransitionSystem.exec stepOneConsumer (start ℕ 1)
          [.getProducer, .getProducer, .task .getConsumer,
            .task (.setSender 0), .task .finishDrain, .dropProducer 0,
            .sendEof, .task (.recv 0), .send 1 7] = some s ∧
        s.alive 1 = true ∧ (s.shared.channel 0).finished = true ∧
        s.shared.refused = [(1, 7)] ∧ ¬ s.Served := by
  refine ⟨_, rfl, rfl, rfl, rfl, ?_⟩
  intro hserved
  exact absurd hserved.unrefused (by decide)

end Producers
end StreamedRequest
end GrpcExtensions
