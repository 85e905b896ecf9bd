import GrpcExtensions.StreamedRequestSession

/-!
# The order of the bindings

Each `get_consumer` call leaves its binding to a detached task, and the mutex
serves the tasks in any order.  A task that finds a stored sender replaces it
whatever its age, so the stored sender is the one of the task that took the
mutex last, which is the newest consumer only when the tasks run in the order
of the calls as far as the last of them is concerned.
-/

namespace GrpcExtensions
namespace StreamedRequest

universe u

variable {α : Type u}

def Action.binding : Action α → Option ConsumerId
  | .setSender c => some c
  | _ => none

/-- The `set_sender` tasks in the order in which they have taken the mutex. -/
def bindings (acts : List (Action α)) : List ConsumerId :=
  acts.filterMap Action.binding

/-- Every `set_sender` task has run to its end. -/
structure State.AllBound (s : State α) : Prop where
  waiting : ∀ c, s.waiting c = false
  draining : s.draining = none

/-- The end of stream has not come yet, and the consumer `c` stays open. -/
def BeforeEnd (c : ConsumerId) (_ : State α) : Action α → Prop
  | .sendEof => False
  | .close d => d ≠ c
  | _ => True

instance (c : ConsumerId) (s : State α) (a : Action α) :
    Decidable (BeforeEnd c s a) := by
  cases a <;> unfold BeforeEnd <;> infer_instance

def stepBeforeEnd (c : ConsumerId) (s : State α) (a : Action α) :
    Option (State α) :=
  TransitionSystem.restrict step (BeforeEnd c) s a

theorem bindings_append_singleton (past : List (Action α)) (a : Action α) :
    bindings (past ++ [a]) = bindings past ++ a.binding.toList := by
  unfold bindings
  rw [List.filterMap_append]
  cases hbinding : a.binding <;> simp [hbinding]

theorem Move.waiting_cases
    {s t : State α} {a : Action α} (hmove : Move s a t) :
    (a = .getConsumer ∧ t = s.getConsumer) ∨
      (∃ c, a = .setSender c ∧ s.waiting c = true ∧
        t.consumers = s.consumers ∧
        t.waiting = Function.update s.waiting c false) ∨
      (a.binding = none ∧ t.consumers = s.consumers ∧
        t.waiting = s.waiting) := by
  cases hmove with
  | getConsumer => exact .inl ⟨rfl, rfl⟩
  | bindDrain c hlock hwaiting hrequest =>
      exact .inr (.inl ⟨c, rfl, hwaiting, rfl, rfl⟩)
  | bindReplace c hlock hwaiting hrequest =>
      exact .inr (.inl ⟨c, rfl, hwaiting, rfl, rfl⟩)
  | _ => exact .inr (.inr ⟨rfl, rfl, rfl⟩)

/-- A call's task waits until it takes the mutex, and takes it once. -/
structure BoundOnce (s : State α) (order : List ConsumerId) : Prop where
  nodup : order.Nodup
  mem_iff : ∀ c, c ∈ order ↔ c < s.consumers ∧ s.waiting c = false

theorem Move.boundOnce
    {s t : State α} {a : Action α} {order : List ConsumerId}
    (hmove : Move s a t) (hgood : s.WellFormed)
    (hbound : BoundOnce s order) :
    BoundOnce t (order ++ a.binding.toList) := by
  obtain ⟨hnodup, hmem⟩ := hbound
  rcases hmove.waiting_cases with
    ⟨rfl, rfl⟩ | ⟨c, rfl, hwaiting, hconsumers, htasks⟩ |
      ⟨hnone, hconsumers, htasks⟩
  · refine ⟨by simpa [Action.binding] using hnodup, ?_⟩
    intro d
    have hold := hmem d
    by_cases heq : d = s.consumers
    · subst d
      simpa [Action.binding, State.getConsumer] using hold
    · simp only [Action.binding, Option.toList_none, List.append_nil,
        State.getConsumer, Function.update_of_ne heq]
      have hbelow : d < s.consumers + 1 ↔ d < s.consumers := by
        constructor
        · intro hlt
          exact lt_of_le_of_ne (Nat.le_of_lt_succ hlt) heq
        · exact Nat.lt_succ_of_lt
      rw [hold, hbelow]
  · have hlt := (hgood.waiting c hwaiting).1
    have hnew : c ∉ order := by
      intro hc
      rw [((hmem c).mp hc).2] at hwaiting
      contradiction
    constructor
    · simpa [Action.binding, List.nodup_append] using
        ⟨hnodup, fun d hd heq => hnew (heq ▸ hd)⟩
    · intro d
      rw [hconsumers, htasks]
      by_cases heq : d = c
      · subst d
        simpa [Action.binding] using hlt
      · simpa [Action.binding, heq, Function.update_of_ne heq] using hmem d
  · rw [hnone, Option.toList_none, List.append_nil]
    refine ⟨hnodup, ?_⟩
    rw [hconsumers, htasks]
    exact hmem

/-- When all tasks are done, their order is an order of all the calls. -/
theorem BoundOnce.perm_range
    {s : State α} {order : List ConsumerId} (hbound : BoundOnce s order)
    (hdone : s.AllBound) : order.Perm (List.range s.consumers) := by
  apply (List.perm_ext_iff_of_nodup hbound.nodup List.nodup_range).mpr
  intro c
  rw [hbound.mem_iff c, hdone.waiting c, List.mem_range]
  simp

/-- Bound is the consumer whose sender drains or is stored. -/
def State.Bound (s : State α) (c : ConsumerId) : Prop :=
  s.draining = some c ∨ s.stored = some c

/-- The consumer `c` is open, no end has been recorded, and `c` is bound if
its task was the last to take the mutex. -/
structure LastBound (c : ConsumerId) (s : State α)
    (order : List ConsumerId) : Prop where
  opened : (s.channel c).receiverAlive = true
  unmarked : ¬ s.Marked
  bound_iff : s.Bound c ↔ order.getLast? = some c

theorem Move.bound_iff
    {s t : State α} {a : Action α} {c : ConsumerId} (hmove : Move s a t)
    (hgood : s.WellFormed) (hopen : (s.channel c).receiverAlive = true)
    (hunmarked : ¬ s.Marked) (hend : a ≠ .sendEof)
    (hnone : a.binding = none) : t.Bound c ↔ s.Bound c := by
  cases hmove with
  | @sendBuffered items item hlock hrequest =>
      simp [State.Bound, State.draining, State.stored, hlock, hrequest]
  | sendStarted item hlock hrequest =>
      simp [State.Bound, State.draining, State.stored, hlock]
  | placeSend hlock hreceiver hroom =>
      simp [State.Bound, State.draining, State.stored, hlock]
  | placeSendClosed hlock hclosed =>
      simp [State.Bound, State.draining, State.stored, hlock]
  | placeDrain hlock hreceiver hroom =>
      simp [State.Bound, State.draining, State.stored, hlock]
  | @placeDrainClosed d item rest hlock hclosed =>
      obtain ⟨hasEndOfStream, hrequest⟩ := hgood.drainLock d _ hlock
      have hne : d ≠ c := by
        rintro rfl
        rw [hopen] at hclosed
        contradiction
      simp [State.Bound, State.draining, State.stored, hlock, hrequest, hne]
  | @drainEnded d items hlock hrequest =>
      exact absurd (.inl ⟨items, hrequest⟩) hunmarked
  | @drainBound d items hlock hrequest =>
      simp [State.Bound, State.draining, State.stored, hlock, hrequest]
  | eofFlagged hlock hrequest => exact absurd rfl hend
  | eofTaken hlock hrequest => exact absurd rfl hend
  | bindDrain d hlock hwaiting hrequest => contradiction
  | bindReplace d hlock hwaiting hrequest => contradiction
  | _ => exact Iff.rfl

/-- The task that takes the mutex is bound, and nobody else is. -/
theorem Move.bound_of_setSender
    {s t : State α} {c d : ConsumerId}
    (hmove : Move s (.setSender d) t) : t.Bound c ↔ d = c := by
  cases hmove with
  | bindDrain d hlock hwaiting hrequest =>
      simp [State.Bound, State.draining, State.stored]
  | bindReplace d hlock hwaiting hrequest =>
      simp [State.Bound, State.draining, State.stored, hlock]

theorem Move.lastBound
    {s t : State α} {a : Action α} {c : ConsumerId}
    {order : List ConsumerId} (hmove : Move s a t)
    (hallowed : BeforeEnd c s a) (hgood : s.WellFormed)
    (hlast : LastBound c s order) :
    LastBound c t (order ++ a.binding.toList) := by
  have hend : a ≠ .sendEof := by
    rintro rfl
    exact hallowed
  have hclose : a ≠ .close c := by
    rintro rfl
    exact hallowed rfl
  refine ⟨hmove.receiverAlive hclose hlast.opened,
    fun hmarked => hlast.unmarked (hmove.marked_of_ne hend hmarked), ?_⟩
  cases hbinding : a.binding with
  | none =>
      rw [Option.toList_none, List.append_nil, ← hlast.bound_iff]
      exact hmove.bound_iff hgood hlast.opened hlast.unmarked hend hbinding
  | some d =>
      have hact : a = .setSender d := by
        cases a <;> simp_all [Action.binding]
      subst hact
      rw [hmove.bound_of_setSender]
      simp

theorem newAsStream_lastBound
    (α : Type u) (channelSize : ℕ) (c : ConsumerId) :
    LastBound c (newAsStream α channelSize) [] := by
  refine ⟨rfl, ?_, ?_⟩
  · rintro (⟨items, hflagged⟩ | hnone) <;> simp_all [newAsStream]
  · simp [State.Bound, State.draining, State.stored, newAsStream]

structure Ordered (c : ConsumerId) (s : State α)
    (past : List (Action α)) : Prop where
  good : s.WellFormed
  once : BoundOnce s (bindings past)
  last : LastBound c s (bindings past)

theorem exec_ordered
    {channelSize : ℕ} {c : ConsumerId} {acts : List (Action α)}
    {s : State α}
    (hrun : TransitionSystem.exec (stepBeforeEnd c)
      (newAsStream α channelSize) acts = some s) : Ordered c s acts := by
  have hinit : Ordered c (newAsStream α channelSize) [] :=
    ⟨newAsStream_wellFormed α channelSize,
      ⟨List.nodup_nil, by simp [bindings, newAsStream]⟩,
      newAsStream_lastBound α channelSize c⟩
  refine TransitionSystem.exec_history ?_ hinit hrun
  intro before past a after hordered hstep
  obtain ⟨hallowed, hnext⟩ := TransitionSystem.restrict_eq_some.mp hstep
  have hmove := move_of_step hnext
  have hgood := hordered.good
  refine ⟨hmove.wellFormed hgood, ?_, ?_⟩
  · rw [bindings_append_singleton]
    exact hmove.boundOnce hgood hordered.once
  · rw [bindings_append_singleton]
    exact hmove.lastBound hallowed hgood hordered.last

/-- Once the tasks of all `get_consumer` calls are done, they have taken the
mutex in some order of the calls, and the newest consumer is stored, with its
stream open, if and only if its task came last in that order. -/
theorem newest_stored_iff_bound_last
    {channelSize : ℕ} {newest : ConsumerId} {acts : List (Action α)}
    {s : State α}
    (hrun : TransitionSystem.exec (stepBeforeEnd newest)
      (newAsStream α channelSize) acts = some s)
    (hnewest : s.consumers = newest + 1) (hdone : s.AllBound) :
    (bindings acts).Perm (List.range (newest + 1)) ∧
      ((s.stored = some newest ∧
          (s.channel newest).senderAlive = true ∧
          (s.channel newest).finished = false) ↔
        (bindings acts).getLast? = some newest) := by
  obtain ⟨hgood, honce, hlast⟩ := exec_ordered hrun
  refine ⟨hnewest ▸ honce.perm_range hdone, ?_⟩
  have hbound : s.Bound newest ↔ s.stored = some newest := by
    simp [State.Bound, hdone.draining]
  rw [← hlast.bound_iff, hbound]
  constructor
  · exact fun hstored => hstored.1
  · intro hstored
    obtain ⟨hmade, _⟩ := hgood.bound newest (.inr hstored)
    have hsender :=
      (hgood.sender_iff newest hmade).mpr (.inr (.inr hstored))
    exact ⟨hstored, hsender, hgood.unfinished hsender⟩

/-- The tasks of two calls run in the order of the calls. -/
theorem newest_stored_iff_bound_last_in_order :
    ∃ (acts : List (Action ℕ)) (s : State ℕ),
      acts = [.getConsumer, .send 7, .setSender 0, .place, .finishDrain,
        .getConsumer, .close 0, .setSender 1, .send 8, .place] ∧
      TransitionSystem.exec (stepBeforeEnd 1) (newAsStream ℕ 1) acts =
        some s ∧
      (bindings acts).Perm (List.range 2) ∧
      ((s.stored = some 1 ∧ (s.channel 1).senderAlive = true ∧
          (s.channel 1).finished = false) ↔
        (bindings acts).getLast? = some 1) := by
  have hrun : TransitionSystem.exec (stepBeforeEnd 1) (newAsStream ℕ 1)
      [.getConsumer, .send 7, .setSender 0, .place, .finishDrain,
        .getConsumer, .close 0, .setSender 1, .send 8, .place] =
      some _ := rfl
  refine ⟨_, _, rfl, hrun, newest_stored_iff_bound_last hrun rfl ⟨?_, rfl⟩⟩
  intro c
  match c with
  | 0 => rfl
  | 1 => rfl
  | c + 2 => rfl

/-- The task of the first call takes the mutex after that of the second, drops
the newest sender and stores its own: the newest consumer reads the end of
its stream and the next send goes to the abandoned one. -/
theorem late_binding_replaces_newest :
    ∃ s : State ℕ,
      TransitionSystem.exec (stepBeforeEnd 1) (newAsStream ℕ 1)
          [.getConsumer, .getConsumer, .setSender 1, .finishDrain,
            .setSender 0, .recv 1, .send 7, .place] = some s ∧
        s.consumers = 2 ∧ s.waiting 0 = false ∧ s.waiting 1 = false ∧
        s.lock = none ∧ s.stored = some 0 ∧
        (s.channel 1).finished = true ∧ (s.channel 0).queue = [7] :=
  ⟨_, rfl, rfl, rfl, rfl, rfl, rfl, rfl, rfl⟩

end StreamedRequest
end GrpcExtensions
