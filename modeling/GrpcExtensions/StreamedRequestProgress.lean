import GrpcExtensions.RankedRuns
import GrpcExtensions.StreamedRequestInvariant

/-!
# The tasks of a streamed request come to rest

The owner of the mutex keeps it while it waits for room in a consumer's
channel, and every other task waits for the mutex.  However many producers and
consumers a request has, its spawned tasks and the readers that are still
there need nobody else: they have a bounded amount of work, and when nothing
moves any more the mutex is free and every reader has all that was placed for
it.
-/

namespace GrpcExtensions
namespace StreamedRequest

universe u

variable {α : Type u}

/-- The tasks that have been spawned and the readers go on; nobody sends,
binds a new consumer or closes one. -/
def Action.Internal : Action α → Prop
  | .setSender _ => True
  | .place => True
  | .finishDrain => True
  | .recv _ => True
  | _ => False

instance (a : Action α) : Decidable a.Internal :=
  match a with
  | .setSender _ | .place | .finishDrain | .recv _ => isTrue trivial
  | .getConsumer | .send _ | .sendEof | .close _ => isFalse id

def stepInternal (s : State α) (a : Action α) : Option (State α) :=
  TransitionSystem.restrict step (fun _ a => a.Internal) s a

section Work

/-- What is left to do for one consumer: its binding, the items in its queue
and the end of its stream. -/
def consumerWork (waiting : Bool) (channel : Channel α) : ℕ :=
  2 * waiting.toNat + channel.queue.length + (!channel.finished).toNat

/-- An item that is not in a channel yet has to be placed and to be read. -/
def requestWork : RequestAsStream α → ℕ
  | .notInitialized items _ => 2 * items.length
  | .initialized _ => 0

def lockWork : Option (Awaiting α) → ℕ
  | none => 0
  | some (.send _ _) => 2
  | some (.drain _ rest) => 1 + 2 * rest.length

def State.consumersWork (s : State α) : ℕ :=
  ∑ c ∈ Finset.range s.consumers, consumerWork (s.waiting c) (s.channel c)

def State.work (s : State α) : ℕ :=
  s.consumersWork + requestWork s.request + lockWork s.lock

variable {s t : State α}

/-- The work for one consumer has changed. -/
theorem consumersWork_add
    {c : ConsumerId} (hc : c < s.consumers)
    (hconsumers : t.consumers = s.consumers)
    (hother : ∀ d, d ≠ c →
      consumerWork (t.waiting d) (t.channel d) =
        consumerWork (s.waiting d) (s.channel d)) :
    t.consumersWork + consumerWork (s.waiting c) (s.channel c) =
      s.consumersWork + consumerWork (t.waiting c) (t.channel c) := by
  have hmem : c ∈ Finset.range s.consumers := Finset.mem_range.mpr hc
  have hrest :
      ∑ d ∈ (Finset.range s.consumers).erase c,
          consumerWork (t.waiting d) (t.channel d) =
        ∑ d ∈ (Finset.range s.consumers).erase c,
          consumerWork (s.waiting d) (s.channel d) := by
    apply Finset.sum_congr rfl
    intro d hd
    exact hother d (Finset.ne_of_mem_erase hd)
  have hbefore := Finset.add_sum_erase _
    (fun d : ℕ => consumerWork (s.waiting d) (s.channel d)) hmem
  have hafter := Finset.add_sum_erase _
    (fun d : ℕ => consumerWork (t.waiting d) (t.channel d)) hmem
  rw [hrest] at hafter
  unfold State.consumersWork
  rw [hconsumers]
  omega

theorem consumersWork_eq
    (hconsumers : t.consumers = s.consumers)
    (hsame : ∀ d, consumerWork (t.waiting d) (t.channel d) =
      consumerWork (s.waiting d) (s.channel d)) :
    t.consumersWork = s.consumersWork := by
  unfold State.consumersWork
  rw [hconsumers]
  exact Finset.sum_congr rfl fun d _ => hsame d

/-- Only the channel of one consumer has changed. -/
theorem consumersWork_update
    {c : ConsumerId} (hc : c < s.consumers) (next : Channel α) :
    ({ s with channel := Function.update s.channel c next } :
        State α).consumersWork +
        consumerWork (s.waiting c) (s.channel c) =
      s.consumersWork + consumerWork (s.waiting c) next := by
  have hadd := consumersWork_add (s := s)
    (t := { s with channel := Function.update s.channel c next }) hc rfl
    (fun d hne => by simp [hne])
  simpa using hadd

/-- The task of one consumer has taken the mutex. -/
theorem consumersWork_taken
    (hgood : s.WellFormed) {c : ConsumerId} (hwaiting : s.waiting c = true)
    (hconsumers : t.consumers = s.consumers)
    (htaken : t.waiting = Function.update s.waiting c false)
    (hqueue : ∀ d, (t.channel d).queue = (s.channel d).queue)
    (hfinished : ∀ d, (t.channel d).finished = (s.channel d).finished) :
    t.consumersWork + 2 = s.consumersWork := by
  have hsame : ∀ waiting d, consumerWork waiting (t.channel d) =
      consumerWork waiting (s.channel d) := by
    intro waiting d
    simp [consumerWork, hqueue, hfinished]
  have hadd := consumersWork_add (hgood.waiting c hwaiting).1 hconsumers
    (fun d hne => by
      rw [htaken, Function.update_of_ne hne, hsame])
  rw [htaken, Function.update_self, hsame, hwaiting] at hadd
  simp only [consumerWork, Bool.toNat_true, Bool.toNat_false] at hadd
  omega

theorem consumersWork_dropSender (s : State α) (c : ConsumerId) :
    ({ s with
        channel := Function.update s.channel c (s.channel c).dropSender } :
      State α).consumersWork = s.consumersWork := by
  refine consumersWork_eq (s := s) rfl fun d => ?_
  by_cases heq : d = c
  · subst heq
    simp [consumerWork, Channel.dropSender]
  · simp [heq]

end Work

section Progress

variable {s t : State α} {a : Action α}

/-- The owner of the mutex has pushed an item into its consumer's queue. -/
theorem consumersWork_push
    {c : ConsumerId} (hc : c < s.consumers) (item : α)
    (hroom : (s.channel c).HasRoom) :
    ({ s with
        channel := Function.update s.channel c ((s.channel c).push item hroom) } :
      State α).consumersWork = s.consumersWork + 1 := by
  have hadd := consumersWork_update hc ((s.channel c).push item hroom)
  have hwork : consumerWork (s.waiting c) ((s.channel c).push item hroom) =
      consumerWork (s.waiting c) (s.channel c) + 1 := by
    simp only [consumerWork, Channel.push, List.length_append,
      List.length_singleton]
    omega
  omega

/-- Every internal step does some of the work. -/
theorem Move.work_lt
    (hmove : Move s a t) (hinternal : a.Internal) (hgood : s.WellFormed) :
    t.work < s.work := by
  unfold State.work
  cases hmove with
  | @bindDrain items hasEndOfStream c hlock hwaiting hrequest =>
      have htaken := consumersWork_taken hgood hwaiting
        (t := { s with
          request := .notInitialized [] hasEndOfStream
          lock := some (.drain c items)
          waiting := Function.update s.waiting c false })
        rfl rfl (fun _ => rfl) (fun _ => rfl)
      simp only [State.consumersWork] at htaken ⊢
      rw [hlock, hrequest]
      simp only [requestWork, lockWork, List.length_nil]
      omega
  | @bindReplace existing c hlock hwaiting hrequest =>
      have htaken := consumersWork_taken hgood hwaiting
        (t := { s with
          request := .initialized (some c)
          channel := dropStored s.channel existing
          waiting := Function.update s.waiting c false })
        rfl rfl (dropStored_queue _ _) (dropStored_finished _ _)
      simp only [State.consumersWork] at htaken ⊢
      rw [hlock, hrequest]
      simp only [requestWork, lockWork]
      omega
  | @placeSend c item hlock hopen hroom =>
      have hstored := hgood.sendLock c item hlock
      have hpush := consumersWork_push (hgood.bound c (.inr hstored)).1 item
        hroom
      simp only [State.consumersWork] at hpush ⊢
      rw [hlock, hpush]
      simp only [lockWork]
      omega
  | @placeSendClosed c item hlock hclosed =>
      rw [hlock]
      simp only [State.consumersWork, lockWork]
      omega
  | @placeDrain c item rest hlock hopen hroom =>
      have hdraining := draining_of_drain hlock
      have hpush := consumersWork_push (hgood.bound c (.inl hdraining)).1 item
        hroom
      simp only [State.consumersWork] at hpush ⊢
      rw [hlock, hpush]
      simp only [lockWork, List.length_cons]
      omega
  | @placeDrainClosed c item rest hlock hclosed =>
      have hdrop := consumersWork_dropSender s c
      simp only [State.consumersWork] at hdrop ⊢
      rw [hlock, hdrop]
      simp only [lockWork, List.length_cons]
      omega
  | @drainEnded c items hlock hrequest =>
      have hdrop := consumersWork_dropSender s c
      simp only [State.consumersWork] at hdrop ⊢
      rw [hlock, hdrop]
      simp only [lockWork, List.length_nil]
      omega
  | @drainBound c items hlock hrequest =>
      rw [hlock, hrequest]
      simp only [State.consumersWork, requestWork, lockWork, List.length_nil]
      omega
  | @recvItem c hc hopen hunfinished hqueue =>
      have hadd := consumersWork_update hc (s.channel c).pop
      have hlength := List.length_pos_of_ne_nil hqueue
      have hwork : consumerWork (s.waiting c) (s.channel c).pop + 1 =
          consumerWork (s.waiting c) (s.channel c) := by
        simp only [consumerWork, Channel.pop, List.length_tail]
        omega
      simp only [State.consumersWork] at hadd ⊢
      omega
  | @recvEnd c hc hopen hunfinished hqueue hsender =>
      have hadd := consumersWork_update hc (s.channel c).finish
      have hwork : consumerWork (s.waiting c) (s.channel c).finish + 1 =
          consumerWork (s.waiting c) (s.channel c) := by
        simp [consumerWork, Channel.finish, hunfinished]
      simp only [State.consumersWork] at hadd ⊢
      omega
  | _ => exact hinternal.elim

theorem stepInternal_eq_some :
    stepInternal s a = some t ↔ a.Internal ∧ step s a = some t :=
  TransitionSystem.restrict_eq_some

theorem wellFormed_of_stepInternal
    (hgood : s.WellFormed) (hstep : stepInternal s a = some t) :
    t.WellFormed :=
  (move_of_step (stepInternal_eq_some.mp hstep).2).wellFormed hgood

theorem work_lt_of_stepInternal
    (hgood : s.WellFormed) (hstep : stepInternal s a = some t) :
    t.work < s.work := by
  rcases stepInternal_eq_some.mp hstep with ⟨hinternal, hstep⟩
  exact (move_of_step hstep).work_lt hinternal hgood

end Progress

/-- The mutex is free, no task waits for it, and every reader that is still
there has read all that was placed for it, and the end of its stream unless
its sender is the one that is stored. -/
structure State.AtRest (s : State α) : Prop where
  unlocked : s.lock = none
  bound : ∀ c, s.waiting c = false
  read : ∀ c < s.consumers, (s.channel c).receiverAlive = true →
    (s.channel c).received = (s.channel c).placed
  ended : ∀ c < s.consumers, (s.channel c).receiverAlive = true →
    s.stored ≠ some c → (s.channel c).finished = true

section Rest

variable {s : State α}

theorem step_eq_none_of_stuck
    (hstuck : TransitionSystem.Stuck stepInternal s)
    {a : Action α} (hinternal : a.Internal) : step s a = none :=
  hstuck.step_eq_none hinternal

theorem recv_of_stuck
    (hstuck : TransitionSystem.Stuck stepInternal s)
    {c : ConsumerId} (hc : c < s.consumers) : (s.channel c).recv = none := by
  have hnone := step_eq_none_of_stuck hstuck (a := .recv c) trivial
  simpa [step, State.recv, hc] using hnone

theorem queue_of_stuck
    (hgood : s.WellFormed) (hstuck : TransitionSystem.Stuck stepInternal s)
    {c : ConsumerId} (hc : c < s.consumers)
    (hopen : (s.channel c).receiverAlive = true) :
    (s.channel c).queue = [] := by
  rcases Channel.recv_eq_none.mp (recv_of_stuck hstuck hc) with
    hclosed | hfinished | ⟨hqueue, _⟩
  · rw [hopen] at hclosed
    contradiction
  · exact (hgood.finished c hfinished).2
  · exact hqueue

/-- The awaited send of the mutex's owner is never left waiting. -/
theorem send_of_stuck
    (hgood : s.WellFormed) (hsize : 1 ≤ s.channelSize)
    (hstuck : TransitionSystem.Stuck stepInternal s)
    {c : ConsumerId} (hc : c < s.consumers) (item : α) :
    (s.channel c).send item ≠ .full := by
  intro hfull
  rcases Channel.send_eq_full.mp hfull with ⟨hopen, hroom⟩
  have hqueue := queue_of_stuck hgood hstuck hc hopen
  have hcapacity := hgood.capacity c
  unfold Channel.HasRoom at hroom
  rw [hqueue, hcapacity, List.length_nil] at hroom
  omega

theorem place_isSome
    (hrest : ∀ c item, (s.draining = some c ∨ s.stored = some c) →
      (s.channel c).send item ≠ .full)
    (hgood : s.WellFormed) (hlock : s.lock ≠ none) :
    s.place.isSome = true ∨ s.finishDrain.isSome = true := by
  cases hawaiting : s.lock with
  | none => exact absurd hawaiting hlock
  | some awaiting =>
      cases awaiting with
      | send c item =>
          have hfull := hrest c item (.inr (hgood.sendLock c item hawaiting))
          left
          unfold State.place
          rw [hawaiting]
          cases hsend : (s.channel c).send item with
          | full => exact absurd hsend hfull
          | sent next => simp [hsend]
          | closed => simp [hsend]
      | drain c rest =>
          have hdraining := draining_of_drain hawaiting
          cases rest with
          | nil =>
              right
              rcases hgood.drainLock c [] hawaiting with ⟨flag, hrequest⟩
              unfold State.finishDrain
              rw [hawaiting, hrequest]
              cases flag <;> simp
          | cons item rest =>
              have hfull := hrest c item (.inl hdraining)
              left
              unfold State.place
              rw [hawaiting]
              cases hsend : (s.channel c).send item with
              | full => exact absurd hsend hfull
              | sent next => simp [hsend]
              | closed => simp [hsend]

theorem unlocked_of_stuck
    (hgood : s.WellFormed) (hsize : 1 ≤ s.channelSize)
    (hstuck : TransitionSystem.Stuck stepInternal s) : s.lock = none := by
  by_contra hlock
  have hplace := step_eq_none_of_stuck hstuck (a := .place) trivial
  have hfinish := step_eq_none_of_stuck hstuck (a := .finishDrain) trivial
  have hmoves := place_isSome
    (fun c item hheld =>
      send_of_stuck hgood hsize hstuck (hgood.bound c hheld).1 item)
    hgood hlock
  rw [show s.place = none from hplace,
    show s.finishDrain = none from hfinish] at hmoves
  simp at hmoves

theorem atRest_of_stuck
    (hgood : s.WellFormed) (hsize : 1 ≤ s.channelSize)
    (hstuck : TransitionSystem.Stuck stepInternal s) : s.AtRest := by
  have hlock := unlocked_of_stuck hgood hsize hstuck
  have hbound : ∀ c, s.waiting c = false := by
    intro c
    have hnone := step_eq_none_of_stuck hstuck (a := .setSender c) trivial
    simpa [step, hlock] using hnone
  have hdraining := draining_of_unlocked hlock
  constructor
  · exact hlock
  · exact hbound
  · intro c hc hopen
    have hqueue := queue_of_stuck hgood hstuck hc hopen
    exact (Channel.placed_of_queue_nil hqueue).symm
  · intro c hc hopen hstored
    have hholds : ¬ s.HoldsSender c := by
      unfold State.HoldsSender
      simp [hbound c, hdraining, hstored]
    have hsender : ¬ (s.channel c).senderAlive = true := by
      rw [hgood.sender_iff c hc]
      exact hholds
    rcases Channel.recv_eq_none.mp (recv_of_stuck hstuck hc) with
      hclosed | hfinished | ⟨_, halive⟩
    · rw [hopen] at hclosed
      contradiction
    · exact hfinished
    · exact absurd halive hsender

theorem channelSize_of_stepInternal
    {t : State α} {a : Action α} (hstep : stepInternal s a = some t) :
    t.channelSize = s.channelSize :=
  (move_of_step (stepInternal_eq_some.mp hstep).2).channelSize_eq

end Rest

/-- What a request does when nobody sends, binds or closes any more, from any
state it may be in. -/
structure State.ComesToRest (s : State α) : Prop where
  bounded : ∀ acts t, TransitionSystem.exec stepInternal s acts = some t →
    acts.length + t.work ≤ s.work
  settles : ∃ acts t, TransitionSystem.exec stepInternal s acts = some t ∧
    TransitionSystem.Stuck stepInternal t
  rest : ∀ acts t, TransitionSystem.exec stepInternal s acts = some t →
    TransitionSystem.Stuck stepInternal t → t.AtRest

/-- Whatever a request has been through, its tasks and the readers that are
there need no more steps than there is work, and where they can go no further
the mutex is free and nobody waits. -/
theorem comes_to_rest
    {channelSize : ℕ} (hsize : 1 ≤ channelSize)
    {acts : List (Action α)} {s : State α}
    (hrun : TransitionSystem.exec step (newAsStream α channelSize) acts =
      some s) : s.ComesToRest := by
  have hgood := exec_wellFormed hrun
  have hsame : s.channelSize = channelSize :=
    TransitionSystem.exec_invariant
      (I := fun s : State α => s.channelSize = channelSize)
      (fun _ _ _ hs hstep => (move_of_step hstep).channelSize_eq.trans hs) rfl
      hrun
  have hinv : ∀ (u : State α) a v, u.WellFormed ∧ 1 ≤ u.channelSize →
      stepInternal u a = some v → v.WellFormed ∧ 1 ≤ v.channelSize := by
    intro u a v hu hstep
    exact ⟨wellFormed_of_stepInternal hu.1 hstep,
      (channelSize_of_stepInternal hstep).symm ▸ hu.2⟩
  have hlower : ∀ (u : State α) a v, u.WellFormed ∧ 1 ≤ u.channelSize →
      stepInternal u a = some v → v.work < u.work :=
    fun u a v hu hstep => work_lt_of_stepInternal hu.1 hstep
  have hstart : s.WellFormed ∧ 1 ≤ s.channelSize := ⟨hgood, hsame ▸ hsize⟩
  constructor
  · intro more t hmore
    exact TransitionSystem.length_add_rank_le hinv hlower hstart hmore
  · exact TransitionSystem.exists_stuck hinv hlower hstart
  · intro more t hmore hstuck
    have hlast := TransitionSystem.exec_invariant hinv hstart hmore
    exact atRest_of_stuck hlast.1 hlast.2 hstuck

/-- The owner of the mutex waits with its second item for a reader that has
read nothing, and the task of a second consumer waits for the mutex. -/
theorem comes_to_rest_full_channel :
    ∃ s : State ℕ,
      TransitionSystem.exec step (newAsStream ℕ 1)
          [.send 7, .send 8, .getConsumer, .getConsumer, .setSender 0,
            .place] = some s ∧
        s.lock = some (.drain 0 [8]) ∧ s.waiting 1 = true ∧
        s.ComesToRest := by
  have hrun : TransitionSystem.exec step (newAsStream ℕ 1)
      [.send 7, .send 8, .getConsumer, .getConsumer, .setSender 0, .place] =
        some _ := rfl
  exact ⟨_, hrun, rfl, rfl, comes_to_rest (Nat.le_refl 1) hrun⟩

end StreamedRequest
end GrpcExtensions
