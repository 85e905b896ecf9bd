import GrpcExtensions.StreamedRequestSession

/-!
# Runs with one open consumer

What holds of the shared state alone while `get_consumer` is called once and
its stream is never closed, whoever sends and whenever the end is recorded:
nothing is lost, the consumer's channel and the buffer together are the
accepted items in order, and a state in which no task can act has a free
mutex and a reader with nothing left to read.
-/

namespace GrpcExtensions
namespace StreamedRequest

universe u

variable {α : Type u}

/-- `get_consumer` is called once and its stream is never closed. -/
def Action.Sole (s : State α) : Action α → Prop
  | .getConsumer => s.consumers = 0
  | .close _ => False
  | _ => True

instance (s : State α) (a : Action α) : Decidable (a.Sole s) :=
  match a with
  | .getConsumer => inferInstanceAs (Decidable (s.consumers = 0))
  | .close _ => inferInstanceAs (Decidable False)
  | .send _ => inferInstanceAs (Decidable True)
  | .setSender _ => inferInstanceAs (Decidable True)
  | .sendEof => inferInstanceAs (Decidable True)
  | .place => inferInstanceAs (Decidable True)
  | .finishDrain => inferInstanceAs (Decidable True)
  | .recv _ => inferInstanceAs (Decidable True)

/-- The ownership facts that rest on there being one consumer. -/
structure State.Sole (s : State α) : Prop where
  good : s.WellFormed
  single : s.consumers ≤ 1
  opened : ∀ c, (s.channel c).receiverAlive = true
  lossless : s.lost = []
  /-- Until its task has run, the only consumer is bound nowhere. -/
  unbound : s.consumers = 0 ∨ s.waiting 0 = true ∨ s.draining = some 0 →
    ∃ items hasEndOfStream, s.request = .notInitialized items hasEndOfStream

/-- What the consumer is given, in which order, and that it is let go of only
once the end is recorded. -/
structure State.InOrder (s : State α) : Prop where
  fresh : s.consumers = 0 → (s.channel 0).placed = []
  ordered : (s.channel 0).placed ++ s.buffered = s.accepted
  bound : 0 < s.consumers → s.waiting 0 = false → s.draining ≠ some 0 →
    s.stored = some 0 ∨ s.request = .notInitialized [] true ∨
      s.request = .initialized none

theorem newAsStream_sole (α : Type u) (channelSize : ℕ) :
    (newAsStream α channelSize).Sole := by
  refine ⟨newAsStream_wellFormed α channelSize, Nat.zero_le 1, fun _ => rfl,
    rfl, fun _ => ⟨[], false, rfl⟩⟩

theorem newAsStream_inOrder (α : Type u) (channelSize : ℕ) :
    (newAsStream α channelSize).InOrder := by
  constructor <;> simp [newAsStream, State.buffered]

namespace State.Sole

variable {s t : State α} {a : Action α} {c : ConsumerId}

theorem eq_zero (hsole : s.Sole) (hc : c < s.consumers) : c = 0 :=
  Nat.lt_one_iff.mp (lt_of_lt_of_le hc hsole.single)

theorem eq_zero_of_waiting
    (hsole : s.Sole) (hwaiting : s.waiting c = true) : c = 0 :=
  hsole.eq_zero (hsole.good.waiting c hwaiting).1

theorem eq_zero_of_draining
    (hsole : s.Sole) (hdraining : s.draining = some c) : c = 0 :=
  hsole.eq_zero (hsole.good.bound c (.inl hdraining)).1

theorem not_initialized_of_waiting
    (hsole : s.Sole) (hwaiting : s.waiting c = true)
    (sender : Option ConsumerId) : s.request ≠ .initialized sender := by
  intro hrequest
  rw [hsole.eq_zero_of_waiting hwaiting] at hwaiting
  obtain ⟨items, flag, hbefore⟩ := hsole.unbound (.inr (.inl hwaiting))
  rw [hrequest] at hbefore
  contradiction

theorem lossless_of_move
    (hsole : s.Sole) (hmove : Move s a t) : t.lost = [] := by
  cases hmove with
  | @placeSendClosed c item hlock hclosed =>
      rw [hsole.opened c] at hclosed
      contradiction
  | @placeDrainClosed c item rest hlock hclosed =>
      rw [hsole.opened c] at hclosed
      contradiction
  | _ => exact hsole.lossless

/-- A step keeps the consumer unbound until its task has run. -/
theorem unbound_of_move
    (hsole : s.Sole) (hmove : Move s a t)
    (hsingle : a = .getConsumer → s.consumers = 0)
    (hfree : t.consumers = 0 ∨ t.waiting 0 = true ∨ t.draining = some 0) :
    ∃ items hasEndOfStream,
      t.request = .notInitialized items hasEndOfStream := by
  have hunbound := hsole.unbound
  cases hmove with
  | getConsumer => exact hunbound (.inl (hsingle rfl))
  | sendBuffered item hlock hrequest => exact ⟨_, _, rfl⟩
  | sendStarted item hlock hrequest =>
      apply hunbound
      simpa [State.draining, hlock] using hfree
  | bindDrain c hlock hwaiting hrequest => exact ⟨_, _, rfl⟩
  | @bindReplace existing c hlock hwaiting hrequest =>
      exact absurd hrequest (hsole.not_initialized_of_waiting hwaiting _)
  | eofFlagged hlock hrequest => exact ⟨_, _, rfl⟩
  | eofTaken hlock hrequest =>
      obtain ⟨items, flag, hbefore⟩ := hunbound hfree
      rw [hrequest] at hbefore
      contradiction
  | placeSend hlock hopen hroom =>
      apply hunbound
      simpa [State.draining, hlock] using hfree
  | placeSendClosed hlock hclosed =>
      apply hunbound
      simpa [State.draining, hlock] using hfree
  | placeDrain hlock hopen hroom =>
      exact ⟨[], hsole.good.drainLock _ _ hlock⟩
  | placeDrainClosed hlock hclosed =>
      exact ⟨[], hsole.good.drainLock _ _ hlock⟩
  | drainEnded hlock hrequest => exact ⟨_, _, hrequest⟩
  | @drainBound c items hlock hrequest =>
      have hdraining := draining_of_drain hlock
      obtain ⟨hc, hreleased⟩ := hsole.good.bound c (.inl hdraining)
      have hzero := hsole.eq_zero hc
      subst c
      rcases hfree with hnone | hwaits | hdrains
      · exact absurd hnone (Nat.ne_of_gt hc)
      · exact absurd (hreleased.symm.trans hwaits) Bool.false_ne_true
      · contradiction
  | _ => exact hunbound hfree

/-- With one consumer, a recorded end stays: there is no second binding that
could undo it. -/
theorem marked_of_move
    (hsole : s.Sole) (hmove : Move s a t) (hmarked : s.Marked) :
    t.Marked := by
  cases hmove with
  | @sendBuffered items item hlock hrequest =>
      rcases hmarked with ⟨ended, hflagged⟩ | hnone <;> simp_all
  | sendStarted item hlock hrequest => exact hmarked
  | @bindDrain items hasEndOfStream c hlock hwaiting hrequest =>
      rcases hmarked with ⟨ended, hflagged⟩ | hnone
      · rw [hrequest] at hflagged
        injection hflagged with hitems hflag
        exact .inl ⟨[], by rw [hflag]⟩
      · exact absurd hnone (hsole.not_initialized_of_waiting hwaiting _)
  | bindReplace c hlock hwaiting hrequest =>
      exact absurd hrequest (hsole.not_initialized_of_waiting hwaiting _)
  | eofFlagged hlock hrequest => exact .inl ⟨_, rfl⟩
  | eofTaken hlock hrequest => exact .inr rfl
  | drainBound hlock hrequest =>
      rcases hmarked with ⟨ended, hflagged⟩ | hnone <;> simp_all
  | _ => exact hmarked

end State.Sole

theorem Move.sole
    {s t : State α} {a : Action α} (hmove : Move s a t)
    (hallowed : a.Sole s) (hsole : s.Sole) : t.Sole := by
  have hfirst : a = .getConsumer → s.consumers = 0 := by
    rintro rfl
    exact hallowed
  have hkeep : ∀ c, a ≠ .close c := by
    rintro c rfl
    exact hallowed
  refine ⟨hmove.wellFormed hsole.good, ?_,
    fun c => hmove.receiverAlive (hkeep c) (hsole.opened c),
    hsole.lossless_of_move hmove, hsole.unbound_of_move hmove hfirst⟩
  cases hmove with
  | getConsumer => exact (congrArg (· + 1) (hfirst rfl)).le
  | _ => exact hsole.single

/-- No task can act: nothing is left to bind, to place or to read. -/
def State.Settled (s : State α) : Prop :=
  ∀ task : Task, task.action.Sole s → step s task.action = none

namespace State.Sole

variable {s : State α}

section Settled

variable (hsole : s.Sole) (hsettled : s.Settled)

include hsole hsettled

theorem consumers_of_settled : s.consumers = 1 := by
  by_contra hne
  have hzero : s.consumers = 0 := by
    have hsingle := hsole.single
    omega
  have hnone := hsettled .getConsumer hzero
  simp [Task.action, step] at hnone

theorem recv_of_settled : (s.channel 0).recv = none := by
  have hnone := hsettled (.recv 0) trivial
  simpa [Task.action, step, State.recv,
    hsole.consumers_of_settled hsettled] using hnone

theorem queue_of_settled : (s.channel 0).queue = [] := by
  rcases Channel.recv_eq_none.mp (hsole.recv_of_settled hsettled) with
    hclosed | hfinished | ⟨hqueue, _⟩
  · rw [hsole.opened 0] at hclosed
    contradiction
  · exact (hsole.good.finished 0 hfinished).2
  · exact hqueue

theorem hasRoom_of_settled
    (hsize : 1 ≤ s.channelSize) {c : ConsumerId} (hc : c < s.consumers) :
    (s.channel c).HasRoom := by
  have hzero := hsole.eq_zero hc
  subst c
  unfold Channel.HasRoom
  rw [hsole.queue_of_settled hsettled, hsole.good.capacity 0]
  exact hsize

theorem lock_of_settled (hsize : 1 ≤ s.channelSize) : s.lock = none := by
  have hgood := hsole.good
  have hplace := hsettled .place trivial
  have hfinish := hsettled .finishDrain trivial
  simp only [Task.action, step] at hplace hfinish
  cases hlock : s.lock with
  | none => rfl
  | some awaiting =>
      cases awaiting with
      | send c item =>
          have hstored := hgood.sendLock c item hlock
          have hroom := hsole.hasRoom_of_settled hsettled hsize
            (hgood.bound c (.inr hstored)).1
          have hsent := Channel.send_of_room item (hsole.opened c) hroom
          simp [State.place, hlock, hsent] at hplace
      | drain c rest =>
          have hdraining := draining_of_drain hlock
          obtain ⟨flag, hrequest⟩ := hgood.drainLock c rest hlock
          cases rest with
          | nil =>
              cases flag <;>
                simp [State.finishDrain, hlock, hrequest] at hfinish
          | cons item rest =>
              have hroom := hsole.hasRoom_of_settled hsettled hsize
                (hgood.bound c (.inl hdraining)).1
              have hsent := Channel.send_of_room item (hsole.opened c) hroom
              simp [State.place, hlock, hsent] at hplace

theorem waiting_of_settled (hsize : 1 ≤ s.channelSize) :
    s.waiting 0 = false := by
  have hbind := hsettled (.setSender 0) trivial
  simpa [Task.action, step, hsole.lock_of_settled hsettled hsize] using hbind

end Settled

end State.Sole

namespace State.InOrder

variable {s t : State α}

theorem of_same
    (hin : s.InOrder)
    (hconsumers : t.consumers = s.consumers)
    (hplaced : (t.channel 0).placed = (s.channel 0).placed)
    (hbuffered : t.buffered = s.buffered)
    (haccepted : t.accepted = s.accepted)
    (hbound : 0 < s.consumers → t.waiting 0 = false →
      t.draining ≠ some 0 →
      t.stored = some 0 ∨ t.request = .notInitialized [] true ∨
        t.request = .initialized none) :
    t.InOrder where
  fresh hnone := by
    rw [hplaced]
    exact hin.fresh (hconsumers ▸ hnone)
  ordered := by
    rw [hplaced, hbuffered, haccepted]
    exact hin.ordered
  bound := by
    rw [hconsumers]
    exact hbound

/-- The only channel takes the next item and stays or becomes bound. -/
theorem of_placed
    {item : α} {rest : List α} (hroom : (s.channel 0).HasRoom)
    (hconsumers : t.consumers = s.consumers)
    (hmade : 0 < s.consumers)
    (hchannel : t.channel =
      Function.update s.channel 0 ((s.channel 0).push item hroom))
    (hbuffered : t.buffered = rest)
    (hordered : (s.channel 0).placed ++ item :: rest = t.accepted)
    (hbound : t.waiting 0 = false → t.draining ≠ some 0 →
      t.stored = some 0) :
    t.InOrder where
  fresh hnone := absurd (hconsumers ▸ hnone) (Nat.ne_of_gt hmade)
  ordered := by
    rw [hchannel, Function.update_self, Channel.push_placed,
      List.append_assoc, hbuffered]
    exact hordered
  bound _ hwaiting hdraining := .inl (hbound hwaiting hdraining)

end State.InOrder

theorem Move.inOrder
    {s t : State α} {a : Action α} (hmove : Move s a t)
    (hallowed : a.Sole s) (hsole : s.Sole) (hin : s.InOrder) :
    t.InOrder := by
  have hgood := hsole.good
  cases hmove with
  | getConsumer =>
      have hzero : s.consumers = 0 := hallowed
      have hplaced := hin.fresh hzero
      have hordered := hin.ordered
      rw [hplaced, List.nil_append] at hordered
      have hsame : s.getConsumer.buffered = s.buffered := rfl
      refine ⟨by simp [State.getConsumer], ?_, ?_⟩
      · rw [hsame]
        simpa [State.getConsumer, hzero] using hordered
      · simp [State.getConsumer, hzero]
  | @sendBuffered items item hlock hrequest =>
      have hidle := draining_of_unlocked hlock
      have hordered := hin.ordered
      rw [buffered_of_notInitialized hidle hrequest] at hordered
      have hafter : State.buffered { s with
          request := .notInitialized (items ++ [item]) false
          accepted := s.accepted ++ [item] } = items ++ [item] :=
        buffered_of_notInitialized hidle rfl
      refine ⟨hin.fresh, ?_, ?_⟩
      · rw [hafter, ← List.append_assoc, hordered]
      · intro hmade hwaiting _
        have hbound := hin.bound hmade hwaiting (by simp [hidle])
        simp [hrequest, State.stored] at hbound
  | sendRefused item hlock hrequest =>
      exact hin.of_same rfl rfl rfl rfl hin.bound
  | sendStarted item hlock hrequest =>
      have hidle := draining_of_unlocked hlock
      refine hin.of_same rfl rfl ?_ rfl ?_
      · rw [buffered_of_initialized hidle hrequest]
        exact buffered_of_initialized (draining_of_send rfl) hrequest
      · intro hmade hwaiting _
        exact hin.bound hmade hwaiting (by simp [hidle])
  | @bindDrain items hasEndOfStream c hlock hwaiting hrequest =>
      have hidle := draining_of_unlocked hlock
      have hzero := hsole.eq_zero_of_waiting hwaiting
      subst c
      refine hin.of_same rfl rfl ?_ rfl ?_
      · rw [buffered_of_notInitialized hidle hrequest]
        exact buffered_of_drain rfl
      · intro _ _ hdraining
        exact absurd (draining_of_drain rfl) hdraining
  | bindReplace c hlock hwaiting hrequest =>
      exact absurd hrequest (hsole.not_initialized_of_waiting hwaiting _)
  | @eofFlagged items hasEndOfStream hlock hrequest =>
      have hidle := draining_of_unlocked hlock
      refine hin.of_same rfl rfl ?_ rfl ?_
      · rw [buffered_of_notInitialized hidle hrequest]
        exact buffered_of_notInitialized hidle rfl
      · intro hmade hwaiting hdraining
        have hbound := hin.bound hmade hwaiting hdraining
        simp only [hrequest, State.stored, reduceCtorEq, or_false, false_or,
          RequestAsStream.notInitialized.injEq] at hbound
        exact .inr (.inl (by rw [hbound.1]))
  | eofTaken hlock hrequest =>
      have hidle := draining_of_unlocked hlock
      refine hin.of_same rfl (dropStored_placed ..) ?_ rfl ?_
      · rw [buffered_of_initialized hidle hrequest]
        exact buffered_of_initialized hidle rfl
      · exact fun _ _ _ => .inr (.inr rfl)
  | @placeSend c item hlock hopen hroom =>
      have hstored := hgood.sendLock c item hlock
      have hrequest := request_of_stored hstored
      have hmade := (hgood.bound c (.inr hstored)).1
      have hzero := hsole.eq_zero hmade
      subst c
      have hordered := hin.ordered
      rw [buffered_of_initialized (draining_of_send hlock) hrequest,
        List.append_nil] at hordered
      refine State.InOrder.of_placed hroom rfl hmade rfl
        (buffered_of_initialized (draining_of_unlocked rfl) hrequest) ?_
        (fun _ _ => hstored)
      rw [hordered]
  | @placeSendClosed c item hlock hclosed =>
      rw [hsole.opened c] at hclosed
      contradiction
  | @placeDrain c item rest hlock hopen hroom =>
      have hdraining := draining_of_drain hlock
      have hmade := (hgood.bound c (.inl hdraining)).1
      have hzero := hsole.eq_zero hmade
      subst c
      have hordered := hin.ordered
      rw [buffered_of_drain hlock] at hordered
      refine State.InOrder.of_placed hroom rfl hmade rfl
        (buffered_of_drain rfl) hordered ?_
      intro _ hreleased
      exact absurd (draining_of_drain rfl) hreleased
  | @placeDrainClosed c item rest hlock hclosed =>
      rw [hsole.opened c] at hclosed
      contradiction
  | @drainEnded c items hlock hrequest =>
      obtain ⟨hasEndOfStream, hempty⟩ := hgood.drainLock c [] hlock
      have hplaced : (Function.update s.channel c
          (s.channel c).dropSender 0).placed = (s.channel 0).placed := by
        by_cases heq : 0 = c
        · subst c
          simp
        · rw [Function.update_of_ne heq]
      refine hin.of_same rfl hplaced ?_ rfl ?_
      · rw [buffered_of_drain hlock]
        exact buffered_of_notInitialized (draining_of_unlocked rfl) hempty
      · intro _ _ _
        rw [hrequest] at hempty
        injection hempty with hitems _
        exact .inr (.inl (by rw [hrequest, hitems]))
  | @drainBound c items hlock hrequest =>
      have hzero := hsole.eq_zero_of_draining (draining_of_drain hlock)
      subst c
      refine hin.of_same rfl rfl ?_ rfl (fun _ _ _ => .inl rfl)
      rw [buffered_of_drain hlock]
      exact buffered_of_initialized (draining_of_unlocked rfl) rfl
  | recvItem c hc hopen hunfinished hqueue =>
      have hzero := hsole.eq_zero hc
      subst c
      refine hin.of_same rfl ?_ rfl rfl hin.bound
      simp
  | recvEnd c hc hopen hunfinished hqueue hsender =>
      have hzero := hsole.eq_zero hc
      subst c
      refine hin.of_same rfl ?_ rfl rfl hin.bound
      simp
  | close c hc => exact hallowed.elim

namespace State.InOrder

variable {s : State α}

theorem received_prefix (hin : s.InOrder) :
    (s.channel 0).received <+: s.accepted := by
  rw [← hin.ordered]
  exact (s.channel 0).received_prefix_placed.trans
    (List.prefix_append _ _)

theorem holdsSender
    (hin : s.InOrder) (hmade : 0 < s.consumers) (hunmarked : ¬ s.Marked) :
    s.HoldsSender 0 := by
  by_contra hdropped
  have hwaiting : s.waiting 0 = false := by
    by_contra hwaits
    exact hdropped (.inl (by simpa using hwaits))
  have hdraining : s.draining ≠ some 0 := fun h => hdropped (.inr (.inl h))
  rcases hin.bound hmade hwaiting hdraining with
    hstored | hflagged | hnone
  · exact hdropped (.inr (.inr hstored))
  · exact hunmarked (.inl ⟨[], hflagged⟩)
  · exact hunmarked (.inr hnone)

/-- When the tasks have settled, everything accepted has been received. -/
theorem received_of_settled
    (hin : s.InOrder) (hsole : s.Sole) (hsettled : s.Settled)
    (hsize : 1 ≤ s.channelSize) :
    (s.channel 0).received = s.accepted := by
  have hlock := hsole.lock_of_settled hsettled hsize
  have hidle := draining_of_unlocked hlock
  have hmade : 0 < s.consumers := by
    rw [hsole.consumers_of_settled hsettled]
    exact Nat.one_pos
  have hbuffered : s.buffered = [] := by
    rcases hin.bound hmade (hsole.waiting_of_settled hsettled hsize)
        (by simp [hidle]) with hstored | hflagged | hnone
    · exact buffered_of_initialized hidle (request_of_stored hstored)
    · exact buffered_of_notInitialized hidle hflagged
    · exact buffered_of_initialized hidle hnone
  have hordered := hin.ordered
  rwa [hbuffered, List.append_nil,
    Channel.placed_of_queue_nil (hsole.queue_of_settled hsettled)]
    at hordered

end State.InOrder

end StreamedRequest
end GrpcExtensions
