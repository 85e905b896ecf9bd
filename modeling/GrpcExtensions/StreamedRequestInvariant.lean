import GrpcExtensions.StreamedRequest
import Mathlib.Algebra.BigOperators.Group.Finset.Basic
import Mathlib.Algebra.Order.BigOperators.Group.Finset
import Mathlib.Data.Multiset.AddSub
import Mathlib.Algebra.Order.Group.Multiset
import Mathlib.Tactic

/-!
# Ownership and accounting of a streamed request

Two invariants of every run.  Ownership: a consumer's sender is alive exactly
as long as its waiting task, the running `set_sender` or the stored value
holds it.  Accounting: an accepted item is buffered, placed in one consumer's
channel or lost, and the buffer is the end of the accepted list.
-/

namespace GrpcExtensions
namespace StreamedRequest

universe u

variable {α : Type u}

/-- The consumer whose sender is stored behind the mutex. -/
def State.stored (s : State α) : Option ConsumerId :=
  match s.request with
  | .initialized sender => sender
  | .notInitialized _ _ => none

/-- The consumer whose sender the running `set_sender` owns. -/
def State.draining (s : State α) : Option ConsumerId :=
  match s.lock with
  | some (.drain c _) => some c
  | _ => none

/-- The end has been recorded by the flag of `NotInitialized`. -/
def State.Flagged (s : State α) : Prop :=
  ∃ items, s.request = .notInitialized items true

def State.HoldsSender (s : State α) (c : ConsumerId) : Prop :=
  s.waiting c = true ∨ s.draining = some c ∨ s.stored = some c

structure State.WellFormed (s : State α) : Prop where
  sendLock : ∀ c item, s.lock = some (.send c item) → s.stored = some c
  drainLock : ∀ c rest, s.lock = some (.drain c rest) →
    ∃ hasEndOfStream, s.request = .notInitialized [] hasEndOfStream
  bound : ∀ c, s.draining = some c ∨ s.stored = some c →
    c < s.consumers ∧ s.waiting c = false
  waiting : ∀ c, s.waiting c = true →
    c < s.consumers ∧ (s.channel c).placed = []
  sender_iff : ∀ c, c < s.consumers →
    ((s.channel c).senderAlive = true ↔ s.HoldsSender c)
  finished : ∀ c, (s.channel c).finished = true →
    (s.channel c).senderAlive = false ∧ (s.channel c).queue = []
  capacity : ∀ c, (s.channel c).capacity = s.channelSize

theorem newAsStream_wellFormed (α : Type u) (channelSize : ℕ) :
    (newAsStream α channelSize).WellFormed := by
  constructor <;>
    simp [newAsStream, State.stored, State.draining, State.HoldsSender]

/-- A reader is told of the end only after the sender is gone. -/
theorem State.WellFormed.unfinished
    {s : State α} (hgood : s.WellFormed) {c : ConsumerId}
    (hsender : (s.channel c).senderAlive = true) :
    (s.channel c).finished = false := by
  by_contra hfinished
  have hdropped := (hgood.finished c (by simpa using hfinished)).1
  rw [hsender] at hdropped
  contradiction

section Owners

variable {s t : State α}

theorem draining_of_unlocked (hlock : s.lock = none) : s.draining = none := by
  simp [State.draining, hlock]

theorem draining_of_drain
    {c : ConsumerId} {rest : List α} (hlock : s.lock = some (.drain c rest)) :
    s.draining = some c := by
  simp [State.draining, hlock]

theorem draining_of_send
    {c : ConsumerId} {item : α} (hlock : s.lock = some (.send c item)) :
    s.draining = none := by
  simp [State.draining, hlock]

theorem stored_of_notInitialized
    {items : List α} {hasEndOfStream : Bool}
    (hrequest : s.request = .notInitialized items hasEndOfStream) :
    s.stored = none := by
  simp [State.stored, hrequest]

theorem stored_of_initialized
    {sender : Option ConsumerId}
    (hrequest : s.request = .initialized sender) : s.stored = sender := by
  simp [State.stored, hrequest]

/-- The channel `next` of a consumer, where its sender has the same owner. -/
structure ChannelKept (s : State α) (c : ConsumerId) (next : Channel α) :
    Prop where
  senderAlive : next.senderAlive = (s.channel c).senderAlive
  capacity : next.capacity = (s.channel c).capacity
  placed : s.waiting c = true → next.placed = (s.channel c).placed
  finished : next.finished = true →
    next.senderAlive = false ∧ next.queue = []

theorem State.WellFormed.kept_self
    (hgood : s.WellFormed) (c : ConsumerId) :
    ChannelKept s c (s.channel c) :=
  ⟨rfl, rfl, fun _ => rfl, hgood.finished c⟩

theorem State.WellFormed.kept_update
    (hgood : s.WellFormed) {c : ConsumerId} {next : Channel α}
    (hnext : ChannelKept s c next) (d : ConsumerId) :
    ChannelKept s d (Function.update s.channel c next d) := by
  by_cases heq : d = c
  · subst heq
    rw [Function.update_self]
    exact hnext
  · rw [Function.update_of_ne heq]
    exact hgood.kept_self d

/-- Only the channel of a sender that is stored or drains is written to. -/
theorem State.WellFormed.kept_push
    (hgood : s.WellFormed) {c : ConsumerId}
    (hheld : s.draining = some c ∨ s.stored = some c)
    (item : α) (hroom : (s.channel c).HasRoom) :
    ChannelKept s c ((s.channel c).push item hroom) := by
  obtain ⟨hlt, hwaiting⟩ := hgood.bound c hheld
  have halive : (s.channel c).senderAlive = true :=
    (hgood.sender_iff c hlt).mpr (.inr hheld)
  refine ⟨rfl, rfl, fun htask => ?_, fun hfinished => ?_⟩
  · rw [hwaiting] at htask
    cases htask
  · have hdead := (hgood.finished c hfinished).1
    rw [halive] at hdead
    cases hdead

theorem State.WellFormed.waiting_ne_stored
    (hgood : s.WellFormed) {sender : Option ConsumerId}
    (hstored : s.stored = sender) (d : ConsumerId)
    (hwaiting : s.waiting d = true) : sender ≠ some d := by
  rintro rfl
  have hidle := (hgood.bound d (.inr hstored)).2
  rw [hwaiting] at hidle
  cases hidle

theorem waiting_of_update
    {c d : ConsumerId}
    (hwaiting : Function.update s.waiting c false d = true) :
    d ≠ c ∧ s.waiting d = true := by
  by_cases heq : d = c
  · subst heq
    simp at hwaiting
  · rw [Function.update_of_ne heq] at hwaiting
    exact ⟨heq, hwaiting⟩

/-- A move after which everybody owns the senders they owned before. -/
theorem State.WellFormed.of_sameOwners
    (hgood : s.WellFormed)
    (hsize : t.channelSize = s.channelSize)
    (hconsumers : t.consumers = s.consumers)
    (hwaiting : t.waiting = s.waiting)
    (hstored : t.stored = s.stored)
    (hdraining : t.draining = s.draining)
    (hsendLock : ∀ c item, t.lock = some (.send c item) →
      t.stored = some c)
    (hdrainLock : ∀ c rest, t.lock = some (.drain c rest) →
      ∃ hasEndOfStream, t.request = .notInitialized [] hasEndOfStream)
    (hkept : ∀ c, ChannelKept s c (t.channel c)) :
    t.WellFormed where
  sendLock := hsendLock
  drainLock := hdrainLock
  bound c hc := by
    rw [hconsumers, hwaiting]
    rw [hdraining, hstored] at hc
    exact hgood.bound c hc
  waiting c hc := by
    rw [hwaiting] at hc
    rw [hconsumers, (hkept c).placed hc]
    exact hgood.waiting c hc
  sender_iff c hc := by
    rw [hconsumers] at hc
    rw [(hkept c).senderAlive, hgood.sender_iff c hc]
    simp only [State.HoldsSender, hwaiting, hdraining, hstored]
  finished c := (hkept c).finished
  capacity c := by
    rw [(hkept c).capacity, hsize]
    exact hgood.capacity c

/-- A move in which a sender may change its owner and `dropped` loses it. -/
theorem State.WellFormed.of_released
    (hgood : s.WellFormed) (dropped : Option ConsumerId)
    (hsize : t.channelSize = s.channelSize)
    (hconsumers : t.consumers = s.consumers)
    (hchannel : t.channel = dropStored s.channel dropped)
    (hsendLock : ∀ c item, t.lock ≠ some (.send c item))
    (hdrainLock : ∀ c rest, t.lock = some (.drain c rest) →
      ∃ hasEndOfStream, t.request = .notInitialized [] hasEndOfStream)
    (hbound : ∀ c, t.draining = some c ∨ t.stored = some c →
      c < s.consumers ∧ t.waiting c = false)
    (hwaiting : ∀ c, t.waiting c = true → s.waiting c = true)
    (hholds : ∀ c, t.HoldsSender c ↔ s.HoldsSender c ∧ dropped ≠ some c) :
    t.WellFormed where
  sendLock c item hlock := absurd hlock (hsendLock c item)
  drainLock := hdrainLock
  bound c hc := by
    rw [hconsumers]
    exact hbound c hc
  waiting c hc := by
    rw [hconsumers, hchannel, dropStored_placed]
    exact hgood.waiting c (hwaiting c hc)
  sender_iff c hc := by
    rw [hconsumers] at hc
    rw [hholds c, ← hgood.sender_iff c hc, hchannel, dropStored_senderAlive]
  finished c hc := by
    rw [hchannel, dropStored_finished] at hc
    obtain ⟨hdead, hqueue⟩ := hgood.finished c hc
    rw [hchannel, dropStored_queue, ← Bool.not_eq_true,
      dropStored_senderAlive]
    exact ⟨by simp [hdead], hqueue⟩
  capacity c := by
    rw [hchannel, dropStored_capacity, hsize]
    exact hgood.capacity c

end Owners

/-- The new consumer's task owns the new sender. -/
theorem getConsumer_wellFormed
    {s : State α} (hgood : s.WellFormed) : s.getConsumer.WellFormed := by
  have hnew : ¬ (s.draining = some s.consumers ∨
      s.stored = some s.consumers) := by
    intro hheld
    exact Nat.lt_irrefl _ (hgood.bound s.consumers hheld).1
  constructor
  · exact hgood.sendLock
  · exact hgood.drainLock
  · intro c hc
    obtain ⟨hlt, hwaiting⟩ := hgood.bound c hc
    refine ⟨Nat.lt_succ_of_lt hlt, ?_⟩
    simpa [State.getConsumer, Function.update_of_ne hlt.ne] using hwaiting
  · intro c hc
    by_cases heq : c = s.consumers
    · subst heq
      exact ⟨Nat.lt_succ_self _, by simp [State.getConsumer]⟩
    · have hold : s.waiting c = true := by
        simpa [State.getConsumer, Function.update_of_ne heq] using hc
      obtain ⟨hlt, hplaced⟩ := hgood.waiting c hold
      refine ⟨Nat.lt_succ_of_lt hlt, ?_⟩
      simpa [State.getConsumer, Function.update_of_ne heq] using hplaced
  · intro c hc
    by_cases heq : c = s.consumers
    · subst heq
      simp [State.getConsumer, State.HoldsSender]
    · have hlt : c < s.consumers :=
        lt_of_le_of_ne (Nat.le_of_lt_succ hc) heq
      have hsender := hgood.sender_iff c hlt
      simpa [State.getConsumer, State.HoldsSender, State.stored,
        State.draining, Function.update_of_ne heq] using hsender
  · intro c hc
    by_cases heq : c = s.consumers
    · subst heq
      simp [State.getConsumer] at hc
    · have hold : (s.channel c).finished = true := by
        simpa [State.getConsumer, Function.update_of_ne heq] using hc
      simpa [State.getConsumer, Function.update_of_ne heq] using
        hgood.finished c hold
  · intro c
    by_cases heq : c = s.consumers
    · subst heq
      simp [State.getConsumer]
    · simpa [State.getConsumer, Function.update_of_ne heq] using
        hgood.capacity c

/-- `set_sender` takes its sender over from the waiting task. -/
theorem bindDrain_wellFormed
    {s : State α} (hgood : s.WellFormed)
    {items : List α} {hasEndOfStream : Bool} {c : ConsumerId}
    (hlock : s.lock = none) (hwaiting : s.waiting c = true)
    (hrequest : s.request = .notInitialized items hasEndOfStream) :
    State.WellFormed { s with
      request := .notInitialized [] hasEndOfStream
      lock := some (.drain c items)
      waiting := Function.update s.waiting c false } := by
  have hstored := stored_of_notInitialized hrequest
  have hdraining := draining_of_unlocked hlock
  refine hgood.of_released none rfl rfl rfl (by simp)
    (fun _ _ _ => ⟨hasEndOfStream, rfl⟩) ?_ ?_ ?_
  · rintro d (hd | hd)
    · cases hd
      exact ⟨(hgood.waiting c hwaiting).1, Function.update_self ..⟩
    · cases hd
  · intro d hd
    exact (waiting_of_update hd).2
  · intro d
    by_cases heq : d = c
    · subst heq
      simp [State.HoldsSender, State.draining, hwaiting]
    · simp [State.HoldsSender, State.draining, State.stored, hlock, hrequest,
        Function.update_of_ne heq, Ne.symm heq]

/-- The new sender is stored and the stored one is dropped. -/
theorem bindReplace_wellFormed
    {s : State α} (hgood : s.WellFormed)
    {existing : Option ConsumerId} {c : ConsumerId}
    (hlock : s.lock = none) (hwaiting : s.waiting c = true)
    (hrequest : s.request = .initialized existing) :
    State.WellFormed { s with
      request := .initialized (some c)
      channel := dropStored s.channel existing
      waiting := Function.update s.waiting c false } := by
  have hstored := stored_of_initialized hrequest
  have hdraining := draining_of_unlocked hlock
  have hidle := hgood.waiting_ne_stored hstored
  refine hgood.of_released existing rfl rfl rfl (by simp [hlock])
    (by simp [hlock]) ?_ ?_ ?_
  · rintro d (hd | hd)
    · have hsame : s.draining = some d := hd
      rw [hdraining] at hsame
      cases hsame
    · cases hd
      exact ⟨(hgood.waiting c hwaiting).1, Function.update_self ..⟩
  · intro d hd
    exact (waiting_of_update hd).2
  · intro d
    by_cases heq : d = c
    · subst heq
      simp [State.HoldsSender, State.stored, hwaiting, hidle]
    · have hs : s.HoldsSender d ↔
          s.waiting d = true ∨ existing = some d := by
        simp [State.HoldsSender, hdraining, hstored]
      have hother := hidle d
      simp only [State.HoldsSender, State.draining, State.stored, hlock,
        Function.update_of_ne heq, Option.some.injEq, Ne.symm heq, or_false,
        reduceCtorEq] at hs ⊢
      rw [hs]
      tauto

/-- A sender leaves the mutex's owner for the stored value or is dropped. -/
theorem drained_wellFormed
    {s t : State α} (hgood : s.WellFormed)
    {c : ConsumerId} {rest : List α} (dropped : Option ConsumerId)
    (hlock : s.lock = some (.drain c rest))
    (hsize : t.channelSize = s.channelSize)
    (hconsumers : t.consumers = s.consumers)
    (hwaiting : t.waiting = s.waiting)
    (hfree : t.lock = none)
    (hchannel : t.channel = dropStored s.channel dropped)
    (hstored : t.stored = if dropped = some c then none else some c)
    (hdropped : dropped = none ∨ dropped = some c) :
    t.WellFormed := by
  have hbefore := draining_of_drain hlock
  have hafter := draining_of_unlocked hfree
  obtain ⟨hasEndOfStream, hrequest⟩ := hgood.drainLock c rest hlock
  have hnone := stored_of_notInitialized hrequest
  have hbound := hgood.bound c (.inl hbefore)
  refine hgood.of_released dropped hsize hconsumers hchannel
    (by simp [hfree]) (by simp [hfree]) ?_ ?_ ?_
  · rintro d (hd | hd)
    · rw [hafter] at hd
      cases hd
    · rw [hstored] at hd
      split at hd
      · cases hd
      · cases hd
        rwa [hwaiting]
  · intro d hd
    rwa [hwaiting] at hd
  · intro d
    simp only [State.HoldsSender, hwaiting, hbefore, hafter, hnone, hstored]
    rcases hdropped with rfl | rfl
    · simp
    · by_cases heq : d = c
      · subst heq
        simp [hbound.2]
      · simp [Ne.symm heq]

/-- Each step keeps track of who owns which sender. -/
theorem Move.wellFormed
    {s t : State α} {a : Action α} (hmove : Move s a t)
    (hgood : s.WellFormed) : t.WellFormed := by
  cases hmove with
  | getConsumer => exact getConsumer_wellFormed hgood
  | sendBuffered item hlock hrequest =>
      exact hgood.of_sameOwners rfl rfl rfl
        (stored_of_notInitialized hrequest).symm rfl (by simp [hlock])
        (by simp [hlock]) hgood.kept_self
  | sendRefused item hlock hrequest =>
      exact hgood.of_sameOwners rfl rfl rfl rfl rfl hgood.sendLock
        hgood.drainLock hgood.kept_self
  | @sendStarted c item hlock hrequest =>
      have hstored := stored_of_initialized hrequest
      refine hgood.of_sameOwners rfl rfl rfl rfl
        (draining_of_unlocked hlock).symm ?_ (by simp) hgood.kept_self
      intro d other hsend
      cases hsend
      exact hstored
  | bindDrain c hlock hwaiting hrequest =>
      exact bindDrain_wellFormed hgood hlock hwaiting hrequest
  | bindReplace c hlock hwaiting hrequest =>
      exact bindReplace_wellFormed hgood hlock hwaiting hrequest
  | eofFlagged hlock hrequest =>
      exact hgood.of_sameOwners rfl rfl rfl
        (stored_of_notInitialized hrequest).symm rfl (by simp [hlock])
        (by simp [hlock]) hgood.kept_self
  | @eofTaken sender hlock hrequest =>
      have hstored := stored_of_initialized hrequest
      have hdraining := draining_of_unlocked hlock
      refine hgood.of_released sender rfl rfl rfl (by simp [hlock])
        (by simp [hlock]) ?_ (fun _ hd => hd) ?_
      · rintro d (hd | hd)
        · exact hgood.bound d (.inl hd)
        · cases hd
      · intro d
        have hs : s.HoldsSender d ↔
            s.waiting d = true ∨ sender = some d := by
          simp [State.HoldsSender, hdraining, hstored]
        have hidle := hgood.waiting_ne_stored hstored d
        simp only [State.HoldsSender, State.draining, State.stored, hlock,
          or_false, reduceCtorEq] at hs ⊢
        rw [hs]
        tauto
  | @placeSend c item hlock hopen hroom =>
      have hstored := hgood.sendLock c item hlock
      exact hgood.of_sameOwners rfl rfl rfl rfl
        (draining_of_send hlock).symm (by simp) (by simp)
        (hgood.kept_update (hgood.kept_push (.inr hstored) item hroom))
  | placeSendClosed hlock hclosed =>
      exact hgood.of_sameOwners rfl rfl rfl rfl
        (draining_of_send hlock).symm (by simp) (by simp) hgood.kept_self
  | @placeDrain c item rest hlock hopen hroom =>
      have hdraining := draining_of_drain hlock
      exact hgood.of_sameOwners rfl rfl rfl rfl hdraining.symm (by simp)
        (fun _ _ _ => hgood.drainLock c (item :: rest) hlock)
        (hgood.kept_update (hgood.kept_push (.inl hdraining) item hroom))
  | @placeDrainClosed c item rest hlock hclosed =>
      obtain ⟨hasEndOfStream, hrequest⟩ :=
        hgood.drainLock c (item :: rest) hlock
      exact drained_wellFormed hgood (some c) hlock rfl rfl rfl rfl rfl
        ((stored_of_notInitialized hrequest).trans (if_pos rfl).symm)
        (.inr rfl)
  | @drainEnded c items hlock hrequest =>
      exact drained_wellFormed hgood (some c) hlock rfl rfl rfl rfl rfl
        ((stored_of_notInitialized hrequest).trans (if_pos rfl).symm)
        (.inr rfl)
  | @drainBound c items hlock hrequest =>
      exact drained_wellFormed hgood none hlock rfl rfl rfl rfl rfl rfl
        (.inl rfl)
  | recvItem c hc hopen hunfinished hqueue =>
      have hkept : ChannelKept s c (s.channel c).pop :=
        ⟨rfl, rfl, fun _ => Channel.pop_placed _, by simp [hunfinished]⟩
      exact hgood.of_sameOwners rfl rfl rfl rfl rfl hgood.sendLock
        hgood.drainLock (hgood.kept_update hkept)
  | recvEnd c hc hopen hunfinished hqueue hsenderDead =>
      have hkept : ChannelKept s c (s.channel c).finish :=
        ⟨rfl, rfl, fun _ => rfl, fun _ => ⟨hsenderDead, hqueue⟩⟩
      exact hgood.of_sameOwners rfl rfl rfl rfl rfl hgood.sendLock
        hgood.drainLock (hgood.kept_update hkept)
  | close c hc =>
      have hkept : ChannelKept s c (s.channel c).close :=
        ⟨rfl, rfl, fun _ => rfl, hgood.finished c⟩
      exact hgood.of_sameOwners rfl rfl rfl rfl rfl hgood.sendLock
        hgood.drainLock (hgood.kept_update hkept)

theorem exec_wellFormed
    {channelSize : ℕ} {acts : List (Action α)} {s : State α}
    (hrun : TransitionSystem.exec step (newAsStream α channelSize) acts =
      some s) :
    s.WellFormed :=
  TransitionSystem.exec_invariant
    (fun _ _ _ hgood hstep => (move_of_step hstep).wellFormed hgood)
    (newAsStream_wellFormed α channelSize) hrun

/-- Accepted items that no channel has received yet: the vector of
`NotInitialized`, or what the running drain has still to send. -/
def State.buffered (s : State α) : List α :=
  match s.lock with
  | some (.drain _ rest) => rest
  | _ =>
      match s.request with
      | .notInitialized items _ => items
      | .initialized _ => []

/-- All items that were ever placed in some consumer's channel. -/
def State.placed (s : State α) : Multiset α :=
  ∑ c ∈ Finset.range s.consumers, ((s.channel c).placed : Multiset α)

structure State.Accounted (s : State α) : Prop where
  total : (s.accepted : Multiset α) =
    (s.buffered : Multiset α) + s.placed + (s.lost : Multiset α)
  suffix : s.buffered <:+ s.accepted

/-- Changing one channel changes the placed items by that channel's share. -/
theorem placed_update
    (channel : ConsumerId → Channel α) (consumers : ℕ) {c : ConsumerId}
    (hc : c < consumers) (next : Channel α) :
    (∑ d ∈ Finset.range consumers,
        ((Function.update channel c next d).placed : Multiset α)) +
        ((channel c).placed : Multiset α) =
      (∑ d ∈ Finset.range consumers, ((channel d).placed : Multiset α)) +
        (next.placed : Multiset α) := by
  have hmem : c ∈ Finset.range consumers := Finset.mem_range.mpr hc
  have hrest :
      (∑ d ∈ (Finset.range consumers).erase c,
          ((Function.update channel c next d).placed : Multiset α)) =
        ∑ d ∈ (Finset.range consumers).erase c,
          ((channel d).placed : Multiset α) := by
    apply Finset.sum_congr rfl
    intro d hd
    rw [Function.update_of_ne (Finset.ne_of_mem_erase hd)]
  rw [← Finset.sum_erase_add _ _ hmem, hrest, Function.update_self,
    ← Finset.sum_erase_add (Finset.range consumers)
      (fun d => ((channel d).placed : Multiset α)) hmem]
  abel

theorem placed_update_of_eq
    (channel : ConsumerId → Channel α) (consumers : ℕ) (c : ConsumerId)
    {next : Channel α} (hnext : next.placed = (channel c).placed) :
    (∑ d ∈ Finset.range consumers,
        ((Function.update channel c next d).placed : Multiset α)) =
      ∑ d ∈ Finset.range consumers, ((channel d).placed : Multiset α) := by
  apply Finset.sum_congr rfl
  intro d _
  by_cases heq : d = c
  · subst d
    rw [Function.update_self, hnext]
  · rw [Function.update_of_ne heq]

theorem placed_dropStored
    (channel : ConsumerId → Channel α) (consumers : ℕ)
    (sender : Option ConsumerId) :
    (∑ d ∈ Finset.range consumers,
        ((dropStored channel sender d).placed : Multiset α)) =
      ∑ d ∈ Finset.range consumers, ((channel d).placed : Multiset α) := by
  simp

theorem placed_push
    (channel : ConsumerId → Channel α) (consumers : ℕ) {c : ConsumerId}
    (hc : c < consumers) (item : α) (hroom : (channel c).HasRoom) :
    (∑ d ∈ Finset.range consumers,
        ((Function.update channel c ((channel c).push item hroom)
          d).placed : Multiset α)) =
      (∑ d ∈ Finset.range consumers, ((channel d).placed : Multiset α)) +
        {item} := by
  have hupdate := placed_update channel consumers hc
    ((channel c).push item hroom)
  rw [Channel.push_placed, ← Multiset.coe_add, Multiset.coe_singleton,
    ← add_assoc] at hupdate
  have hcomm := hupdate.trans (by abel :
    _ = ((∑ d ∈ Finset.range consumers,
        ((channel d).placed : Multiset α)) + {item}) +
      ((channel c).placed : Multiset α))
  exact add_right_cancel hcomm

theorem placed_getConsumer (s : State α) : s.getConsumer.placed = s.placed := by
  unfold State.placed State.getConsumer
  dsimp only
  rw [Finset.sum_range_succ, Function.update_self, Channel.new_placed,
    Multiset.coe_nil, add_zero]
  apply Finset.sum_congr rfl
  intro c hc
  have hne : c ≠ s.consumers := (Finset.mem_range.mp hc).ne
  rw [Function.update_of_ne hne]

section Accounts

variable {s t : State α}

theorem request_of_stored
    {c : ConsumerId} (hstored : s.stored = some c) :
    s.request = .initialized (some c) := by
  cases hrequest : s.request with
  | notInitialized items hasEndOfStream =>
      rw [stored_of_notInitialized hrequest] at hstored
      cases hstored
  | initialized sender =>
      rw [stored_of_initialized hrequest] at hstored
      rw [hstored]

theorem buffered_of_drain
    {c : ConsumerId} {rest : List α} (hlock : s.lock = some (.drain c rest)) :
    s.buffered = rest := by
  simp [State.buffered, hlock]

theorem buffered_of_notInitialized
    {items : List α} {hasEndOfStream : Bool} (hdraining : s.draining = none)
    (hrequest : s.request = .notInitialized items hasEndOfStream) :
    s.buffered = items := by
  unfold State.buffered
  split
  next c rest hlock =>
    rw [draining_of_drain hlock] at hdraining
    cases hdraining
  next => simp [hrequest]

theorem buffered_of_initialized
    {sender : Option ConsumerId} (hdraining : s.draining = none)
    (hrequest : s.request = .initialized sender) : s.buffered = [] := by
  unfold State.buffered
  split
  next c rest hlock =>
    rw [draining_of_drain hlock] at hdraining
    cases hdraining
  next => simp [hrequest]

/-- A move that only passes things on between the tasks. -/
theorem State.Accounted.of_same
    (hacc : s.Accounted) (haccepted : t.accepted = s.accepted)
    (hbuffered : t.buffered = s.buffered) (hplaced : t.placed = s.placed)
    (hlost : t.lost = s.lost) : t.Accounted := by
  constructor
  · rw [haccepted, hbuffered, hplaced, hlost]
    exact hacc.total
  · rw [haccepted, hbuffered]
    exact hacc.suffix

/-- The item of a `send` is accepted once it has a place, in the channel or
among the lost items. -/
theorem State.Accounted.of_sent
    (hacc : s.Accounted) {item : α}
    (haccepted : t.accepted = s.accepted ++ [item])
    (hbefore : s.buffered = []) (hafter : t.buffered = [])
    (hmoved : t.placed + (t.lost : Multiset α) =
      s.placed + (s.lost : Multiset α) + {item}) : t.Accounted := by
  have htotal := hacc.total
  rw [hbefore, Multiset.coe_nil, zero_add] at htotal
  constructor
  · rw [haccepted, hafter, Multiset.coe_nil, zero_add, hmoved, ← htotal,
      ← Multiset.coe_add, Multiset.coe_singleton]
  · rw [hafter]
    exact List.nil_suffix

/-- Items of the drain get a place, the others stay. -/
theorem State.Accounted.of_drained
    (hacc : s.Accounted) (gone rest : List α)
    (haccepted : t.accepted = s.accepted)
    (hbefore : s.buffered = gone ++ rest) (hafter : t.buffered = rest)
    (hmoved : t.placed + (t.lost : Multiset α) =
      s.placed + (s.lost : Multiset α) + (gone : Multiset α)) :
    t.Accounted := by
  have htotal := hacc.total
  have hsuffix := hacc.suffix
  rw [hbefore] at htotal hsuffix
  constructor
  · rw [haccepted, hafter, htotal, add_assoc (rest : Multiset α), hmoved,
      ← Multiset.coe_add]
    abel
  · rw [haccepted, hafter]
    exact (List.suffix_append gone rest).trans hsuffix

end Accounts

/-- Each step moves items between the buffer, the channels and the lost
items, and accepts at the end. -/
theorem Move.accounted
    {s t : State α} {a : Action α} (hmove : Move s a t)
    (hgood : s.WellFormed) (hacc : s.Accounted) : t.Accounted := by
  cases hmove with
  | getConsumer => exact hacc.of_same rfl rfl (placed_getConsumer s) rfl
  | @sendBuffered items item hlock hrequest =>
      have hidle := draining_of_unlocked hlock
      have hbefore := buffered_of_notInitialized hidle hrequest
      have htotal := hacc.total
      have hsuffix := hacc.suffix
      rw [hbefore] at htotal hsuffix
      constructor
      · simp only [State.buffered, hlock, ← Multiset.coe_add, htotal,
          State.placed]
        abel
      · simp only [State.buffered, hlock]
        exact (List.suffix_append_self_iff).mpr hsuffix
  | sendRefused item hlock hrequest => exact hacc.of_same rfl rfl rfl rfl
  | sendStarted item hlock hrequest =>
      have hidle := draining_of_unlocked hlock
      refine hacc.of_same rfl ?_ rfl rfl
      rw [buffered_of_initialized hidle hrequest]
      exact buffered_of_initialized (draining_of_send rfl) hrequest
  | bindDrain c hlock hwaiting hrequest =>
      have hidle := draining_of_unlocked hlock
      have hbefore := buffered_of_notInitialized hidle hrequest
      exact hacc.of_same rfl hbefore.symm rfl rfl
  | bindReplace c hlock hwaiting hrequest =>
      have hidle := draining_of_unlocked hlock
      refine hacc.of_same rfl ?_
        (placed_dropStored s.channel s.consumers _) rfl
      rw [buffered_of_initialized hidle hrequest]
      exact buffered_of_initialized hidle rfl
  | eofFlagged hlock hrequest =>
      have hidle := draining_of_unlocked hlock
      refine hacc.of_same rfl ?_ rfl rfl
      rw [buffered_of_notInitialized hidle hrequest]
      exact buffered_of_notInitialized hidle rfl
  | eofTaken hlock hrequest =>
      have hidle := draining_of_unlocked hlock
      refine hacc.of_same rfl ?_
        (placed_dropStored s.channel s.consumers _) rfl
      rw [buffered_of_initialized hidle hrequest]
      exact buffered_of_initialized hidle rfl
  | @placeSend c item hlock hopen hroom =>
      have hstored := hgood.sendLock c item hlock
      have hc : c < s.consumers := (hgood.bound c (.inr hstored)).1
      have hrequest := request_of_stored hstored
      have hbefore :=
        buffered_of_initialized (draining_of_send hlock) hrequest
      refine hacc.of_sent rfl hbefore
        (buffered_of_initialized (draining_of_unlocked rfl) hrequest) ?_
      simp only [State.placed,
        placed_push s.channel s.consumers hc item hroom]
      abel
  | @placeSendClosed c item hlock hclosed =>
      have hrequest := request_of_stored (hgood.sendLock c item hlock)
      have hbefore :=
        buffered_of_initialized (draining_of_send hlock) hrequest
      refine hacc.of_sent rfl hbefore
        (buffered_of_initialized (draining_of_unlocked rfl) hrequest) ?_
      rw [← Multiset.coe_add, Multiset.coe_singleton, ← add_assoc]
      rfl
  | @placeDrain c item rest hlock hopen hroom =>
      have hdraining := draining_of_drain hlock
      have hc : c < s.consumers := (hgood.bound c (.inl hdraining)).1
      refine hacc.of_drained [item] rest rfl (buffered_of_drain hlock) rfl ?_
      simp only [State.placed,
        placed_push s.channel s.consumers hc item hroom,
        Multiset.coe_singleton]
      abel
  | @placeDrainClosed c item rest hlock hclosed =>
      obtain ⟨hasEndOfStream, hrequest⟩ :=
        hgood.drainLock c (item :: rest) hlock
      have hplaced := placed_update_of_eq s.channel s.consumers c
        (Channel.dropSender_placed (s.channel c))
      refine hacc.of_drained (item :: rest) [] rfl ?_
        (buffered_of_notInitialized (draining_of_unlocked rfl) hrequest) ?_
      · rw [List.append_nil]
        exact buffered_of_drain hlock
      · simp only [State.placed, hplaced, ← Multiset.coe_add]
        abel
  | @drainEnded c items hlock hrequest =>
      obtain ⟨hasEndOfStream, hempty⟩ := hgood.drainLock c [] hlock
      refine hacc.of_same rfl ?_
        (placed_update_of_eq s.channel s.consumers c
          (Channel.dropSender_placed (s.channel c))) rfl
      rw [buffered_of_drain hlock]
      exact buffered_of_notInitialized (draining_of_unlocked rfl) hempty
  | drainBound hlock hrequest =>
      refine hacc.of_same rfl ?_ rfl rfl
      rw [buffered_of_drain hlock]
      exact buffered_of_initialized (draining_of_unlocked rfl) rfl
  | recvItem c hc hopen hunfinished hqueue =>
      exact hacc.of_same rfl rfl (placed_update_of_eq s.channel s.consumers c
        (Channel.pop_placed (s.channel c))) rfl
  | recvEnd c hc hopen hunfinished hqueue hsender =>
      exact hacc.of_same rfl rfl (placed_update_of_eq s.channel s.consumers c
        (Channel.finish_placed (s.channel c))) rfl
  | close c hc =>
      exact hacc.of_same rfl rfl (placed_update_of_eq s.channel s.consumers c
        (Channel.close_placed (s.channel c))) rfl

theorem newAsStream_accounted (α : Type u) (channelSize : ℕ) :
    (newAsStream α channelSize).Accounted := by
  constructor <;> simp [newAsStream, State.buffered, State.placed]

theorem exec_accounted
    {channelSize : ℕ} {acts : List (Action α)} {s : State α}
    (hrun : TransitionSystem.exec step (newAsStream α channelSize) acts =
      some s) :
    s.Accounted := by
  have hboth : s.WellFormed ∧ s.Accounted :=
    TransitionSystem.exec_invariant
      (I := fun s : State α => s.WellFormed ∧ s.Accounted)
      (fun _ _ _ hs hstep =>
        ⟨(move_of_step hstep).wellFormed hs.1,
          (move_of_step hstep).accounted hs.1 hs.2⟩)
      ⟨newAsStream_wellFormed α channelSize,
        newAsStream_accounted α channelSize⟩ hrun
  exact hboth.2

end StreamedRequest
end GrpcExtensions
