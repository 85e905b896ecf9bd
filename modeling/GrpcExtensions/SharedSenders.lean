import GrpcExtensions.BoundedChannel
import Mathlib.Logic.Function.Basic

/-!
# A channel whose sender is shared

Several holders share the sender of one bounded channel: a holder can make
another one, and each lets go of its share on its own.  The sender is gone
with the last of them, and only then does the reader learn that the stream is
over.
-/

universe u

namespace SharedSenders

variable {β : Type u}

/-- The holders are numbered in the order in which they were made, and
`accepted` records the sends that found room, with their holders. -/
structure State (β : Type u) where
  channel : Channel β
  made : ℕ
  holds : ℕ → Bool
  accepted : List (ℕ × β)

/-- The channel with the holder that has made it. -/
def State.new (β : Type u) (capacity : ℕ) : State β where
  channel := Channel.new β capacity
  made := 1
  holds := fun holder => holder == 0
  accepted := []

namespace State

variable (s : State β)

def share : State β :=
  { s with made := s.made + 1, holds := Function.update s.holds s.made true }

def accept (holder : ℕ) (item : β) (channel : Channel β) : State β :=
  { s with channel := channel, accepted := s.accepted ++ [(holder, item)] }

/-- The holders that are left when one of them lets go. -/
def holdsWithout (holder : ℕ) : ℕ → Bool :=
  Function.update s.holds holder false

def leave (holder : ℕ) : State β :=
  { s with
    holds := s.holdsWithout holder
    channel :=
      if ∃ other < s.made, s.holdsWithout holder other = true then s.channel
      else s.channel.dropSender }

def read (channel : Channel β) : State β :=
  { s with channel := channel }

def close : State β :=
  { s with channel := s.channel.close }

/-- What has been sent, in the order of the queue. -/
def sent : List β :=
  s.accepted.map Prod.snd

end State

inductive Action (β : Type u) where
  | share (holder : ℕ)
  | send (holder : ℕ) (item : β)
  | leave (holder : ℕ)
  | recv
  | close

def step (s : State β) : Action β → Option (State β)
  | .share holder => if s.holds holder then some s.share else none
  | .send holder item =>
      if s.holds holder then
        match s.channel.send item with
        | .sent channel => some (s.accept holder item channel)
        | _ => none
      else none
  | .leave holder => if s.holds holder then some (s.leave holder) else none
  | .recv => s.channel.recv.map s.read
  | .close => some s.close

structure State.WellFormed (s : State β) : Prop where
  made : ∀ holder, s.holds holder = true → holder < s.made
  held : s.channel.senderAlive = true ↔ ∃ holder, s.holds holder = true
  placed : s.channel.placed = s.sent
  finished : s.channel.finished = true →
    s.channel.senderAlive = false ∧ s.channel.queue = []

theorem new_wellFormed (capacity : ℕ) : (State.new β capacity).WellFormed := by
  constructor
  · intro holder hholds
    have heq : holder = 0 := by simpa [State.new] using hholds
    rw [heq]
    exact Nat.one_pos
  · exact iff_of_true rfl ⟨0, rfl⟩
  · rfl
  · intro hfinished
    exact absurd hfinished Bool.false_ne_true

section Steps

variable {s : State β}

theorem share_wellFormed
    (hgood : s.WellFormed) {holder : ℕ} (hholds : s.holds holder = true) :
    s.share.WellFormed := by
  have halive : s.channel.senderAlive = true :=
    hgood.held.mpr ⟨holder, hholds⟩
  constructor
  · intro other hother
    by_cases hnew : other = s.made
    · rw [hnew]
      exact Nat.lt_succ_self s.made
    · have hbefore : s.holds other = true := by
        simpa [State.share, hnew] using hother
      exact Nat.lt_succ_of_lt (hgood.made other hbefore)
  · exact iff_of_true halive ⟨s.made, Function.update_self ..⟩
  · exact hgood.placed
  · exact hgood.finished

theorem accept_wellFormed
    (hgood : s.WellFormed) {holder : ℕ} {item : β}
    (hholds : s.holds holder = true) (hroom : s.channel.HasRoom) :
    (s.accept holder item (s.channel.push item hroom)).WellFormed := by
  have halive : s.channel.senderAlive = true :=
    hgood.held.mpr ⟨holder, hholds⟩
  constructor
  · exact hgood.made
  · exact hgood.held
  · simp only [State.accept, State.sent, Channel.push_placed,
      List.map_append, List.map_singleton]
    rw [hgood.placed, State.sent]
  · intro hfinished
    have hdropped := (hgood.finished hfinished).1
    rw [halive] at hdropped
    contradiction

/-- A holder that lets go takes the sender with it if it is the last one. -/
theorem leave_senderAlive
    (hgood : s.WellFormed) {holder : ℕ} (hholds : s.holds holder = true) :
    (s.leave holder).channel.senderAlive = true ↔
      ∃ other, s.holdsWithout holder other = true := by
  have halive : s.channel.senderAlive = true :=
    hgood.held.mpr ⟨holder, hholds⟩
  unfold State.leave
  split
  next hsome =>
    rcases hsome with ⟨other, _, hother⟩
    exact iff_of_true halive ⟨other, hother⟩
  next hnone =>
    constructor
    · intro hdropped
      exact absurd hdropped Bool.false_ne_true
    · intro hsome
      rcases hsome with ⟨other, hother⟩
      have hne : other ≠ holder := by
        intro heq
        rw [State.holdsWithout, heq, Function.update_self] at hother
        exact Bool.false_ne_true hother
      have hbefore : s.holds other = true := by
        rwa [State.holdsWithout, Function.update_of_ne hne] at hother
      exact absurd ⟨other, hgood.made other hbefore, hother⟩ hnone

theorem leave_holds_self (holder : ℕ) :
    (s.leave holder).holds holder = false := by
  simp [State.leave, State.holdsWithout]

theorem leave_holds_of_ne {holder other : ℕ} (hne : other ≠ holder) :
    (s.leave holder).holds other = s.holds other :=
  Function.update_of_ne hne _ _

theorem leave_placed (holder : ℕ) :
    (s.leave holder).channel.placed = s.channel.placed := by
  unfold State.leave
  dsimp only
  split <;> rfl

theorem leave_finished (holder : ℕ) :
    (s.leave holder).channel.finished = s.channel.finished := by
  unfold State.leave
  dsimp only
  split <;> rfl

theorem leave_receiverAlive (holder : ℕ) :
    (s.leave holder).channel.receiverAlive = s.channel.receiverAlive := by
  unfold State.leave
  dsimp only
  split <;> rfl

theorem leave_wellFormed
    (hgood : s.WellFormed) {holder : ℕ} (hholds : s.holds holder = true) :
    (s.leave holder).WellFormed := by
  constructor
  · intro other hother
    by_cases heq : other = holder
    · rw [heq]
      exact hgood.made holder hholds
    · apply hgood.made
      simpa [State.leave, State.holdsWithout, heq] using hother
  · exact leave_senderAlive hgood hholds
  · rw [leave_placed]
    exact hgood.placed
  · intro hfinished
    -- the sender has been alive so far, so the reader cannot be at the end
    have halive := hgood.held.mpr ⟨holder, hholds⟩
    rw [leave_finished] at hfinished
    rw [(hgood.finished hfinished).1] at halive
    contradiction

theorem read_wellFormed
    (hgood : s.WellFormed) {next : Channel β}
    (hrecv : s.channel.recv = some next) : (s.read next).WellFormed := by
  rcases Channel.recv_eq_some.mp hrecv with
    ⟨_, hunfinished, ⟨_, rfl⟩ | ⟨hqueue, hsender, rfl⟩⟩
  · constructor
    · exact hgood.made
    · exact hgood.held
    · simp only [State.read, Channel.pop_placed]
      exact hgood.placed
    · intro hfinished
      simp only [State.read, Channel.pop_finished, hunfinished] at hfinished
      contradiction
  · constructor
    · exact hgood.made
    · exact hgood.held
    · exact hgood.placed
    · intro _
      exact ⟨hsender, hqueue⟩

theorem close_wellFormed (hgood : s.WellFormed) : s.close.WellFormed := by
  constructor
  · exact hgood.made
  · exact hgood.held
  · exact hgood.placed
  · exact hgood.finished

theorem step_wellFormed
    {t : State β} {a : Action β} (hgood : s.WellFormed)
    (hstep : step s a = some t) : t.WellFormed := by
  cases a with
  | share holder =>
      rcases Option.ite_none_right_eq_some.mp hstep with ⟨hholds, heq⟩
      cases heq
      exact share_wellFormed hgood hholds
  | send holder item =>
      rcases Option.ite_none_right_eq_some.mp hstep with ⟨hholds, heq⟩
      split at heq
      next channel hsent =>
        rcases Channel.send_eq_sent.mp hsent with ⟨_, hroom, rfl⟩
        cases heq
        exact accept_wellFormed hgood hholds hroom
      next => contradiction
  | leave holder =>
      rcases Option.ite_none_right_eq_some.mp hstep with ⟨hholds, heq⟩
      cases heq
      exact leave_wellFormed hgood hholds
  | recv =>
      rcases Option.map_eq_some_iff.mp hstep with ⟨next, hrecv, rfl⟩
      exact read_wellFormed hgood hrecv
  | close =>
      cases hstep
      exact close_wellFormed hgood

end Steps

namespace State.WellFormed

variable {s : State β}

theorem received_prefix (hgood : s.WellFormed) :
    s.channel.received <+: s.sent :=
  hgood.placed ▸ s.channel.received_prefix_placed

/-- The end is the end of everything that was sent, and nobody is left who
could send more. -/
theorem received_of_finished
    (hgood : s.WellFormed) (hfinished : s.channel.finished = true) :
    s.channel.received = s.sent ∧ ∀ holder, s.holds holder = false := by
  rcases hgood.finished hfinished with ⟨hsender, hqueue⟩
  constructor
  · rw [← hgood.placed, Channel.placed_of_queue_nil hqueue]
  · intro holder
    by_contra hholds
    have halive := hgood.held.mpr ⟨holder, by simpa using hholds⟩
    rw [hsender] at halive
    contradiction

/-- Once nobody holds the sender, a reader that reads on is handed the rest
and then the end. -/
theorem reads_to_end
    (hgood : s.WellFormed) (hleft : ∀ holder, s.holds holder = false)
    (hopen : s.channel.receiverAlive = true)
    (hunfinished : s.channel.finished = false) :
    ∃ last,
      TransitionSystem.exec (fun (ch : Channel β) (_ : Unit) => ch.recv)
          s.channel (List.replicate (s.channel.queue.length + 1) ()) =
        some last ∧ last.finished = true ∧ last.received = s.sent := by
  have hsender : s.channel.senderAlive = false := by
    by_contra halive
    rcases hgood.held.mp (by simpa using halive) with ⟨holder, hholds⟩
    rw [hleft holder] at hholds
    contradiction
  rw [← hgood.placed]
  exact Channel.reads_to_end s.channel hsender hopen hunfinished

end State.WellFormed

end SharedSenders
