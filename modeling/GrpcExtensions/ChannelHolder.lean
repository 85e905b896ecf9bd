import GrpcExtensions.GrpcChannel
import GrpcExtensions.TransitionSystem
import Mathlib.Data.List.Basic
import Mathlib.Logic.Function.Basic

/-!
# Parties sharing one channel holder

Any number of requests and the ping loop share a `GrpcChannelHolder`.  Each
call on the holder takes its mutex for itself, so the parties interleave
between `get`, the connects, `set` and `drop_channel`: an action below is one
of these, or the end of the call that a party runs on its channel.
-/

namespace GrpcExtensions
namespace ChannelHolder

open GrpcChannel (ChannelId ConnectOutcome Status GrpcReadError)

/-- A request goes through `GrpcChannel::execute` or one of its variants; the
ping loop belongs to the pool of the holder. -/
inductive Party where
  | request (id : ℕ)
  | ping
  deriving DecidableEq

/-- How the call of a party on its channel ends. -/
inductive RunOutcome where
  | response
  | timeout
  | status (status : Status)
  | pingOk
  | pingTimeout
  | pingPanic

/-- The outcomes on which `drop_channel` is called. -/
def RunOutcome.dropsChannel : RunOutcome → Bool
  | .response => false
  | .timeout => true
  | .status answer => (GrpcReadError.tonicStatus answer).declaresDead
  | .pingOk => false
  | .pingTimeout => true
  | .pingPanic => true

def Party.canMeet : Party → RunOutcome → Bool
  | .request _, .response => true
  | .request _, .timeout => true
  | .request _, .status _ => true
  | .ping, .pingOk => true
  | .ping, .pingTimeout => true
  | .ping, .pingPanic => true
  | _, _ => false

/-- Where a party is.  `installing` has connected and not yet called `set`. -/
inductive Pc where
  | idle
  | connecting (attemptNo : ℕ)
  | installing (c : ChannelId)
  | running (c : ChannelId)
  | dropping (c : ChannelId)

structure State where
  holder : Option ChannelId
  /-- The name of the next channel that a connect makes. -/
  fresh : ChannelId
  /-- The channels that were ever set, oldest first. -/
  installs : List ChannelId
  pc : Party → Pc

def start : State where
  holder := none
  fresh := 0
  installs := []
  pc := fun _ => .idle

def State.goto (s : State) (p : Party) (pc : Pc) : State :=
  { s with pc := Function.update s.pc p pc }

@[simp]
theorem goto_pc_self (s : State) (p : Party) (pc : Pc) :
    (s.goto p pc).pc p = pc := by
  simp [State.goto]

theorem goto_pc_of_ne (s : State) {p q : Party} (hne : q ≠ p) (pc : Pc) :
    (s.goto p pc).pc q = s.pc q := by
  simp [State.goto, hne]

/-- Where a party is after a move: the one that moved, or another. -/
theorem pc_of_goto
    {s : State} {p q : Party} {pc reached : Pc}
    (hq : (s.goto p pc).pc q = reached) :
    (q = p ∧ pc = reached) ∨ (q ≠ p ∧ s.pc q = reached) := by
  by_cases heq : q = p
  · subst q
    rw [goto_pc_self] at hq
    exact .inl ⟨rfl, hq⟩
  · rw [goto_pc_of_ne s heq] at hq
    exact .inr ⟨heq, hq⟩

inductive Action where
  | get (p : Party)
  | connect (p : Party) (outcome : ConnectOutcome)
  | set (p : Party)
  | finish (p : Party) (outcome : RunOutcome)
  | drop (p : Party)

def step (s : State) : Action → Option State
  | .get p =>
      match s.pc p with
      | .idle =>
          match s.holder with
          | some c => some (s.goto p (.running c))
          | none => some (s.goto p (.connecting 0))
      | _ => none
  | .connect p outcome =>
      match s.pc p with
      | .connecting attemptNo =>
          match outcome with
          | .connected =>
              some { s.goto p (.installing s.fresh) with
                fresh := s.fresh + 1 }
          | _ =>
              if attemptNo > 3 then some (s.goto p .idle)
              else some (s.goto p (.connecting (attemptNo + 1)))
      | _ => none
  | .set p =>
      match s.pc p with
      | .installing c =>
          some { s.goto p (.running c) with
            holder := some c
            installs := s.installs ++ [c] }
      | _ => none
  | .finish p outcome =>
      match s.pc p with
      | .running c =>
          if p.canMeet outcome then
            if outcome.dropsChannel then some (s.goto p (.dropping c))
            else some (s.goto p .idle)
          else none
      | _ => none
  | .drop p =>
      match s.pc p with
      | .dropping _ => some { s.goto p .idle with holder := none }
      | _ => none

/-- Everything a step can do. -/
inductive Move : State → Action → State → Prop where
  | getHeld {s : State} {p : Party} {c : ChannelId}
      (hpc : s.pc p = .idle) (hheld : s.holder = some c) :
      Move s (.get p) (s.goto p (.running c))
  | getEmpty {s : State} {p : Party}
      (hpc : s.pc p = .idle) (hempty : s.holder = none) :
      Move s (.get p) (s.goto p (.connecting 0))
  | connected {s : State} {p : Party} {attemptNo : ℕ}
      (hpc : s.pc p = .connecting attemptNo) :
      Move s (.connect p .connected)
        { s.goto p (.installing s.fresh) with fresh := s.fresh + 1 }
  | gaveUp {s : State} {p : Party} {attemptNo : ℕ}
      {outcome : ConnectOutcome}
      (hpc : s.pc p = .connecting attemptNo) (hlast : attemptNo > 3) :
      Move s (.connect p outcome) (s.goto p .idle)
  | connectAgain {s : State} {p : Party} {attemptNo : ℕ}
      {outcome : ConnectOutcome}
      (hpc : s.pc p = .connecting attemptNo) (hmore : ¬ attemptNo > 3) :
      Move s (.connect p outcome) (s.goto p (.connecting (attemptNo + 1)))
  | set {s : State} {p : Party} {c : ChannelId}
      (hpc : s.pc p = .installing c) :
      Move s (.set p)
        { s.goto p (.running c) with
          holder := some c
          installs := s.installs ++ [c] }
  | failed {s : State} {p : Party} {c : ChannelId} {outcome : RunOutcome}
      (hpc : s.pc p = .running c) (hmeet : p.canMeet outcome = true)
      (hdead : outcome.dropsChannel = true) :
      Move s (.finish p outcome) (s.goto p (.dropping c))
  | ended {s : State} {p : Party} {c : ChannelId} {outcome : RunOutcome}
      (hpc : s.pc p = .running c) (hmeet : p.canMeet outcome = true)
      (halive : outcome.dropsChannel = false) :
      Move s (.finish p outcome) (s.goto p .idle)
  | drop {s : State} {p : Party} {c : ChannelId}
      (hpc : s.pc p = .dropping c) :
      Move s (.drop p) { s.goto p .idle with holder := none }

theorem move_of_step
    {s t : State} {a : Action} (hstep : step s a = some t) :
    Move s a t := by
  cases a with
  | get p =>
      simp only [step] at hstep
      split at hstep
      next hpc =>
        split at hstep <;> cases hstep
        next c hheld => exact .getHeld hpc hheld
        next hempty => exact .getEmpty hpc hempty
      next => contradiction
  | connect p outcome =>
      simp only [step] at hstep
      split at hstep
      next attemptNo hpc =>
        split at hstep
        next =>
          cases hstep
          exact .connected hpc
        next =>
          split at hstep <;> cases hstep
          next hlast => exact .gaveUp hpc hlast
          next hmore => exact .connectAgain hpc hmore
      next => contradiction
  | set p =>
      simp only [step] at hstep
      split at hstep
      next c hpc =>
        cases hstep
        exact .set hpc
      next => contradiction
  | finish p outcome =>
      simp only [step] at hstep
      split at hstep
      next c hpc =>
        split at hstep
        next hmeet =>
          split at hstep <;> cases hstep
          next hdead => exact .failed hpc hmeet hdead
          next halive => exact .ended hpc hmeet (by simpa using halive)
        next => contradiction
      next => contradiction
  | drop p =>
      simp only [step] at hstep
      split at hstep
      next c hpc =>
        cases hstep
        exact .drop hpc
      next => contradiction

/-- Where the channels are: the held one was set last, the ones that parties
use have been set, and those still to be set are fresh and each one party's. -/
structure State.Sound (s : State) : Prop where
  held : ∀ c, s.holder = some c → ∃ older, s.installs = older ++ [c]
  used : ∀ p c, s.pc p = .running c ∨ s.pc p = .dropping c →
    c ∈ s.installs
  unset : ∀ p c, s.pc p = .installing c → c ∉ s.installs
  own : ∀ p q c, s.pc p = .installing c → s.pc q = .installing c → p = q
  made : ∀ c, c ∈ s.installs ∨ (∃ p, s.pc p = .installing c) →
    c < s.fresh

theorem start_sound : start.Sound := by
  constructor <;> simp [start]

/-- A party moves on without installing anything. -/
theorem State.Sound.goto
    {s : State} (hsound : s.Sound) (p : Party) {pc : Pc}
    (hunset : ∀ c, pc ≠ .installing c)
    (hused : ∀ c, pc = .running c ∨ pc = .dropping c → c ∈ s.installs) :
    (s.goto p pc).Sound := by
  have hother : ∀ q c, (s.goto p pc).pc q = .installing c →
      s.pc q = .installing c := by
    intro q c hq
    rcases pc_of_goto hq with ⟨_, hpc⟩ | ⟨_, hold⟩
    · exact absurd hpc (hunset c)
    · exact hold
  constructor
  · exact hsound.held
  · rintro q c (hq | hq) <;>
      rcases pc_of_goto hq with ⟨_, hpc⟩ | ⟨_, hold⟩
    · exact hused c (.inl hpc)
    · exact hsound.used q c (.inl hold)
    · exact hused c (.inr hpc)
    · exact hsound.used q c (.inr hold)
  · intro q c hpc
    exact hsound.unset q c (hother q c hpc)
  · intro q r c hq hr
    exact hsound.own q r c (hother q c hq) (hother r c hr)
  · rintro c (hset | ⟨q, hpc⟩)
    · exact hsound.made c (.inl hset)
    · exact hsound.made c (.inr ⟨q, hother q c hpc⟩)

/-- A connect makes a fresh channel, which the party still has to set. -/
theorem State.Sound.connected
    {s : State} (hsound : s.Sound) (p : Party) :
    State.Sound
      { s.goto p (.installing s.fresh) with fresh := s.fresh + 1 } := by
  have hunset : ∀ q c, (s.goto p (.installing s.fresh)).pc q =
      .installing c →
      (q = p ∧ c = s.fresh) ∨ (q ≠ p ∧ s.pc q = .installing c) := by
    intro q c hq
    rcases pc_of_goto hq with ⟨rfl, hc⟩ | hold
    · injection hc with hc
      exact .inl ⟨rfl, hc.symm⟩
    · exact .inr hold
  constructor
  · exact hsound.held
  · rintro q c (hq | hq) <;>
      rcases pc_of_goto hq with ⟨_, hc⟩ | ⟨_, hold⟩
    · cases hc
    · exact hsound.used q c (.inl hold)
    · cases hc
    · exact hsound.used q c (.inr hold)
  · intro q c hq hset
    rcases hunset q c hq with ⟨_, rfl⟩ | ⟨_, hold⟩
    · exact Nat.lt_irrefl _ (hsound.made s.fresh (.inl hset))
    · exact hsound.unset q c hold hset
  · intro q r c hq hr
    rcases hunset q c hq with ⟨rfl, rfl⟩ | ⟨_, hold⟩ <;>
      rcases hunset r _ hr with ⟨hrp, hrc⟩ | ⟨_, hrold⟩
    · exact hrp.symm
    · exact absurd (hsound.made _ (.inr ⟨r, hrold⟩)) (Nat.lt_irrefl _)
    · rw [hrc] at hold
      exact absurd (hsound.made _ (.inr ⟨q, hold⟩)) (Nat.lt_irrefl _)
    · exact hsound.own q r c hold hrold
  · rintro c (hset | ⟨q, hq⟩)
    · exact Nat.lt_succ_of_lt (hsound.made c (.inl hset))
    · rcases hunset q c hq with ⟨_, rfl⟩ | ⟨_, hold⟩
      · exact Nat.lt_succ_self _
      · exact Nat.lt_succ_of_lt (hsound.made c (.inr ⟨q, hold⟩))

/-- The party's channel becomes the held one. -/
theorem State.Sound.set
    {s : State} (hsound : s.Sound) {p : Party} {c : ChannelId}
    (hpc : s.pc p = .installing c) :
    State.Sound
      { s.goto p (.running c) with
        holder := some c
        installs := s.installs ++ [c] } := by
  have hunset : ∀ q d, (s.goto p (.running c)).pc q = .installing d →
      q ≠ p ∧ s.pc q = .installing d := by
    intro q d hq
    rcases pc_of_goto hq with ⟨_, hd⟩ | hold
    · cases hd
    · exact hold
  constructor
  · intro d hheld
    have heq : c = d := Option.some.inj hheld
    exact ⟨s.installs, by rw [heq]⟩
  · rintro q d (hq | hq) <;>
      rcases pc_of_goto hq with ⟨_, hd⟩ | ⟨_, hold⟩
    · injection hd with hd
      rw [← hd]
      exact List.mem_append_right _ (List.mem_singleton_self c)
    · exact List.mem_append_left _ (hsound.used q d (.inl hold))
    · cases hd
    · exact List.mem_append_left _ (hsound.used q d (.inr hold))
  · intro q d hq hset
    obtain ⟨hne, hold⟩ := hunset q d hq
    rcases List.mem_append.mp hset with hset | hlast
    · exact hsound.unset q d hold hset
    · rw [List.mem_singleton.mp hlast] at hold
      exact hne (hsound.own q p c hold hpc)
  · intro q r d hq hr
    exact hsound.own q r d (hunset q d hq).2 (hunset r d hr).2
  · intro d hmade
    apply hsound.made d
    rcases hmade with hset | ⟨q, hq⟩
    · rcases List.mem_append.mp hset with hset | hlast
      · exact .inl hset
      · rw [List.mem_singleton.mp hlast]
        exact .inr ⟨p, hpc⟩
    · exact .inr ⟨q, (hunset q d hq).2⟩

theorem Move.sound
    {s t : State} {a : Action} (hmove : Move s a t) (hsound : s.Sound) :
    t.Sound := by
  cases hmove with
  | @getHeld p c hpc hheld =>
      refine hsound.goto p (by simp) ?_
      intro d hd
      have heq : c = d := by simpa using hd
      obtain ⟨older, hinstalls⟩ := hsound.held c hheld
      rw [← heq, hinstalls]
      exact List.mem_append_right older (List.mem_singleton_self c)
  | @getEmpty p hpc hempty => exact hsound.goto p (by simp) (by simp)
  | @connected p attemptNo hpc => exact hsound.connected p
  | @gaveUp p attemptNo outcome hpc hlast =>
      exact hsound.goto p (by simp) (by simp)
  | @connectAgain p attemptNo outcome hpc hmore =>
      exact hsound.goto p (by simp) (by simp)
  | set hpc => exact hsound.set hpc
  | @failed p c outcome hpc hmeet hdead =>
      refine hsound.goto p (by simp) ?_
      intro d hd
      have heq : c = d := by simpa using hd
      rw [← heq]
      exact hsound.used p c (.inl hpc)
  | @ended p c outcome hpc hmeet halive =>
      exact hsound.goto p (by simp) (by simp)
  | @drop p c hpc =>
      have hidle := @State.Sound.goto s hsound p .idle (by simp) (by simp)
      exact ⟨by simp, hidle.used, hidle.unset, hidle.own, hidle.made⟩

theorem exec_sound
    {acts : List Action} {s : State}
    (hrun : TransitionSystem.exec step start acts = some s) : s.Sound :=
  TransitionSystem.exec_invariant
    (fun _ _ _ hs hstep => (move_of_step hstep).sound hs) start_sound hrun

end ChannelHolder
end GrpcExtensions
