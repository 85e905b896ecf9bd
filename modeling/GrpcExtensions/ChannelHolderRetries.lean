import GrpcExtensions.ChannelHolder
import GrpcExtensions.RankedRuns

/-!
# Requests with retries on a shared holder

Every request runs its retry loop while the others and the ping loop use the
same holder.  None of them can keep a request from going on: it waits only for
the answers of its own connects and calls, and the attempts that it is given
bound its steps whatever the others do to the holder meanwhile.
-/

namespace GrpcExtensions
namespace ChannelHolder

open GrpcChannel (ConnectOutcome)

/-- The party whose action it is. -/
def Action.party : Action → Party
  | .get p => p
  | .connect p _ => p
  | .set p => p
  | .finish p _ => p
  | .drop p => p

theorem Move.pc_of_ne
    {s t : State} {a : Action} (hmove : Move s a t)
    {p : Party} (hne : p ≠ a.party) : t.pc p = s.pc p := by
  cases hmove <;> exact goto_pc_of_ne _ hne _

namespace Retried

inductive Result where
  | response
  | error
  deriving DecidableEq

/-- The counter of the retry loop and what the loop has returned. -/
structure Request where
  attemptNo : ℕ
  result : Option Result

structure State where
  shared : ChannelHolder.State
  request : ℕ → Request

def start : State where
  shared := ChannelHolder.start
  request := fun _ => ⟨0, none⟩

/-- What the loop makes of an attempt. -/
def Request.afterAttempt (maxAttemptsAmount : ℕ) (request : Request) :
    Result → Request
  | .response => { request with result := some .response }
  | .error =>
      let attemptNo := request.attemptNo + 1
      if attemptNo ≥ maxAttemptsAmount then ⟨attemptNo, some .error⟩
      else ⟨attemptNo, none⟩

/-- The result of the attempt that ends with this action. -/
def attemptResult : Action → Result
  | .finish _ .response => .response
  | _ => .error

/-- An action of a request is one of its current attempt, and the attempt is
over when the request needs no channel any more. -/
def afterAction (maxAttempts : ℕ → ℕ) (s : State) (a : Action)
    (shared : ChannelHolder.State) : State :=
  match a.party with
  | .ping => { s with shared := shared }
  | .request id =>
      match shared.pc (.request id) with
      | .idle =>
          { shared := shared
            request := Function.update s.request id
              ((s.request id).afterAttempt (maxAttempts id)
                (attemptResult a)) }
      | _ => { s with shared := shared }

def step (maxAttempts : ℕ → ℕ) (s : State) (a : Action) : Option State :=
  match a.party with
  | .ping => (ChannelHolder.step s.shared a).map (afterAction maxAttempts s a)
  | .request id =>
      if (s.request id).result = none then
        (ChannelHolder.step s.shared a).map (afterAction maxAttempts s a)
      else none

/-- The attempts of a request; an amount of zero is as good as one. -/
def attempts (maxAttempts : ℕ → ℕ) (id : ℕ) : ℕ :=
  max 1 (maxAttempts id)

section Ranks

variable (maxAttempts : ℕ → ℕ) (id : ℕ) (s : State)

/-- What is left of the current attempt and the full attempts behind it. -/
def remaining (full : ℕ) (current : Pc → ℕ) : ℕ :=
  if (s.request id).result = none then
    full * (attempts maxAttempts id - (s.request id).attemptNo - 1) +
      current (s.shared.pc (.request id))
  else 0

end Ranks

section Steps

variable {maxAttempts : ℕ → ℕ} {s t : State} {a : Action} {id : ℕ}

/-- An action of another party does not touch the request. -/
theorem step_other
    (hstep : step maxAttempts s a = some t) (hne : a.party ≠ .request id) :
    t.request id = s.request id ∧
      t.shared.pc (.request id) = s.shared.pc (.request id) := by
  have hmoved : ∃ shared, ChannelHolder.step s.shared a = some shared ∧
      afterAction maxAttempts s a shared = t := by
    unfold step at hstep
    split at hstep
    next => exact Option.map_eq_some_iff.mp hstep
    next other hother =>
      rcases Option.ite_none_right_eq_some.mp hstep with ⟨_, hstep⟩
      exact Option.map_eq_some_iff.mp hstep
  rcases hmoved with ⟨shared, hshared, rfl⟩
  have hpc := (move_of_step hshared).pc_of_ne hne.symm
  unfold afterAction
  split
  next => exact ⟨rfl, hpc⟩
  next other hother =>
    split
    next =>
      have hid : id ≠ other := by
        intro heq
        rw [hother, heq] at hne
        exact hne rfl
      exact ⟨Function.update_of_ne hid _ _, hpc⟩
    next => exact ⟨rfl, hpc⟩

/-- An own action is one of an attempt that is not over, or ends it. -/
inductive OwnStep (maxAttempts : ℕ → ℕ) (id : ℕ) (s : State) (a : Action)
    (t : State) : Prop where
  | attempting (hpc : t.shared.pc (.request id) ≠ .idle)
      (hrequest : t.request id = s.request id)
  | ended (hpc : t.shared.pc (.request id) = .idle)
      (hrequest : t.request id =
        (s.request id).afterAttempt (maxAttempts id) (attemptResult a))

theorem step_own
    (hstep : step maxAttempts s a = some t) (hown : a.party = .request id) :
    (s.request id).result = none ∧ Move s.shared a t.shared ∧
      OwnStep maxAttempts id s a t := by
  unfold step at hstep
  rw [hown] at hstep
  rcases Option.ite_none_right_eq_some.mp hstep with ⟨hnone, hstep⟩
  rcases Option.map_eq_some_iff.mp hstep with ⟨shared, hshared, rfl⟩
  have hmove := move_of_step hshared
  unfold afterAction
  rw [hown]
  dsimp only
  split
  next hidle =>
    exact ⟨hnone, hmove, .ended hidle (Function.update_self ..)⟩
  next hbusy => exact ⟨hnone, hmove, .attempting hbusy rfl⟩

end Steps

section Runs

variable {maxAttempts : ℕ → ℕ} {acts : List Action} {s : State}

end Runs

section Attempts

/-- The beginning of an attempt. -/
def begins (p : Party) : Action → Bool
  | .get q => q == p
  | _ => false

/-- The attempt that is not over yet. -/
def ongoing : Pc → ℕ
  | .idle => 0
  | _ => 1

/-- The counter is not increased behind an attempt that succeeds. -/
def Request.attemptsMade (request : Request) : ℕ :=
  match request.result with
  | some .response => request.attemptNo + 1
  | _ => request.attemptNo

def attemptsBegun (id : ℕ) (s : State) : ℕ :=
  (s.request id).attemptsMade + ongoing (s.shared.pc (.request id))

variable {maxAttempts : ℕ → ℕ} {id : ℕ}

theorem ongoing_of_ne_idle {pc : Pc} (hbusy : pc ≠ .idle) : ongoing pc = 1 := by
  cases pc with
  | idle => exact absurd rfl hbusy
  | _ => rfl

theorem attemptsMade_of_running
    {request : Request} (hnone : request.result = none) :
    request.attemptsMade = request.attemptNo := by
  unfold Request.attemptsMade
  rw [hnone]

theorem attemptsMade_afterAttempt
    (request : Request) (maxAttemptsAmount : ℕ) (result : Result) :
    (request.afterAttempt maxAttemptsAmount result).attemptsMade =
      request.attemptNo + 1 := by
  cases result with
  | response => rfl
  | error =>
      simp only [Request.afterAttempt]
      split <;> rfl

/-- A party begins an attempt exactly when it is in none. -/
theorem begins_of_move
    {u v : ChannelHolder.State} {a : Action} (hmove : Move u a v)
    {p : Party} (hown : a.party = p) :
    (begins p a).toNat + ongoing (u.pc p) = 1 := by
  subst hown
  cases hmove with
  | getHeld hpc hheld => simp [Action.party, hpc, begins, ongoing]
  | getEmpty hpc hempty => simp [Action.party, hpc, begins, ongoing]
  | connected hpc => simp [Action.party, hpc, begins, ongoing]
  | gaveUp hpc hlast => simp [Action.party, hpc, begins, ongoing]
  | connectAgain hpc hmore => simp [Action.party, hpc, begins, ongoing]
  | set hpc => simp [Action.party, hpc, begins, ongoing]
  | failed hpc hmeet hdead => simp [Action.party, hpc, begins, ongoing]
  | ended hpc hmeet halive => simp [Action.party, hpc, begins, ongoing]
  | drop hpc => simp [Action.party, hpc, begins, ongoing]

theorem party_of_begins
    {a : Action} {p : Party} (hbegins : begins p a = true) : a.party = p := by
  cases a with
  | get q => simpa [begins, Action.party] using hbegins
  | _ => contradiction

theorem attemptsBegun_of_step
    {s t : State} {a : Action} (hstep : step maxAttempts s a = some t) :
    attemptsBegun id t =
      attemptsBegun id s + (begins (.request id) a).toNat := by
  unfold attemptsBegun
  by_cases hown : a.party = .request id
  · rcases step_own hstep hown with ⟨hnone, hmove, howned⟩
    have hbegins := begins_of_move hmove hown
    cases howned with
    | attempting hpc hrequest =>
        rw [hrequest, ongoing_of_ne_idle hpc]
        omega
    | ended hpc hrequest =>
        have hmade := attemptsMade_afterAttempt (s.request id)
          (maxAttempts id) (attemptResult a)
        have hidle : ongoing .idle = 0 := rfl
        rw [hrequest, hmade, attemptsMade_of_running hnone, hpc, hidle]
        omega
  · rcases step_other hstep hown with ⟨hrequest, hpc⟩
    have hother : begins (.request id) a = false := by
      by_contra hbegins
      exact hown (party_of_begins (by simpa using hbegins))
    rw [hrequest, hpc, hother]
    rfl

/-- The request begins its attempts one by one. -/
theorem countP_begins
    {s t : State} {acts : List Action}
    (hrun : TransitionSystem.exec (step maxAttempts) s acts = some t) :
    attemptsBegun id s + acts.countP (begins (.request id)) =
      attemptsBegun id t := by
  have hnext : ∀ m past a n,
      attemptsBegun id s + past.countP (begins (.request id)) =
        attemptsBegun id m →
      step maxAttempts m a = some n →
      attemptsBegun id s + (past ++ [a]).countP (begins (.request id)) =
        attemptsBegun id n := by
    intro m past a n hpast hstep
    rw [attemptsBegun_of_step hstep, ← hpast, List.countP_append,
      List.countP_singleton]
    cases begins (.request id) a <;> simp [Nat.add_assoc]
  have hinit : attemptsBegun id s + [].countP (begins (.request id)) =
      attemptsBegun id s := rfl
  exact TransitionSystem.exec_history hnext hinit hrun

end Attempts

end Retried
end ChannelHolder
end GrpcExtensions
