import Mathlib.Data.List.Chain
import Mathlib.Logic.Basic
import Mathlib.Order.Basic
import Mathlib.Tactic.Common

/-!
# Bounded retry loops

A loop that repeats an attempt until it succeeds or the attempts are used up.
`loop` is written with its counter, as programs write it; `retry` recurses on
the number of further attempts, and proofs go through it.  The state is
threaded through all attempts, the failed ones included.
-/

universe u v w x

namespace BoundedRetry

variable {σ : Type u} {ε : Type v} {β : Type w} {γ : Type x}

/-- Repeat `attempt`.  The counter is increased after a failure and the error
is returned once it has reached `maxAttempts`. -/
def loop (attempt : σ → Except ε β × σ) (onOk : β → γ) (maxAttempts : ℕ)
    (attemptNo : ℕ) (s : σ) : Except ε γ × σ :=
  match attempt s with
  | (.ok result, after) => (.ok (onOk result), after)
  | (.error err, after) =>
      if attemptNo + 1 ≥ maxAttempts then (.error err, after)
      else loop attempt onOk maxAttempts (attemptNo + 1) after
termination_by maxAttempts - attemptNo

/-- Attempt once, and after a failure up to `left` times more. -/
def retry (attempt : σ → Except ε β × σ) (onOk : β → γ) :
    ℕ → σ → Except ε γ × σ
  | left, s =>
      match attempt s with
      | (.ok result, after) => (.ok (onOk result), after)
      | (.error err, after) =>
          match left with
          | 0 => (.error err, after)
          | left + 1 => retry attempt onOk left after

variable {attempt : σ → Except ε β × σ} {onOk : β → γ}

theorem retry_of_ok
    {s after : σ} {result : β} (hok : attempt s = (.ok result, after))
    (left : ℕ) : retry attempt onOk left s = (.ok (onOk result), after) := by
  rw [retry, hok]

theorem retry_zero_of_error
    {s after : σ} {err : ε} (herror : attempt s = (.error err, after)) :
    retry attempt onOk 0 s = (.error err, after) := by
  rw [retry, herror]

theorem retry_succ_of_error
    {s after : σ} {err : ε} (herror : attempt s = (.error err, after))
    (left : ℕ) :
    retry attempt onOk (left + 1) s = retry attempt onOk left after := by
  rw [retry, herror]

/-- Induction rule for `retry`: an attempt succeeds, is the last one and
fails, or fails and leaves the rest of the loop. -/
@[elab_as_elim]
theorem retry_induction
    {motive : ℕ → σ → Prop} (attempt : σ → Except ε β × σ)
    (done : ∀ {left s result after}, attempt s = (.ok result, after) →
      motive left s)
    (last : ∀ {s err after}, attempt s = (.error err, after) → motive 0 s)
    (again : ∀ {left s err after}, attempt s = (.error err, after) →
      motive left after → motive (left + 1) s)
    (left : ℕ) (s : σ) : motive left s := by
  induction left generalizing s with
  | zero =>
      cases hattempt : attempt s with
      | mk outcome after =>
          cases outcome with
          | ok result => exact done hattempt
          | error err => exact last hattempt
  | succ left ih =>
      cases hattempt : attempt s with
      | mk outcome after =>
          cases outcome with
          | ok result => exact done hattempt
          | error err => exact again hattempt (ih after)

theorem loop_eq_retry (maxAttempts attemptNo : ℕ) (s : σ) :
    loop attempt onOk maxAttempts attemptNo s =
      retry attempt onOk (maxAttempts - (attemptNo + 1)) s := by
  fun_induction loop attempt onOk maxAttempts attemptNo s with
  | case1 attemptNo s result after hok => rw [retry_of_ok hok]
  | case2 attemptNo s err after herror hlast =>
      have hleft : maxAttempts - (attemptNo + 1) = 0 := by omega
      rw [hleft, retry_zero_of_error herror]
  | case3 attemptNo s err after herror hmore ih =>
      have hleft : maxAttempts - (attemptNo + 1) =
          maxAttempts - (attemptNo + 1 + 1) + 1 := by omega
      rw [hleft, retry_succ_of_error herror]
      exact ih

/-- The state in which attempt `k` is made, if those before it fail. -/
def stateBefore (attempt : σ → Except ε β × σ) : ℕ → σ → σ
  | 0, s => s
  | k + 1, s => stateBefore attempt k (attempt s).2

def Fails (attempt : σ → Except ε β × σ) (s : σ) (k : ℕ) : Prop :=
  ∃ err, (attempt (stateBefore attempt k s)).1 = .error err

/-- Every attempt that is made while others are left has an outcome in `P`. -/
def BeforeLast (attempt : σ → Except ε β × σ) (maxAttempts : ℕ) (s : σ)
    (P : Except ε β → Prop) : Prop :=
  ∀ k, k + 1 < maxAttempts → (∀ j < k, Fails attempt s j) →
    P (attempt (stateBefore attempt k s)).1

theorem beforeLast_of_ok
    {P : Except ε β → Prop} (hP : ∀ result, P (.ok result))
    {s after : σ} {result : β} (hok : attempt s = (.ok result, after))
    (maxAttempts : ℕ) : BeforeLast attempt maxAttempts s P := by
  intro k hk hfailed
  cases k with
  | zero =>
      rw [stateBefore, hok]
      exact hP result
  | succ k =>
      obtain ⟨err, herr⟩ := hfailed 0 (Nat.succ_pos k)
      rw [stateBefore, hok] at herr
      contradiction

theorem beforeLast_of_le_one
    {P : Except ε β → Prop} {maxAttempts : ℕ} (hle : maxAttempts ≤ 1)
    (s : σ) : BeforeLast attempt maxAttempts s P := by
  intro k hk
  omega

/-- No attempts at all are as many as one. -/
theorem beforeLast_sub_one_add_one
    {P : Except ε β → Prop} (maxAttempts : ℕ) (s : σ) :
    BeforeLast attempt (maxAttempts - 1 + 1) s P ↔
      BeforeLast attempt maxAttempts s P := by
  cases maxAttempts with
  | zero =>
      exact iff_of_true (beforeLast_of_le_one (Nat.le_refl 1) s)
        (beforeLast_of_le_one (Nat.zero_le 1) s)
  | succ maxAttempts => rfl

/-- After a failed first attempt with others left, the condition is about the
first attempt and the rest. -/
theorem beforeLast_iff_of_error
    {P : Except ε β → Prop} {s after : σ} {err : ε}
    (herror : attempt s = (.error err, after)) (left : ℕ) :
    BeforeLast attempt (left + 2) s P ↔
      P (.error err) ∧ BeforeLast attempt (left + 1) after P := by
  have hfirst : (attempt s).1 = .error err := by rw [herror]
  have hafter : (attempt s).2 = after := by rw [herror]
  constructor
  · intro hall
    constructor
    · have hzero := hall 0 (by omega) (by simp)
      rwa [stateBefore, hfirst] at hzero
    · intro k hk hfailed
      have hnext := hall (k + 1) (by omega) ?_
      · rwa [stateBefore, hafter] at hnext
      · intro j hj
        cases j with
        | zero => exact ⟨err, hfirst⟩
        | succ j =>
            unfold Fails
            rw [stateBefore, hafter]
            exact hfailed j (by omega)
  · rintro ⟨hzero, hrest⟩ k hk hfailed
    cases k with
    | zero =>
        rw [stateBefore, hfirst]
        exact hzero
    | succ k =>
        rw [stateBefore, hafter]
        apply hrest k (by omega)
        intro j hj
        have hnext := hfailed (j + 1) (by omega)
        unfold Fails at hnext
        rwa [stateBefore, hafter] at hnext

section History

/-- One attempt of a loop, between the states around it. -/
structure Attempt (σ : Type u) (ε : Type v) (β : Type w) where
  before : σ
  result : Except ε β
  after : σ

/-- The same attempt on a state that carries the list of attempts made. -/
def logged (attempt : σ → Except ε β × σ)
    (s : σ × List (Attempt σ ε β)) :
    Except ε β × (σ × List (Attempt σ ε β)) :=
  let outcome := attempt s.1
  (outcome.1, (outcome.2, s.2 ++ [⟨s.1, outcome.1, outcome.2⟩]))

def history (attempt : σ → Except ε β × σ) (maxAttempts : ℕ) (s : σ) :
    List (Attempt σ ε β) :=
  (loop (logged attempt) id maxAttempts 0 (s, [])).2.2

/-- `Run attempt left s attempts result final`: with `left` further attempts
allowed, the loop makes these attempts from `s` on and ends in `final`. -/
inductive Run (attempt : σ → Except ε β × σ) :
    ℕ → σ → List (Attempt σ ε β) → Except ε β → σ → Prop
  | done {left : ℕ} {s after : σ} {result : β}
      (hok : attempt s = (.ok result, after)) :
      Run attempt left s [⟨s, .ok result, after⟩] (.ok result) after
  | last {s after : σ} {err : ε}
      (herror : attempt s = (.error err, after)) :
      Run attempt 0 s [⟨s, .error err, after⟩] (.error err) after
  | again {left : ℕ} {s after final : σ} {err : ε}
      {attempts : List (Attempt σ ε β)} {result : Except ε β}
      (herror : attempt s = (.error err, after))
      (hrest : Run attempt left after attempts result final) :
      Run attempt (left + 1) s (⟨s, .error err, after⟩ :: attempts)
        result final

theorem logged_eq
    {s after : σ} {outcome : Except ε β}
    (hattempt : attempt s = (outcome, after))
    (log : List (Attempt σ ε β)) :
    logged attempt (s, log) =
      (outcome, (after, log ++ [⟨s, outcome, after⟩])) := by
  simp [logged, hattempt]

variable (attempt) in
theorem retry_logged (left : ℕ) (s : σ) (log : List (Attempt σ ε β)) :
    ∃ attempts result final,
      Run attempt left s attempts result final ∧
        retry (logged attempt) id left (s, log) =
          (result, (final, log ++ attempts)) := by
  induction left, s using retry_induction attempt generalizing log with
  | done hok =>
      exact ⟨_, _, _, .done hok, retry_of_ok (logged_eq hok log) _⟩
  | last herror =>
      exact ⟨_, _, _, .last herror,
        retry_zero_of_error (logged_eq herror log)⟩
  | @again left s err after herror ih =>
      obtain ⟨attempts, result, final, hrun, hlog⟩ :=
        ih (log ++ [⟨s, .error err, after⟩])
      refine ⟨_, result, final, .again herror hrun, ?_⟩
      rw [retry_succ_of_error (logged_eq herror log), hlog,
        List.append_assoc, List.singleton_append]

variable (attempt) in
theorem run_history (maxAttempts : ℕ) (s : σ) :
    ∃ result final,
      Run attempt (maxAttempts - 1) s (history attempt maxAttempts s)
        result final := by
  obtain ⟨attempts, result, final, hrun, hlog⟩ :=
    retry_logged attempt (maxAttempts - 1) s []
  have hattempts : history attempt maxAttempts s = attempts := by
    rw [history, loop_eq_retry, hlog, List.nil_append]
  exact ⟨result, final, hattempts ▸ hrun⟩

variable {left : ℕ} {s final : σ} {attempts : List (Attempt σ ε β)}
variable {result : Except ε β}

theorem Run.retry_eq
    (hrun : Run attempt left s attempts result final) :
    retry attempt onOk left s = (result.map onOk, final) := by
  induction hrun with
  | done hok => exact retry_of_ok hok _
  | last herror => exact retry_zero_of_error herror
  | again herror hrest ih => rw [retry_succ_of_error herror, ih]

/-- The loop returns what the run of its attempts ends in. -/
theorem Run.loop_eq
    {maxAttempts : ℕ}
    (hrun : Run attempt (maxAttempts - 1) s attempts result final)
    (onOk : β → γ) :
    loop attempt onOk maxAttempts 0 s = (result.map onOk, final) := by
  rw [loop_eq_retry]
  exact hrun.retry_eq

theorem Run.attempt_eq
    (hrun : Run attempt 0 s attempts result final) :
    attempt s = (result, final) := by
  cases hrun with
  | done hok => exact hok
  | last herror => exact herror

theorem Run.length_le (hrun : Run attempt left s attempts result final) :
    attempts.length ≤ left + 1 := by
  induction hrun with
  | done hok => simp
  | last herror => simp
  | again herror hrest ih => simpa using ih

theorem Run.length_eq
    (hrun : Run attempt left s attempts result final)
    (hfailed : ∀ a ∈ attempts, ∃ err, a.result = .error err) :
    attempts.length = left + 1 := by
  induction hrun with
  | done hok =>
      obtain ⟨err, herr⟩ := hfailed _ (List.mem_singleton.mpr rfl)
      contradiction
  | last herror => rfl
  | again herror hrest ih =>
      rw [List.length_cons, ih fun a ha => hfailed a (List.mem_cons_of_mem _ ha)]

theorem Run.getLast?_eq
    (hrun : Run attempt left s attempts result final) :
    ∃ before, attempts.getLast? = some ⟨before, result, final⟩ := by
  induction hrun with
  | done hok => exact ⟨_, rfl⟩
  | last herror => exact ⟨_, rfl⟩
  | again herror hrest ih =>
      obtain ⟨before, hlast⟩ := ih
      exact ⟨before, by rw [List.getLast?_cons, hlast]; rfl⟩

theorem Run.head?_eq
    (hrun : Run attempt left s attempts result final) :
    ∃ outcome after, attempts.head? = some ⟨s, outcome, after⟩ := by
  cases hrun with
  | done hok => exact ⟨_, _, rfl⟩
  | last herror => exact ⟨_, _, rfl⟩
  | again herror hrest => exact ⟨_, _, rfl⟩

theorem Run.mem_dropLast
    (hrun : Run attempt left s attempts result final) :
    ∀ a ∈ attempts.dropLast, ∃ err, a.result = .error err := by
  induction hrun with
  | done hok => simp
  | last herror => simp
  | again herror hrest ih =>
      obtain ⟨_, _, hhead⟩ := hrest.head?_eq
      intro a ha
      rw [List.dropLast_cons_of_ne_nil (by rintro rfl; cases hhead),
        List.mem_cons] at ha
      rcases ha with rfl | ha
      · exact ⟨_, rfl⟩
      · exact ih a ha

theorem Run.isChain
    (hrun : Run attempt left s attempts result final) :
    attempts.IsChain fun a b => a.after = b.before := by
  induction hrun with
  | done hok => exact List.isChain_singleton _
  | last herror => exact List.isChain_singleton _
  | again herror hrest ih =>
      refine ih.cons fun b hb => ?_
      obtain ⟨_, _, hhead⟩ := hrest.head?_eq
      rw [hhead] at hb
      cases hb
      rfl

theorem Run.eq_of_mem
    (hrun : Run attempt left s attempts result final) :
    ∀ a ∈ attempts, attempt a.before = (a.result, a.after) := by
  induction hrun with
  | done hok => simpa using hok
  | last herror => simpa using herror
  | again herror hrest ih =>
      intro a ha
      rcases List.mem_cons.mp ha with rfl | ha
      · exact herror
      · exact ih a ha

theorem Run.invariant {I : σ → Prop}
    (hkeeps : ∀ s, I s → I (attempt s).2)
    (hrun : Run attempt left s attempts result final) (hs : I s) :
    (∀ a ∈ attempts, I a.before) ∧ I final := by
  induction hrun with
  | done hok =>
      have hafter := hkeeps _ hs
      rw [hok] at hafter
      exact ⟨by simpa using hs, hafter⟩
  | last herror =>
      have hafter := hkeeps _ hs
      rw [herror] at hafter
      exact ⟨by simpa using hs, hafter⟩
  | again herror hrest ih =>
      have hafter := hkeeps _ hs
      rw [herror] at hafter
      obtain ⟨hbefore, hfinal⟩ := ih hafter
      exact ⟨List.forall_mem_cons.mpr ⟨hs, hbefore⟩, hfinal⟩

end History

end BoundedRetry
