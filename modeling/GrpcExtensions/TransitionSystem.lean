import Mathlib.Logic.Basic
import Mathlib.Data.List.Basic

/-!
# Runs of partial step functions

A system is a partial function `step : σ → ι → Option σ`: the value `none`
says that the action is not enabled.  This file contains the run, invariant
and guard rules shared by every state machine of the development.  Nothing
here depends on what the states or the actions are.
-/

namespace TransitionSystem

universe u v w x

variable {σ : Type u} {ι : Type v}

/-- Perform a list of actions, failing at the first disabled one. -/
def exec (step : σ → ι → Option σ) : σ → List ι → Option σ
  | s, [] => some s
  | s, a :: rest => (step s a).bind fun t => exec step t rest

@[simp]
theorem exec_nil (step : σ → ι → Option σ) (s : σ) :
    exec step s [] = some s := rfl

theorem exec_cons_eq_some
    {step : σ → ι → Option σ} {s t : σ} {a : ι} {rest : List ι} :
    exec step s (a :: rest) = some t ↔
      ∃ m, step s a = some m ∧ exec step m rest = some t := by
  simp [exec, Option.bind_eq_some_iff]

theorem exec_append_eq_some
    {step : σ → ι → Option σ} {s t : σ} {front back : List ι} :
    exec step s (front ++ back) = some t ↔
      ∃ m, exec step s front = some m ∧ exec step m back = some t := by
  induction front generalizing s with
  | nil => simp
  | cons a front ih =>
      rw [List.cons_append, exec_cons_eq_some]
      constructor
      · rintro ⟨n, hn, hrest⟩
        obtain ⟨m, hm, hback⟩ := ih.mp hrest
        exact ⟨m, exec_cons_eq_some.mpr ⟨n, hn, hm⟩, hback⟩
      · rintro ⟨m, hfront, hback⟩
        obtain ⟨n, hn, hm⟩ := exec_cons_eq_some.mp hfront
        exact ⟨n, hn, ih.mpr ⟨m, hm, hback⟩⟩

/-- The guard `P` holds of every state of the run and the action taken in
it. -/
def Along (step : σ → ι → Option σ) (P : σ → ι → Prop) :
    σ → List ι → Prop
  | _, [] => True
  | s, a :: rest => P s a ∧ ∀ t, step s a = some t → Along step P t rest

theorem along_cons_of_step
    {step : σ → ι → Option σ} {P : σ → ι → Prop}
    {s t : σ} {a : ι} {rest : List ι} (hstep : step s a = some t) :
    Along step P s (a :: rest) ↔ P s a ∧ Along step P t rest := by
  simp [Along, hstep]

/-- Induction rule for guarded runs: what every guarded step preserves, the
whole run preserves. -/
theorem exec_invariant_along
    {step : σ → ι → Option σ} {P : σ → ι → Prop} {I : σ → Prop}
    (hstep : ∀ s a t, I s → P s a → step s a = some t → I t)
    {s t : σ} {acts : List ι} (hinit : I s)
    (halong : Along step P s acts) (hrun : exec step s acts = some t) :
    I t := by
  induction acts generalizing s with
  | nil =>
      have heq : s = t := by simpa using hrun
      exact heq ▸ hinit
  | cons a rest ih =>
      obtain ⟨m, hm, hrest⟩ := exec_cons_eq_some.mp hrun
      exact ih (hstep s a m hinit halong.1 hm) (halong.2 m hm) hrest

/-- Induction rule for an invariant that speaks of the actions so far. -/
theorem exec_history
    {step : σ → ι → Option σ} {I : σ → List ι → Prop}
    (hstep : ∀ s past a t, I s past → step s a = some t →
      I t (past ++ [a]))
    {s t : σ} {past acts : List ι} (hinit : I s past)
    (hrun : exec step s acts = some t) : I t (past ++ acts) := by
  induction acts generalizing s past with
  | nil =>
      have heq : s = t := by simpa using hrun
      rw [List.append_nil]
      exact heq ▸ hinit
  | cons a rest ih =>
      obtain ⟨m, hm, hrest⟩ := exec_cons_eq_some.mp hrun
      have hall := ih (hstep s past a m hinit hm) hrest
      rwa [List.append_assoc, List.singleton_append] at hall

/-- Induction rule for all runs. -/
theorem exec_invariant
    {step : σ → ι → Option σ} {I : σ → Prop}
    (hstep : ∀ s a t, I s → step s a = some t → I t)
    {s t : σ} {acts : List ι} (hinit : I s)
    (hrun : exec step s acts = some t) : I t := by
  have hpast : ∀ s (_ : List ι) a t, I s → step s a = some t → I t :=
    fun s _ => hstep s
  exact @exec_history _ _ step (fun s _ => I s) hpast s t [] acts hinit hrun

/-- Backward rule: when a good state can only be reached from a good state by
a step that respects the guard, a run to a good state respects it all along. -/
theorem along_of_exec
    {step : σ → ι → Option σ} {P : σ → ι → Prop} {I G : σ → Prop}
    (hinv : ∀ s a t, I s → step s a = some t → I t)
    (hback : ∀ s a t, I s → step s a = some t → G t → G s ∧ P s a)
    {s t : σ} {acts : List ι} (hinit : I s)
    (hrun : exec step s acts = some t) (hgood : G t) :
    Along step P s acts := by
  have hall : G s ∧ Along step P s acts := by
    induction acts generalizing s with
    | nil =>
        have heq : s = t := by simpa using hrun
        exact ⟨heq ▸ hgood, trivial⟩
    | cons a rest ih =>
        obtain ⟨m, hm, hrest⟩ := exec_cons_eq_some.mp hrun
        obtain ⟨hgoodm, halong⟩ := ih (hinv s a m hinit hm) hrest
        obtain ⟨hgoods, hP⟩ := hback s a m hinit hm hgoodm
        exact ⟨hgoods, (along_cons_of_step hm).mpr ⟨hP, halong⟩⟩
  exact hall.2

/-- A run stays good exactly as long as it respects the guard, when a step
against the guard makes the state bad and bad states stay bad. -/
theorem along_iff_of_exec
    {step : σ → ι → Option σ} {P : σ → ι → Prop} {I G : σ → Prop}
    (hinv : ∀ s a t, I s → step s a = some t → I t)
    (hkeep : ∀ s a t, I s → G s → P s a → step s a = some t → G t)
    (hback : ∀ s a t, I s → step s a = some t → G t → G s ∧ P s a)
    {s t : σ} {acts : List ι} (hI : I s) (hinit : G s)
    (hrun : exec step s acts = some t) :
    G t ↔ Along step P s acts := by
  constructor
  · intro hgood
    exact along_of_exec hinv hback hI hrun hgood
  · intro halong
    have hboth : I t ∧ G t :=
      exec_invariant_along
        (I := fun s => I s ∧ G s)
        (fun s a t hs hP hst =>
          ⟨hinv s a t hs.1 hst, hkeep s a t hs.1 hs.2 hP hst⟩)
        ⟨hI, hinit⟩ halong hrun
    exact hboth.2

/-- Every state that the run passes satisfies `Q`. -/
def Always (step : σ → ι → Option σ) (Q : σ → Prop) : σ → List ι → Prop
  | s, [] => Q s
  | s, a :: rest => Q s ∧ ∀ t, step s a = some t → Always step Q t rest

theorem always_iff_forall_prefix
    {step : σ → ι → Option σ} {Q : σ → Prop} {s : σ} {acts : List ι} :
    Always step Q s acts ↔
      ∀ front t, front <+: acts → exec step s front = some t → Q t := by
  induction acts generalizing s with
  | nil =>
      constructor
      · intro hQ front t hfront hrun
        rw [List.prefix_nil.mp hfront, exec_nil] at hrun
        exact Option.some.inj hrun ▸ hQ
      · intro hall
        exact hall [] s List.nil_prefix rfl
  | cons a rest ih =>
      constructor
      · intro hall front t hfront hrun
        cases front with
        | nil => exact Option.some.inj hrun ▸ hall.1
        | cons b front =>
            obtain ⟨rfl, hrest⟩ := List.cons_prefix_cons.mp hfront
            obtain ⟨m, hm, hback⟩ := exec_cons_eq_some.mp hrun
            exact ih.mp (hall.2 m hm) front t hrest hback
      · intro hall
        refine ⟨hall [] s List.nil_prefix rfl, fun m hm => ih.mpr ?_⟩
        intro front t hfront hrun
        exact hall (a :: front) t (List.cons_prefix_cons.mpr ⟨rfl, hfront⟩)
          (exec_cons_eq_some.mpr ⟨m, hm, hrun⟩)

/-- A run passes good states only, exactly when it respects a guard that says
when a step from a good state leads to a good state. -/
theorem always_iff_along
    {step : σ → ι → Option σ} {P : σ → ι → Prop} {I Q : σ → Prop}
    (hinv : ∀ s a t, I s → step s a = some t → I t)
    (hkeep : ∀ s a t, I s → Q s → P s a → step s a = some t → Q t)
    (hback : ∀ s a t, I s → Q s → step s a = some t → Q t → P s a)
    {s t : σ} {acts : List ι} (hI : I s) (hinit : Q s)
    (hrun : exec step s acts = some t) :
    Always step Q s acts ↔ Along step P s acts := by
  induction acts generalizing s with
  | nil => exact iff_of_true hinit trivial
  | cons a rest ih =>
      obtain ⟨m, hm, hrest⟩ := exec_cons_eq_some.mp hrun
      have hIm := hinv s a m hI hm
      constructor
      · rintro ⟨_, hall⟩
        have hall := hall m hm
        have hQm : Q m := by
          cases rest with
          | nil => exact hall
          | cons b rest => exact hall.1
        exact (along_cons_of_step hm).mpr
          ⟨hback s a m hI hinit hm hQm, (ih hIm hQm hrest).mp hall⟩
      · intro halong
        obtain ⟨hP, hall⟩ := (along_cons_of_step hm).mp halong
        have hQm := hkeep s a m hI hinit hP hm
        refine ⟨hinit, ?_⟩
        intro n hn
        rw [hm] at hn
        rw [← Option.some.inj hn]
        exact (ih hIm hQm hrest).mpr hall

/-- What the steps of a run give out, in order. -/
def outputs {ω : Type w} (step : σ → ι → Option σ) (out : σ → ι → Option ω) :
    σ → List ι → List ω
  | _, [] => []
  | s, a :: rest =>
      (out s a).toList ++
        match step s a with
        | some t => outputs step out t rest
        | none => []

theorem outputs_cons_of_step
    {ω : Type w} {step : σ → ι → Option σ} {out : σ → ι → Option ω}
    {s t : σ} {a : ι} (hstep : step s a = some t) (rest : List ι) :
    outputs step out s (a :: rest) =
      (out s a).toList ++ outputs step out t rest := by
  rw [outputs, hstep]

theorem outputs_append_of_exec
    {ω : Type w} {step : σ → ι → Option σ} {out : σ → ι → Option ω}
    {s t : σ} {front : List ι} (hrun : exec step s front = some t)
    (back : List ι) :
    outputs step out s (front ++ back) =
      outputs step out s front ++ outputs step out t back := by
  induction front generalizing s with
  | nil =>
      have heq : s = t := by simpa using hrun
      rw [heq]
      rfl
  | cons a front ih =>
      rcases exec_cons_eq_some.mp hrun with ⟨m, hm, hrest⟩
      rw [List.cons_append, outputs_cons_of_step hm, ih hrest,
        outputs_cons_of_step hm, List.append_assoc]

/-- A record of the state that each step extends by its output has grown by
the outputs of the run. -/
theorem outputs_eq_append
    {ω : Type w} {step : σ → ι → Option σ} {out : σ → ι → Option ω}
    (record : σ → List ω)
    (hstep : ∀ s a t, step s a = some t →
      record t = record s ++ (out s a).toList)
    {s t : σ} {acts : List ι} (hrun : exec step s acts = some t) :
    record t = record s ++ outputs step out s acts := by
  induction acts generalizing s with
  | nil =>
      have heq : s = t := by simpa using hrun
      rw [heq, outputs, List.append_nil]
  | cons a rest ih =>
      obtain ⟨m, hm, hrest⟩ := exec_cons_eq_some.mp hrun
      rw [ih hrest, hstep s a m hm, outputs_cons_of_step hm, List.append_assoc]

/-- Simulation rule: when every step either is a step of the viewed system or
leaves the view alone, a run is a run of the viewed system. -/
theorem exec_filterMap
    {τ : Type w} {κ : Type x}
    {step : σ → ι → Option σ} {viewStep : τ → κ → Option τ}
    {view : σ → τ} {visible : ι → Option κ}
    (hvisible : ∀ s a t b, visible a = some b → step s a = some t →
      viewStep (view s) b = some (view t))
    (hhidden : ∀ s a t, visible a = none → step s a = some t →
      view t = view s)
    {s t : σ} {acts : List ι} (hrun : exec step s acts = some t) :
    exec viewStep (view s) (acts.filterMap visible) = some (view t) := by
  induction acts generalizing s with
  | nil =>
      have heq : s = t := by simpa using hrun
      rw [heq, List.filterMap_nil, exec_nil]
  | cons a rest ih =>
      obtain ⟨m, hm, hrest⟩ := exec_cons_eq_some.mp hrun
      cases hact : visible a with
      | none =>
          rw [List.filterMap_cons_none hact, ← hhidden s a m hact hm]
          exact ih hrest
      | some b =>
          rw [List.filterMap_cons_some hact]
          exact exec_cons_eq_some.mpr
            ⟨view m, hvisible s a m b hact hm, ih hrest⟩

/-- The system in which only the actions admitted by `allowed` happen. -/
def restrict
    (step : σ → ι → Option σ) (allowed : σ → ι → Prop)
    [∀ s a, Decidable (allowed s a)] (s : σ) (a : ι) : Option σ :=
  if allowed s a then step s a else none

theorem restrict_eq_some
    {step : σ → ι → Option σ} {allowed : σ → ι → Prop}
    [∀ s a, Decidable (allowed s a)] {s t : σ} {a : ι} :
    restrict step allowed s a = some t ↔
      allowed s a ∧ step s a = some t := by
  unfold restrict
  split <;> simp_all

/-- No action is enabled. -/
def Stuck (step : σ → ι → Option σ) (s : σ) : Prop :=
  ∀ a, step s a = none

theorem Stuck.step_eq_none
    {step : σ → ι → Option σ} {allowed : σ → ι → Prop}
    [∀ s a, Decidable (allowed s a)] {s : σ}
    (hstuck : Stuck (restrict step allowed) s)
    {a : ι} (hallowed : allowed s a) : step s a = none := by
  have hnone := hstuck a
  unfold restrict at hnone
  rwa [if_pos hallowed] at hnone

end TransitionSystem
