import GrpcExtensions.TransitionSystem

/-!
# Runs that use up a rank

A rank is a number that some actions lower and no other action raises.  It
bounds how often these actions happen in any run, whatever happens between
them.  If all actions lower it, every state has a run to one where nothing is
enabled.
-/

namespace TransitionSystem

universe u v

variable {σ : Type u} {ι : Type v} {step : σ → ι → Option σ}
variable {I : σ → Prop} {rank : σ → ℕ}

/-- Each action of a kind is paid for by the rank. -/
theorem countP_add_rank_le
    {own : ι → Bool}
    (hinv : ∀ s a t, I s → step s a = some t → I t)
    (hown : ∀ s a t, I s → own a = true → step s a = some t →
      rank t < rank s)
    (hother : ∀ s a t, I s → own a = false → step s a = some t →
      rank t ≤ rank s)
    {s t : σ} {acts : List ι} (hs : I s)
    (hrun : exec step s acts = some t) :
    acts.countP own + rank t ≤ rank s := by
  induction acts generalizing s with
  | nil =>
      have heq : s = t := by simpa using hrun
      simp [heq]
  | cons a rest ih =>
      rcases exec_cons_eq_some.mp hrun with ⟨m, hm, hrest⟩
      have hle := ih (hinv s a m hs hm) hrest
      rw [List.countP_cons]
      cases hact : own a with
      | true =>
          have hlt := hown s a m hs hact hm
          simp only [if_true]
          omega
      | false =>
          have hkept := hother s a m hs hact hm
          simp only [Bool.false_eq_true, if_false]
          omega

/-- If every action lowers the rank, it bounds the length of every run. -/
theorem length_add_rank_le
    (hinv : ∀ s a t, I s → step s a = some t → I t)
    (hlower : ∀ s a t, I s → step s a = some t → rank t < rank s)
    {s t : σ} {acts : List ι} (hs : I s)
    (hrun : exec step s acts = some t) :
    acts.length + rank t ≤ rank s := by
  have hcount : acts.countP (fun _ => true) + rank t ≤ rank s :=
    countP_add_rank_le hinv (fun s a t hs _ hstep => hlower s a t hs hstep)
      (fun _ _ _ _ hfalse _ => absurd hfalse.symm Bool.false_ne_true) hs hrun
  rwa [List.countP_true] at hcount

/-- If every action lowers a rank, the system comes to rest. -/
theorem exists_stuck
    (hinv : ∀ s a t, I s → step s a = some t → I t)
    (hlower : ∀ s a t, I s → step s a = some t → rank t < rank s)
    {s : σ} (hs : I s) :
    ∃ acts t, exec step s acts = some t ∧ Stuck step t := by
  induction hrank : rank s using Nat.strongRecOn generalizing s with
  | ind n ih =>
      by_cases hstuck : Stuck step s
      · exact ⟨[], s, rfl, hstuck⟩
      · unfold Stuck at hstuck
        push Not at hstuck
        rcases hstuck with ⟨a, ha⟩
        rcases Option.ne_none_iff_exists'.mp ha with ⟨m, hm⟩
        have hlt := hlower s a m hs hm
        rw [hrank] at hlt
        rcases ih (rank m) hlt (hinv s a m hs hm) rfl with
            ⟨acts, t, hrun, hrest⟩
        exact ⟨a :: acts, t, exec_cons_eq_some.mpr ⟨m, hm, hrun⟩, hrest⟩

end TransitionSystem
