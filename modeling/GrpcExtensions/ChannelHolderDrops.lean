import GrpcExtensions.ChannelHolder

/-!
# Whose channel is dropped

`drop_channel` takes whatever the holder contains.  That is the channel on
which the failure was observed, unless another party has installed a newer one
between the failing call's `get` and its `drop_channel`.
-/

namespace GrpcExtensions
namespace ChannelHolder

/-- `newer` was set after `c`. -/
def State.InstalledAfter (s : State) (c newer : GrpcChannel.ChannelId) :
    Prop :=
  [c, newer].Sublist s.installs

/-- Whichever party calls `drop_channel` next, it does not remove a channel
other than the one on which it observed a failure, installed after it. -/
def State.DropsOnlyFailed (s : State) : Prop :=
  ∀ p t, step s (.drop p) = some t → ∀ c removed,
    s.pc p = .dropping c → s.holder = some removed → t.holder = none →
    removed ≠ c → ¬ s.InstalledAfter c removed

/-- The call takes whatever is held. -/
theorem dropsOnlyFailed_iff {s : State} :
    s.DropsOnlyFailed ↔
      ∀ p c held, s.pc p = .dropping c → s.holder = some held → held ≠ c →
        ¬ s.InstalledAfter c held := by
  constructor
  · intro hsafe p c held hpc hheld hne
    have hdrop : step s (.drop p) =
        some { s.goto p .idle with holder := none } := by
      simp only [step, hpc]
    exact hsafe p _ hdrop c held hpc hheld rfl hne
  · intro hsafe p _ _ c removed hpc hheld _ hne
    exact hsafe p c removed hpc hheld hne

/-- A call fails while its own channel is the one held, if any, and a channel
is installed while no party is about to call `drop_channel`. -/
def Calm (s : State) : Action → Prop
  | .finish p outcome =>
      outcome.dropsChannel = true → ∀ c held,
        s.pc p = .running c → s.holder = some held → held = c
  | .set _ => ∀ p c, s.pc p ≠ .dropping c
  | _ => True

/-- The held channel was set last, so it was installed after every other one
that a party uses. -/
theorem State.Sound.installedAfter
    {s : State} (hsound : s.Sound) {p : Party}
    {c held : GrpcChannel.ChannelId}
    (hused : s.pc p = .running c ∨ s.pc p = .dropping c)
    (hheld : s.holder = some held) (hne : held ≠ c) :
    s.InstalledAfter c held := by
  obtain ⟨older, hinstalls⟩ := hsound.held held hheld
  have hmem := hsound.used p c hused
  unfold State.InstalledAfter
  rw [hinstalls] at hmem ⊢
  rcases List.mem_append.mp hmem with holder | hlast
  · exact List.Sublist.append (List.singleton_sublist.mpr holder)
      (List.Sublist.refl [held])
  · exact absurd (List.mem_singleton.mp hlast).symm hne

/-- A party other than the one that moves is where it was. -/
theorem dropping_of_goto
    {s : State} {p q : Party} {pc : Pc} {c : GrpcChannel.ChannelId}
    (hdropping : (s.goto p pc).pc q = .dropping c)
    (hpc : ∀ d, pc ≠ .dropping d) : s.pc q = .dropping c := by
  rcases pc_of_goto hdropping with ⟨_, hnew⟩ | ⟨_, hold⟩
  · exact absurd hnew (hpc c)
  · exact hold

theorem Move.dropsOnlyFailed
    {s t : State} {a : Action} (hmove : Move s a t) (hcalm : Calm s a)
    (hsafe : s.DropsOnlyFailed) : t.DropsOnlyFailed := by
  rw [dropsOnlyFailed_iff] at hsafe ⊢
  have hgoto : ∀ p pc, (∀ d, pc ≠ .dropping d) → ∀ q c held,
      (s.goto p pc).pc q = .dropping c → s.holder = some held →
        held ≠ c → ¬ s.InstalledAfter c held := by
    intro p pc hpc q c held hdropping
    exact hsafe q c held (dropping_of_goto hdropping hpc)
  cases hmove with
  | getHeld hpc hheld => exact hgoto _ _ (by simp)
  | getEmpty hpc hempty => exact hgoto _ _ (by simp)
  | connected hpc => exact hgoto _ _ (by simp)
  | gaveUp hpc hlast => exact hgoto _ _ (by simp)
  | connectAgain hpc hmore => exact hgoto _ _ (by simp)
  | @set p c hpc =>
      intro q d held hdropping
      exact absurd (dropping_of_goto hdropping (by simp)) (hcalm q d)
  | @failed p c outcome hpc hmeet hdead =>
      intro q d held hdropping hheld hne
      rcases pc_of_goto hdropping with ⟨_, hc⟩ | ⟨_, hold⟩
      · injection hc with hc
        subst d
        exact absurd (hcalm hdead c held hpc hheld) hne
      · exact hsafe q d held hold hheld hne
  | ended hpc hmeet halive => exact hgoto _ _ (by simp)
  | drop hpc =>
      intro q c held hdropping hheld
      contradiction

/-- A step that is not calm leaves a party about to remove a newer channel. -/
theorem Move.calm
    {s t : State} {a : Action} (hmove : Move s a t) (hsound : s.Sound)
    (hsafe : t.DropsOnlyFailed) : Calm s a := by
  have hsoundNext := hmove.sound hsound
  rw [dropsOnlyFailed_iff] at hsafe
  cases hmove with
  | @set p c hpc =>
      intro q d hdropping
      have hne : q ≠ p := by
        rintro rfl
        rw [hpc] at hdropping
        contradiction
      have hnext : ({ s.goto p (.running c) with
          holder := some c
          installs := s.installs ++ [c] } : State).pc q = .dropping d := by
        rw [← hdropping]
        exact goto_pc_of_ne s hne _
      have hunset := hsound.unset p c hpc
      have hset := hsound.used q d (.inr hdropping)
      have hcd : c ≠ d := by
        rintro rfl
        exact hunset hset
      exact hsafe q d c hnext rfl hcd
        (hsoundNext.installedAfter (.inr hnext) rfl hcd)
  | @failed p c outcome hpc hmeet hdead =>
      intro _ d held hrunning hheld
      rw [hpc] at hrunning
      injection hrunning with hcd
      subst d
      by_contra hne
      have hnext : (s.goto p (.dropping c)).pc p = .dropping c :=
        goto_pc_self s p _
      exact hsafe p c held hnext hheld hne
        (hsoundNext.installedAfter (.inr hnext) hheld hne)
  | ended hpc hmeet halive =>
      intro hdead
      rw [halive] at hdead
      contradiction
  | _ => trivial

/-- In every state that a run passes, no call of `drop_channel` that is possible
there would remove a channel newer than the one that failed, whether the run
makes the call or not, if and only if every step of the run is calm. -/
theorem drops_only_failed_iff_calm
    {acts : List Action} {s : State}
    (hrun : TransitionSystem.exec step start acts = some s) :
    TransitionSystem.Always step State.DropsOnlyFailed start acts ↔
      TransitionSystem.Along step Calm start acts := by
  refine TransitionSystem.always_iff_along
    (I := State.Sound)
    (fun _ _ _ hs hstep => (move_of_step hstep).sound hs)
    (fun _ _ _ _ hsafe hcalm hstep =>
      (move_of_step hstep).dropsOnlyFailed hcalm hsafe)
    (fun _ _ _ hs _ hstep hsafe => (move_of_step hstep).calm hs hsafe)
    start_sound ?_ hrun
  rw [dropsOnlyFailed_iff]
  intro p c held hdropping
  contradiction

theorem drops_only_failed_iff_calm_one_reconnect :
    ∃ s : State,
      TransitionSystem.exec step start
          [.get .ping, .connect .ping .connected, .set .ping,
            .finish .ping .pingTimeout, .drop .ping, .get (.request 0),
            .connect (.request 0) .connected, .set (.request 0)] =
        some s ∧
      (TransitionSystem.Always step State.DropsOnlyFailed start
          [.get .ping, .connect .ping .connected, .set .ping,
            .finish .ping .pingTimeout, .drop .ping, .get (.request 0),
            .connect (.request 0) .connected, .set (.request 0)] ↔
        TransitionSystem.Along step Calm start
          [.get .ping, .connect .ping .connected, .set .ping,
            .finish .ping .pingTimeout, .drop .ping, .get (.request 0),
            .connect (.request 0) .connected, .set (.request 0)]) :=
  ⟨_, rfl, drops_only_failed_iff_calm rfl⟩

/-- Two requests time out on channel 0.  The first drops it and the ping loop
reconnects; then the second drops the new channel 1. -/
theorem second_failure_drops_new_channel :
    ∃ s t : State,
      TransitionSystem.exec step start
          [.get (.request 0), .connect (.request 0) .connected,
            .set (.request 0), .get (.request 1),
            .finish (.request 0) .timeout, .finish (.request 1) .timeout,
            .drop (.request 0), .get .ping, .connect .ping .connected,
            .set .ping] = some s ∧
        s.pc (.request 1) = .dropping 0 ∧ s.holder = some 1 ∧
        s.InstalledAfter 0 1 ∧
        step s (.drop (.request 1)) = some t ∧ t.holder = none :=
  ⟨_, _, rfl, rfl, rfl, List.Sublist.refl [0, 1], rfl, rfl⟩

end ChannelHolder
end GrpcExtensions
