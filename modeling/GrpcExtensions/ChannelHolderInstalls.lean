import GrpcExtensions.ChannelHolder
import Mathlib.Data.List.Nodup

/-!
# Which channels are installed and obtained

A connect makes a channel and one `set` installs it, so a channel that has left
the holder never comes back.  The lookup and the `set` are separate critical
sections, and two parties that both find the holder empty install two
channels.
-/

namespace GrpcExtensions
namespace ChannelHolder

open GrpcChannel (ChannelId)

/-- The channel that a successful connect makes. -/
def made (s : State) : Action → Option ChannelId
  | .connect p .connected =>
      match s.pc p with
      | .connecting _ => some s.fresh
      | _ => none
  | _ => none

def installed (s : State) : Action → Option ChannelId
  | .set p =>
      match s.pc p with
      | .installing c => some c
      | _ => none
  | _ => none

def returned (s : State) : Action → Option ChannelId
  | .get p =>
      match s.pc p with
      | .idle => s.holder
      | _ => none
  | _ => none

section Records

theorem fresh_of_step
    {s t : State} {a : Action} (hstep : step s a = some t) :
    List.range t.fresh = List.range s.fresh ++ (made s a).toList := by
  cases a with
  | connect p outcome =>
      simp only [step] at hstep
      split at hstep
      next attemptNo hpc =>
        cases outcome with
        | connected =>
            cases hstep
            simp only [made, hpc]
            exact List.range_succ
        | failed err =>
            dsimp only at hstep
            split at hstep <;> cases hstep <;> simp [made, State.goto]
        | timeout =>
            dsimp only at hstep
            split at hstep <;> cases hstep <;> simp [made, State.goto]
      next => contradiction
  | _ => cases move_of_step hstep <;> simp [made, State.goto]

theorem installs_of_step
    {s t : State} {a : Action} (hstep : step s a = some t) :
    t.installs = s.installs ++ (installed s a).toList := by
  cases move_of_step hstep with
  | set hpc => simp [installed, hpc]
  | _ => simp [installed, State.goto]

theorem fresh_of_exec
    {s t : State} {acts : List Action}
    (hrun : TransitionSystem.exec step s acts = some t) :
    List.range t.fresh =
      List.range s.fresh ++ TransitionSystem.outputs step made s acts :=
  TransitionSystem.outputs_eq_append (fun s => List.range s.fresh)
    (fun _ _ _ hstep => fresh_of_step hstep) hrun

theorem installs_of_exec
    {s t : State} {acts : List Action}
    (hrun : TransitionSystem.exec step s acts = some t) :
    t.installs =
      s.installs ++ TransitionSystem.outputs step installed s acts :=
  TransitionSystem.outputs_eq_append State.installs
    (fun _ _ _ hstep => installs_of_step hstep) hrun

theorem Move.nodup
    {s t : State} {a : Action} (hmove : Move s a t) (hsound : s.Sound)
    (hnodup : s.installs.Nodup) : t.installs.Nodup := by
  cases hmove with
  | @set p c hpc =>
      rw [List.nodup_append]
      refine ⟨hnodup, List.nodup_singleton c, ?_⟩
      intro d hd e he
      rw [List.mem_singleton.mp he]
      intro heq
      exact hsound.unset p c hpc (heq ▸ hd)
  | _ => exact hnodup

theorem exec_nodup
    {acts : List Action} {s : State}
    (hrun : TransitionSystem.exec step start acts = some s) :
    s.installs.Nodup := by
  have hboth : s.Sound ∧ s.installs.Nodup :=
    TransitionSystem.exec_invariant
      (I := fun s => s.Sound ∧ s.installs.Nodup)
      (fun _ _ _ hs hstep =>
        ⟨(move_of_step hstep).sound hs.1, (move_of_step hstep).nodup hs.1 hs.2⟩)
      ⟨start_sound, List.nodup_nil⟩ hrun
  exact hboth.2

theorem count_installed_eq_one
    {acts : List Action} {s : State}
    (hrun : TransitionSystem.exec step start acts = some s)
    {c : ChannelId} (hset : c ∈ s.installs) :
    (TransitionSystem.outputs step installed start acts).count c = 1 := by
  have hinstalls := installs_of_exec hrun
  rw [show start.installs = [] from rfl, List.nil_append] at hinstalls
  rw [← hinstalls]
  exact List.count_eq_one_of_mem (exec_nodup hrun) hset

theorem count_made_eq_one
    {acts : List Action} {s : State}
    (hrun : TransitionSystem.exec step start acts = some s)
    {c : ChannelId} (hset : c ∈ s.installs) :
    (TransitionSystem.outputs step made start acts).count c = 1 := by
  have hfresh := fresh_of_exec hrun
  rw [show List.range start.fresh = [] from rfl, List.nil_append] at hfresh
  have hlt : c < s.fresh := (exec_sound hrun).made c (Or.inl hset)
  rw [← hfresh]
  exact List.count_eq_one_of_mem List.nodup_range (List.mem_range.mpr hlt)

end Records

section Gone

/-- `c` has been installed and is held no more. -/
def State.Gone (s : State) (c : ChannelId) : Prop :=
  c ∈ s.installs ∧ s.holder ≠ some c

theorem Move.gone
    {s t : State} {a : Action} {c : ChannelId} (hmove : Move s a t)
    (hsound : s.Sound) (hgone : s.Gone c) : t.Gone c := by
  obtain ⟨hset, hheld⟩ := hgone
  cases hmove with
  | @set p d hpc =>
      constructor
      · exact List.mem_append_left _ hset
      · intro heq
        cases heq
        exact hsound.unset p c hpc hset
  | drop hpc => exact ⟨hset, by simp⟩
  | _ => exact ⟨hset, hheld⟩

theorem exec_gone
    {acts : List Action} {s t : State} {c : ChannelId} (hsound : s.Sound)
    (hgone : s.Gone c)
    (hrun : TransitionSystem.exec step s acts = some t) : t.Gone c := by
  have hboth : t.Sound ∧ t.Gone c :=
    TransitionSystem.exec_invariant
      (I := fun s => s.Sound ∧ s.Gone c)
      (fun _ _ _ hs hstep =>
        ⟨(move_of_step hstep).sound hs.1, (move_of_step hstep).gone hs.1 hs.2⟩)
      ⟨hsound, hgone⟩ hrun
  exact hboth.2

theorem mem_installs_of_held
    {s : State} (hsound : s.Sound) {c : ChannelId}
    (hheld : s.holder = some c) : c ∈ s.installs := by
  obtain ⟨older, hinstalls⟩ := hsound.held c hheld
  rw [hinstalls]
  exact List.mem_append_right older (List.mem_singleton_self c)

theorem gone_of_step
    {s t : State} {a : Action} {c : ChannelId} (hsound : s.Sound)
    (hheld : s.holder = some c) (hstep : step s a = some t)
    (hleft : t.holder ≠ some c) : t.Gone c := by
  refine ⟨?_, hleft⟩
  rw [installs_of_step hstep]
  exact List.mem_append_left _ (mem_installs_of_held hsound hheld)

theorem holder_of_returned
    {s : State} {p : Party} {c : ChannelId}
    (hget : returned s (.get p) = some c) : s.holder = some c := by
  unfold returned at hget
  dsimp only at hget
  split at hget
  · exact hget
  · contradiction

/-- In every run, a channel that a `get` returns was made by one connect and
is installed by one `set`, before and after; and a channel that a step has
taken from the holder is returned by no later `get`. -/
theorem dropped_channel_never_returns
    {acts : List Action} {s : State}
    (hrun : TransitionSystem.exec step start acts = some s) :
    (∀ p c, returned s (.get p) = some c →
      (TransitionSystem.outputs step made start acts).count c = 1 ∧
      (TransitionSystem.outputs step installed start acts).count c = 1 ∧
      ∀ later u, TransitionSystem.exec step s later = some u →
        (TransitionSystem.outputs step made start (acts ++ later)).count c =
            1 ∧
          (TransitionSystem.outputs step installed start
            (acts ++ later)).count c = 1) ∧
    ∀ c a t later u, s.holder = some c → step s a = some t →
      t.holder ≠ some c → TransitionSystem.exec step t later = some u →
        ∀ p, returned u (.get p) ≠ some c := by
  have hsound := exec_sound hrun
  constructor
  · intro p c hget
    have hset := mem_installs_of_held hsound (holder_of_returned hget)
    refine ⟨count_made_eq_one hrun hset, count_installed_eq_one hrun hset, ?_⟩
    intro later u hlater
    have hall := TransitionSystem.exec_append_eq_some.mpr ⟨s, hrun, hlater⟩
    have hstill : c ∈ u.installs := by
      rw [installs_of_exec hlater]
      exact List.mem_append_left _ hset
    exact ⟨count_made_eq_one hall hstill, count_installed_eq_one hall hstill⟩
  · intro c a t later u hheld hstep hleft hlater p hget
    have hgone := gone_of_step hsound hheld hstep hleft
    have hsoundNext := (move_of_step hstep).sound hsound
    exact (exec_gone hsoundNext hgone hlater).2 (holder_of_returned hget)

theorem dropped_channel_never_returns_after_ping_timeout :
    ∃ s : State,
      TransitionSystem.exec step start
          [.get .ping, .connect .ping .connected, .set .ping,
            .get (.request 0), .finish .ping .pingTimeout] = some s ∧
        ∀ a t later u, s.holder = some 0 → step s a = some t →
          t.holder ≠ some 0 → TransitionSystem.exec step t later = some u →
            ∀ p, returned u (.get p) ≠ some 0 :=
  ⟨_, rfl, (@dropped_channel_never_returns
    [.get .ping, .connect .ping .connected, .set .ping, .get (.request 0),
      .finish .ping .pingTimeout] _ rfl).2 0⟩

end Gone

section Overwrites

/-- The channel that a caller of `get_channel` or `get_or_create_channel`
obtains: from `get`, or from `create_channel` after its `set`. -/
def obtained (s : State) (a : Action) : Option ChannelId :=
  (returned s a).or (installed s a)

/-- Whichever party calls `set` next, the holder is empty. -/
def State.InstallsOnEmpty (s : State) : Prop :=
  ∀ p t, step s (.set p) = some t → s.holder = none

/-- While no `drop_channel` happens, at most one channel is installed and all
callers obtain the same one. -/
def OneChannelBetweenDrops (acts : List Action) : Prop :=
  ∀ before between later s t, acts = before ++ between ++ later →
    (∀ p, .drop p ∉ between) →
    TransitionSystem.exec step start before = some s →
    TransitionSystem.exec step s between = some t →
    (TransitionSystem.outputs step installed s between).length ≤ 1 ∧
      ∃ c, ∀ d ∈ TransitionSystem.outputs step obtained s between, d = c

/-- A connect succeeds while the holder is empty, and a channel is set while
no other party has connected and not yet set its channel. -/
def OneAtATime (s : State) : Action → Prop
  | .connect _ .connected => s.holder = none
  | .set p => ∀ q c, q ≠ p → s.pc q ≠ .installing c
  | _ => True

theorem installsOnEmpty_iff {s : State} :
    s.InstallsOnEmpty ↔ ∀ p c, s.pc p = .installing c → s.holder = none := by
  constructor
  · intro hempty p c hpc
    have hset : step s (.set p) = some { s.goto p (.running c) with
        holder := some c
        installs := s.installs ++ [c] } := by
      simp only [step, hpc]
    exact hempty p _ hset
  · intro hempty p t hset
    cases move_of_step hset with
    | set hpc => exact hempty p _ hpc

theorem step_connected
    {s t : State} {p : Party}
    (hstep : step s (.connect p .connected) = some t) :
    t = { s.goto p (.installing s.fresh) with fresh := s.fresh + 1 } := by
  simp only [step] at hstep
  split at hstep
  · cases hstep
    rfl
  · contradiction

theorem installing_of_goto
    {s : State} {p q : Party} {pc : Pc} {c : ChannelId}
    (hinstalling : (s.goto p pc).pc q = .installing c)
    (hpc : ∀ d, pc ≠ .installing d) : q ≠ p ∧ s.pc q = .installing c := by
  rcases pc_of_goto hinstalling with ⟨_, hnew⟩ | hold
  · exact absurd hnew (hpc c)
  · exact hold

theorem installsOnEmpty_of_goto
    {s : State} (hempty : s.InstallsOnEmpty) {p : Party} {pc : Pc}
    (hpc : ∀ d, pc ≠ .installing d) : (s.goto p pc).InstallsOnEmpty := by
  rw [installsOnEmpty_iff] at hempty ⊢
  intro q c hq
  exact hempty q c (installing_of_goto hq hpc).2

theorem installsOnEmpty_of_step
    {s t : State} {a : Action} (hempty : s.InstallsOnEmpty)
    (halone : OneAtATime s a) (hstep : step s a = some t) :
    t.InstallsOnEmpty := by
  cases move_of_step hstep with
  | getHeld hpc hheld => exact installsOnEmpty_of_goto hempty (by simp)
  | getEmpty hpc hnone => exact installsOnEmpty_of_goto hempty (by simp)
  | connected hpc =>
      rw [installsOnEmpty_iff]
      intro _ _ _
      exact halone
  | gaveUp hpc hlast => exact installsOnEmpty_of_goto hempty (by simp)
  | connectAgain hpc hmore => exact installsOnEmpty_of_goto hempty (by simp)
  | @set p c hpc =>
      rw [installsOnEmpty_iff]
      intro q d hq
      obtain ⟨hne, hold⟩ := installing_of_goto hq (by simp)
      exact absurd hold (halone q d hne)
  | failed hpc hmeet hdead => exact installsOnEmpty_of_goto hempty (by simp)
  | ended hpc hmeet halive => exact installsOnEmpty_of_goto hempty (by simp)
  | drop hpc =>
      rw [installsOnEmpty_iff]
      intro _ _ _
      rfl

/-- A step that breaks the condition leaves a party about to overwrite. -/
theorem oneAtATime_of_step
    {s t : State} {a : Action} (hstep : step s a = some t)
    (hempty : t.InstallsOnEmpty) : OneAtATime s a := by
  rw [installsOnEmpty_iff] at hempty
  match a with
  | .connect p .connected =>
      have hnext := step_connected hstep
      subst hnext
      exact hempty p s.fresh (goto_pc_self s p _)
  | .set p =>
      intro q d hne hq
      cases move_of_step hstep with
      | @set _ c hpc =>
          have hnext : (s.goto p (.running c)).pc q = .installing d := by
            rw [goto_pc_of_ne s hne, hq]
          exact absurd (hempty q d hnext) (by simp)
  | .connect _ (.failed _) => trivial
  | .connect _ .timeout => trivial
  | .get _ => trivial
  | .finish _ _ => trivial
  | .drop _ => trivial

theorem holder_of_step
    {s t : State} {a : Action} (hstep : step s a = some t)
    (hdrop : ∀ p, a ≠ .drop p) :
    (∀ c, obtained s a = some c → t.holder = some c) ∧
      (installed s a = none → t.holder = s.holder) := by
  cases move_of_step hstep with
  | getHeld hpc hheld =>
      simp [obtained, returned, installed, hpc, hheld, State.goto]
  | getEmpty hpc hnone =>
      simp [obtained, returned, installed, hpc, hnone, State.goto]
  | set hpc => simp [obtained, returned, installed, hpc]
  | drop hpc => exact absurd rfl (hdrop _)
  | _ => simp [obtained, returned, installed, State.goto]

theorem installed_eq_none
    {s t : State} {a : Action} (hempty : s.InstallsOnEmpty) {c : ChannelId}
    (hheld : s.holder = some c) (hstep : step s a = some t) :
    installed s a = none := by
  cases move_of_step hstep with
  | set hpc =>
      rw [hempty _ _ hstep] at hheld
      contradiction
  | _ => rfl

/-- Every state of the run `acts` from `s` is about to install on an empty
holder, and no step of it drops. -/
structure Undropped (s : State) (acts : List Action) : Prop where
  empty : ∀ front m, front <+: acts →
    TransitionSystem.exec step s front = some m → m.InstallsOnEmpty
  noDrop : ∀ p, .drop p ∉ acts

theorem Undropped.tail
    {s t : State} {a : Action} {acts : List Action}
    (hun : Undropped s (a :: acts)) (hstep : step s a = some t) :
    Undropped t acts := by
  constructor
  · intro front m hfront hrun
    exact hun.empty (a :: front) m (List.cons_prefix_cons.mpr ⟨rfl, hfront⟩)
      (TransitionSystem.exec_cons_eq_some.mpr ⟨t, hstep, hrun⟩)
  · intro p hmem
    exact hun.noDrop p (List.mem_cons_of_mem a hmem)

theorem Undropped.head
    {s t : State} {a : Action} {acts : List Action}
    (hun : Undropped s (a :: acts)) (hstep : step s a = some t) :
    s.InstallsOnEmpty ∧ (∀ c, obtained s a = some c → t.holder = some c) ∧
      (installed s a = none → t.holder = s.holder) := by
  have hdrop : ∀ p, a ≠ .drop p := by
    intro p heq
    exact hun.noDrop p (heq ▸ List.mem_cons_self)
  exact ⟨hun.empty [] s List.nil_prefix rfl, holder_of_step hstep hdrop⟩

theorem outputs_of_held
    {acts : List Action} {s t : State} {c : ChannelId}
    (hun : Undropped s acts) (hheld : s.holder = some c)
    (hrun : TransitionSystem.exec step s acts = some t) :
    TransitionSystem.outputs step installed s acts = [] ∧
      ∀ d ∈ TransitionSystem.outputs step obtained s acts, d = c := by
  induction acts generalizing s with
  | nil => simp [TransitionSystem.outputs]
  | cons a rest ih =>
      obtain ⟨m, hm, hrest⟩ := TransitionSystem.exec_cons_eq_some.mp hrun
      obtain ⟨hempty, hobtained, hsame⟩ := hun.head hm
      have hnone := installed_eq_none hempty hheld hm
      have hnext : m.holder = some c := by rw [hsame hnone, hheld]
      obtain ⟨hinstalled, hall⟩ := ih (hun.tail hm) hnext hrest
      rw [TransitionSystem.outputs_cons_of_step hm,
        TransitionSystem.outputs_cons_of_step hm, hnone, hinstalled]
      refine ⟨rfl, fun d hd => ?_⟩
      cases List.mem_append.mp hd with
      | inl hfirst =>
          have hd := hobtained d (by simpa using hfirst)
          rw [hnext] at hd
          exact (Option.some.inj hd).symm
      | inr hlater => exact hall d hlater

theorem outputs_of_undropped
    {acts : List Action} {s t : State} (hun : Undropped s acts)
    (hrun : TransitionSystem.exec step s acts = some t) :
    (TransitionSystem.outputs step installed s acts).length ≤ 1 ∧
      ∃ c, ∀ d ∈ TransitionSystem.outputs step obtained s acts, d = c := by
  induction acts generalizing s with
  | nil => exact ⟨Nat.zero_le 1, 0, by simp [TransitionSystem.outputs]⟩
  | cons a rest ih =>
      obtain ⟨m, hm, hrest⟩ := TransitionSystem.exec_cons_eq_some.mp hrun
      obtain ⟨hempty, hobtained, hsame⟩ := hun.head hm
      rw [TransitionSystem.outputs_cons_of_step hm,
        TransitionSystem.outputs_cons_of_step hm]
      cases hfirst : obtained s a with
      | some c =>
          obtain ⟨hinstalled, hall⟩ :=
            outputs_of_held (hun.tail hm) (hobtained c hfirst) hrest
          constructor
          · rw [hinstalled]
            cases installed s a with
            | none => exact Nat.zero_le 1
            | some d => exact le_rfl
          · refine ⟨c, fun d hd => ?_⟩
            rw [Option.toList_some, List.singleton_append,
              List.mem_cons] at hd
            exact hd.elim id (hall d)
      | none =>
          have hnone : installed s a = none := by
            unfold obtained at hfirst
            exact (Option.or_eq_none_iff.mp hfirst).2
          rw [hnone]
          exact ih (hun.tail hm) hrest

/-- In every state that a run passes a `set` that is possible there would find
an empty holder, whether the run makes it or not, and between two drops at
most one channel is installed and obtained, if and only if every step of the
run leaves connecting and installing to one party at a time. -/
theorem installs_on_empty_iff
    {acts : List Action} {s : State}
    (hrun : TransitionSystem.exec step start acts = some s) :
    (TransitionSystem.Always step State.InstallsOnEmpty start acts ∧
        OneChannelBetweenDrops acts) ↔
      TransitionSystem.Along step OneAtATime start acts := by
  have hstart : start.InstallsOnEmpty := by
    rw [installsOnEmpty_iff]
    intro _ _ _
    rfl
  have halways : TransitionSystem.Always step State.InstallsOnEmpty start
      acts ↔ TransitionSystem.Along step OneAtATime start acts :=
    TransitionSystem.always_iff_along (I := fun _ => True)
      (fun _ _ _ _ _ => trivial)
      (fun _ _ _ _ hempty halone hstep =>
        installsOnEmpty_of_step hempty halone hstep)
      (fun _ _ _ _ _ hstep hempty => oneAtATime_of_step hstep hempty)
      trivial hstart hrun
  rw [← halways]
  refine and_iff_left_of_imp fun hall => ?_
  intro before between later m t hsplit hdrop hbefore hbetween
  rw [TransitionSystem.always_iff_forall_prefix] at hall
  refine outputs_of_undropped ⟨fun front u hfront hfrontRun => ?_, hdrop⟩
    hbetween
  apply hall (before ++ front) u
  · obtain ⟨rest, hrest⟩ := hfront
    refine ⟨rest ++ later, ?_⟩
    rw [hsplit, ← hrest]
    simp
  · exact TransitionSystem.exec_append_eq_some.mpr ⟨m, hbefore, hfrontRun⟩

theorem installs_on_empty_iff_one_reconnect :
    ∃ s : State,
      TransitionSystem.exec step start
          [.get .ping, .connect .ping .connected, .set .ping,
            .get (.request 0), .finish .ping .pingTimeout, .drop .ping,
            .get .ping, .connect .ping .connected, .set .ping] = some s ∧
      ((TransitionSystem.Always step State.InstallsOnEmpty start
            [.get .ping, .connect .ping .connected, .set .ping,
              .get (.request 0), .finish .ping .pingTimeout, .drop .ping,
              .get .ping, .connect .ping .connected, .set .ping] ∧
          OneChannelBetweenDrops
            [.get .ping, .connect .ping .connected, .set .ping,
              .get (.request 0), .finish .ping .pingTimeout, .drop .ping,
              .get .ping, .connect .ping .connected, .set .ping]) ↔
        TransitionSystem.Along step OneAtATime start
          [.get .ping, .connect .ping .connected, .set .ping,
            .get (.request 0), .finish .ping .pingTimeout, .drop .ping,
            .get .ping, .connect .ping .connected, .set .ping]) :=
  ⟨_, rfl, installs_on_empty_iff rfl⟩

/-- Two requests find the holder empty and both connect; the second `set`
overwrites channel 0, on which the first request is running. -/
theorem second_set_overwrites_live_channel :
    ∃ s t : State,
      TransitionSystem.exec step start
          [.get (.request 0), .get (.request 1),
            .connect (.request 0) .connected,
            .connect (.request 1) .connected, .set (.request 0)] = some s ∧
        s.pc (.request 0) = .running 0 ∧ s.holder = some 0 ∧
        step s (.set (.request 1)) = some t ∧
        t.pc (.request 1) = .running 1 ∧ t.holder = some 1 ∧
        ¬ OneChannelBetweenDrops
          [.get (.request 0), .get (.request 1),
            .connect (.request 0) .connected,
            .connect (.request 1) .connected, .set (.request 0),
            .set (.request 1)] := by
  refine ⟨_, _, rfl, rfl, rfl, rfl, rfl, rfl, fun hone => ?_⟩
  have hlength := (hone [] _ [] start _ (List.append_nil _).symm (by simp) rfl
    rfl).1
  exact absurd hlength (by decide)

end Overwrites

end ChannelHolder
end GrpcExtensions
