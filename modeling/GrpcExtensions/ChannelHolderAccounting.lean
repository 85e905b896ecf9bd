import GrpcExtensions.ChannelHolderRetries
import Mathlib.Data.Finset.Card

/-!
# Reconnects are paid for by failures

Every `drop_channel` answers one failed call, so the holder is emptied as often
as calls have failed.  A party installs a channel only after it has found the
holder empty, which it was at the start and behind each drop.
-/

namespace GrpcExtensions
namespace ChannelHolder

def Action.drops : Action → Bool
  | .drop _ => true
  | _ => false

/-- A call ends in a way that drops the channel. -/
def Action.fails : Action → Bool
  | .finish _ outcome => outcome.dropsChannel
  | _ => false

def Action.installs (p : Party) : Action → Bool
  | .set q => q == p
  | _ => false

/-- A party that has found the holder empty and not installed yet. -/
def Pc.pending : Pc → Bool
  | .connecting _ => true
  | .installing _ => true
  | _ => false

def State.Dropping (s : State) (p : Party) : Prop :=
  ∃ c, s.pc p = .dropping c

/-- The failures so far have been answered by a drop or are about to be. -/
def State.Answered (s : State) (past : List Action) : Prop :=
  ∃ dropping : Finset Party,
    (∀ p, p ∈ dropping ↔ s.Dropping p) ∧
      past.countP Action.drops + dropping.card = past.countP Action.fails

section Drops

variable {s t : State} {a : Action} {past : List Action}

theorem dropping_of_ne
    (hmove : Move s a t) {p : Party} (hne : p ≠ a.party) :
    t.Dropping p ↔ s.Dropping p := by
  unfold State.Dropping
  rw [hmove.pc_of_ne hne]

theorem not_dropping {p : Party} {pc : Pc} (hpc : s.pc p = pc)
    (hne : ∀ c, pc ≠ .dropping c) : ¬ s.Dropping p := by
  intro hdropping
  rcases hdropping with ⟨c, hc⟩
  exact hne c (hpc.symm.trans hc)

/-- Who moves neither from nor to a drop leaves the drops alone. -/
theorem answered_of_kept
    (hanswered : s.Answered past) (hmove : Move s a t)
    (hbefore : ¬ s.Dropping a.party) (hafter : ¬ t.Dropping a.party)
    (hdrops : a.drops = false) (hfails : a.fails = false) :
    t.Answered (past ++ [a]) := by
  rcases hanswered with ⟨dropping, hmem, hcount⟩
  refine ⟨dropping, ?_, ?_⟩
  · intro p
    rw [hmem]
    by_cases hown : p = a.party
    · rw [hown]
      exact iff_of_false hbefore hafter
    · exact (dropping_of_ne hmove hown).symm
  · simp only [List.countP_append, List.countP_singleton, hdrops, hfails,
      Bool.false_eq_true, if_false, Nat.add_zero]
    exact hcount

theorem Move.answered
    (hmove : Move s a t) (hanswered : s.Answered past) :
    t.Answered (past ++ [a]) := by
  have hstep := hmove
  cases hmove with
  | @failed p c outcome hpc hmeet hdead =>
      rcases hanswered with ⟨dropping, hmem, hcount⟩
      have hnew : p ∉ dropping := by
        rw [hmem]
        exact not_dropping hpc (by simp)
      refine ⟨insert p dropping, ?_, ?_⟩
      · intro q
        rw [Finset.mem_insert, hmem]
        by_cases heq : q = p
        · subst heq
          exact iff_of_true (.inl rfl) ⟨c, goto_pc_self ..⟩
        · have hother := dropping_of_ne hstep heq
          rw [hother, or_iff_right heq]
      · rw [Finset.card_insert_of_notMem hnew, List.countP_append,
          List.countP_append]
        simp only [List.countP_singleton, Action.drops, Action.fails, hdead,
          Bool.false_eq_true, if_false, if_true]
        omega
  | @drop p c hpc =>
      rcases hanswered with ⟨dropping, hmem, hcount⟩
      have hold : p ∈ dropping := (hmem p).mpr ⟨c, hpc⟩
      refine ⟨dropping.erase p, ?_, ?_⟩
      · intro q
        rw [Finset.mem_erase, hmem]
        by_cases heq : q = p
        · subst heq
          exact iff_of_false (fun h => h.1 rfl)
            (not_dropping (goto_pc_self ..) (by simp))
        · have hother := dropping_of_ne hstep heq
          rw [hother, and_iff_right heq]
      · have hcard := Finset.card_erase_add_one hold
        simp only [List.countP_append, List.countP_singleton, Action.drops,
          Action.fails, Bool.false_eq_true, if_false, if_true]
        omega
  | getHeld hpc hheld =>
      exact answered_of_kept hanswered hstep (not_dropping hpc (by simp))
        (not_dropping (goto_pc_self ..) (by simp)) rfl rfl
  | getEmpty hpc hempty =>
      exact answered_of_kept hanswered hstep (not_dropping hpc (by simp))
        (not_dropping (goto_pc_self ..) (by simp)) rfl rfl
  | connected hpc =>
      exact answered_of_kept hanswered hstep (not_dropping hpc (by simp))
        (not_dropping (goto_pc_self ..) (by simp)) rfl rfl
  | gaveUp hpc hlast =>
      exact answered_of_kept hanswered hstep (not_dropping hpc (by simp))
        (not_dropping (goto_pc_self ..) (by simp)) rfl rfl
  | connectAgain hpc hmore =>
      exact answered_of_kept hanswered hstep (not_dropping hpc (by simp))
        (not_dropping (goto_pc_self ..) (by simp)) rfl rfl
  | set hpc =>
      exact answered_of_kept hanswered hstep (not_dropping hpc (by simp))
        (not_dropping (goto_pc_self ..) (by simp)) rfl rfl
  | ended hpc hmeet halive =>
      exact answered_of_kept hanswered hstep (not_dropping hpc (by simp))
        (not_dropping (goto_pc_self ..) (by simp)) rfl halive

theorem start_answered : start.Answered [] := by
  refine ⟨∅, ?_, rfl⟩
  intro p
  have hidle : start.pc p = .idle := rfl
  exact iff_of_false (Finset.notMem_empty p) (not_dropping hidle (by simp))

end Drops

/-- How often one party has installed a channel, against the drops of all. -/
structure State.Thrifty (p : Party) (s : State) (past : List Action) :
    Prop where
  bound : past.countP (Action.installs p) + (s.pc p).pending.toNat ≤
    past.countP Action.drops + 1
  /-- An empty holder has been dropped since the party installed. -/
  empty : s.holder = none → (s.pc p).pending = false →
    past.countP (Action.installs p) ≤ past.countP Action.drops

section Installs

variable {s t : State} {a : Action} {past : List Action} {p : Party}

theorem thrifty_of_other
    (hthrifty : State.Thrifty p s past) (hmove : Move s a t)
    (hne : p ≠ a.party) : State.Thrifty p t (past ++ [a]) := by
  have hpc := hmove.pc_of_ne hne
  have hinstalls : (past ++ [a]).countP (Action.installs p) =
      past.countP (Action.installs p) := by
    rw [List.countP_append, List.countP_singleton, if_neg, Nat.add_zero]
    cases a with
    | set q =>
        have hother : ¬ q = p := fun heq => hne heq.symm
        simpa [Action.installs] using hother
    | _ => exact Bool.false_ne_true
  have hdrops : (past ++ [a]).countP Action.drops =
      past.countP Action.drops + a.drops.toNat := by
    rw [List.countP_append, List.countP_singleton]
    cases a.drops <;> rfl
  have hbound := hthrifty.bound
  constructor
  · rw [hinstalls, hdrops, hpc]
    omega
  · intro hempty hpending
    rw [hpc] at hpending
    rw [hinstalls, hdrops]
    cases hmove with
    | drop hdropping =>
        simp only [Action.drops, Bool.toNat_true]
        omega
    | set hinstalling => contradiction
    | _ => exact Nat.le_add_right_of_le (hthrifty.empty hempty hpending)

theorem thrifty_of_own
    (hthrifty : State.Thrifty p s past) (hmove : Move s a t)
    (hown : a.party = p) : State.Thrifty p t (past ++ [a]) := by
  subst hown
  have hbound := hthrifty.bound
  have hempty := hthrifty.empty
  cases hmove with
  | getHeld hpc hheld =>
      simp only [Action.party, hpc] at hbound
      constructor
      · simpa [Action.party, Action.installs, Action.drops, Pc.pending] using
          hbound
      · intro hnone
        simp only [State.goto, hheld] at hnone
        contradiction
  | getEmpty hpc hnone =>
      simp only [Action.party, hpc] at hempty
      have hle := hempty hnone rfl
      constructor
      · simpa [Action.party, Action.installs, Action.drops, Pc.pending] using
          hle
      · intro _ hpending
        simp [Action.party, Pc.pending] at hpending
  | connected hpc =>
      simp only [Action.party, hpc] at hbound
      constructor
      · simpa [Action.party, Action.installs, Action.drops, Pc.pending] using
          hbound
      · intro _ hpending
        simp [Action.party, Pc.pending] at hpending
  | gaveUp hpc hlast =>
      simp only [Action.party, hpc, Pc.pending, Bool.toNat_true] at hbound
      have hle := Nat.le_of_succ_le_succ hbound
      constructor
      · simpa [Action.party, Action.installs, Action.drops, Pc.pending] using
          Nat.le_succ_of_le hle
      · intro _ _
        simpa [Action.party, Action.installs, Action.drops] using hle
  | connectAgain hpc hmore =>
      simp only [Action.party, hpc] at hbound
      constructor
      · simpa [Action.party, Action.installs, Action.drops, Pc.pending] using
          hbound
      · intro _ hpending
        simp [Action.party, Pc.pending] at hpending
  | set hpc =>
      simp only [Action.party, hpc] at hbound
      constructor
      · simpa [Action.party, Action.installs, Action.drops, Pc.pending] using
          hbound
      · intro hnone
        contradiction
  | failed hpc hmeet hdead =>
      simp only [Action.party, hpc] at hbound hempty
      constructor
      · simpa [Action.party, Action.installs, Action.drops, Pc.pending] using
          hbound
      · intro hnone _
        simpa [Action.party, Action.installs, Action.drops] using
          hempty hnone rfl
  | ended hpc hmeet halive =>
      simp only [Action.party, hpc] at hbound hempty
      constructor
      · simpa [Action.party, Action.installs, Action.drops, Pc.pending] using
          hbound
      · intro hnone _
        simpa [Action.party, Action.installs, Action.drops] using
          hempty hnone rfl
  | drop hpc =>
      simp only [Action.party, hpc, Pc.pending, Bool.toNat_false] at hbound
      constructor
      · simpa [Action.party, Action.installs, Action.drops, Pc.pending] using
          Nat.le_succ_of_le hbound
      · intro _ _
        simpa [Action.party, Action.installs, Action.drops] using hbound

end Installs

theorem start_thrifty (p : Party) : State.Thrifty p start [] := by
  constructor
  · exact Nat.zero_le 1
  · intro _ _
    exact Nat.le_refl 0

/-- The drops are as many as the calls that have failed, but for those that
are about to be made, and no party installs more than one channel in addition
to one for each drop. -/
theorem reconnects_follow_failures
    {acts : List Action} {s : State}
    (hrun : TransitionSystem.exec step start acts = some s) :
    (∃ dropping : Finset Party,
      (∀ p, p ∈ dropping ↔ ∃ c, s.pc p = .dropping c) ∧
        acts.countP Action.drops + dropping.card =
          acts.countP Action.fails) ∧
      ∀ p, acts.countP (Action.installs p) ≤ acts.countP Action.fails + 1 := by
  have hanswered : s.Answered acts :=
    TransitionSystem.exec_history (I := State.Answered)
      (fun _ _ _ _ hs hstep => (move_of_step hstep).answered hs)
      start_answered hrun
  refine ⟨hanswered, ?_⟩
  intro p
  have hthrifty : State.Thrifty p s acts :=
    TransitionSystem.exec_history (I := State.Thrifty p)
      (fun s past a t hs hstep => by
        by_cases hown : a.party = p
        · exact thrifty_of_own hs (move_of_step hstep) hown
        · exact thrifty_of_other hs (move_of_step hstep) fun heq =>
            hown heq.symm)
      (start_thrifty p) hrun
  rcases hanswered with ⟨dropping, _, hcount⟩
  have hbound := hthrifty.bound
  omega

theorem reconnects_follow_failures_one_timeout :
    ∃ s : State,
      TransitionSystem.exec step start
          [.get .ping, .connect .ping .connected, .set .ping,
            .finish .ping .pingTimeout, .drop .ping, .get .ping,
            .connect .ping .connected, .set .ping] = some s ∧
        [Action.get .ping, .connect .ping .connected, .set .ping,
            .finish .ping .pingTimeout, .drop .ping, .get .ping,
            .connect .ping .connected, .set .ping].countP
          (Action.installs .ping) ≤ 1 + 1 := by
  have hrun : TransitionSystem.exec step start
      [.get .ping, .connect .ping .connected, .set .ping,
        .finish .ping .pingTimeout, .drop .ping, .get .ping,
        .connect .ping .connected, .set .ping] = some _ := rfl
  exact ⟨_, hrun, (reconnects_follow_failures hrun).2 .ping⟩

end ChannelHolder
end GrpcExtensions
