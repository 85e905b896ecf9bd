import GrpcExtensions.StreamedRequestInvariant

/-!
# Which accepted items survive

`send` and the drain of `set_sender` both give up on a closed receiver: the
first returns normally without the item, the second returns early and its
half-consumed drain takes the rest of the buffer with it.  An accepted item
is never lost in any other way, so a run conserves its items exactly as long
as no awaited send meets a closed receiver.
-/

namespace GrpcExtensions
namespace StreamedRequest

universe u

variable {α : Type u}

/-- Every accepted item is buffered or was placed in some consumer's channel,
and the buffer keeps the order of the accepted items. -/
structure State.Conserved (s : State α) : Prop where
  kept : (s.accepted : Multiset α) ≤ (s.buffered : Multiset α) + s.placed
  ordered : s.buffered.Sublist s.accepted

theorem State.Accounted.conserved_iff
    {s : State α} (hacc : s.Accounted) : s.Conserved ↔ s.lost = [] := by
  constructor
  · intro hconserved
    have hle := hconserved.kept
    rw [hacc.total] at hle
    have hzero : (s.lost : Multiset α) ≤ 0 :=
      le_of_add_le_add_left (a := (s.buffered : Multiset α) + s.placed)
        (by simpa using hle)
    simpa using hzero
  · intro hlost
    refine ⟨?_, hacc.suffix.sublist⟩
    have htotal := hacc.total
    rw [hlost, Multiset.coe_nil, add_zero] at htotal
    exact htotal.le

/-- The consumer and the item of the awaited `sender.send(item)`. -/
def State.placing (s : State α) : Option (ConsumerId × α) :=
  match s.lock with
  | some (.send c item) => some (c, item)
  | some (.drain c (item :: _)) => some (c, item)
  | _ => none

/-- The step completes an awaited send whose receiver is closed. -/
def SendsToClosed (s : State α) (a : Action α) : Prop :=
  a = .place ∧ ∃ c item, s.placing = some (c, item) ∧
    (s.channel c).receiverAlive = false

theorem not_sendsToClosed_of_open
    {s : State α} {c : ConsumerId} {item : α}
    (hplacing : s.placing = some (c, item))
    (hopen : (s.channel c).receiverAlive = true) (a : Action α) :
    ¬ SendsToClosed s a := by
  rintro ⟨_, d, other, hother, hclosed⟩
  rw [hplacing] at hother
  cases hother
  rw [hopen] at hclosed
  contradiction

/-- A step loses items exactly when it sends to a closed receiver. -/
theorem Move.lost_cases
    {s t : State α} {a : Action α} (hmove : Move s a t) :
    (¬ SendsToClosed s a ∧ t.lost = s.lost) ∨
      (SendsToClosed s a ∧ t.lost ≠ []) := by
  cases hmove with
  | @placeSend c item hlock hopen hroom =>
      have hplacing : s.placing = some (c, item) := by
        simp [State.placing, hlock]
      exact .inl ⟨not_sendsToClosed_of_open hplacing hopen _, rfl⟩
  | @placeDrain c item rest hlock hopen hroom =>
      have hplacing : s.placing = some (c, item) := by
        simp [State.placing, hlock]
      exact .inl ⟨not_sendsToClosed_of_open hplacing hopen _, rfl⟩
  | @placeSendClosed c item hlock hclosed =>
      refine .inr ⟨⟨rfl, c, item, ?_, hclosed⟩, by simp⟩
      simp [State.placing, hlock]
  | @placeDrainClosed c item rest hlock hclosed =>
      refine .inr ⟨⟨rfl, c, item, ?_, hclosed⟩, by simp⟩
      simp [State.placing, hlock]
  | _ =>
      refine .inl ⟨?_, rfl⟩
      rintro ⟨haction, _⟩
      contradiction

/-- No accepted item of a run is lost if and only if no awaited send of the
run met a closed receiver. -/
theorem conserved_iff_never_sendsToClosed
    {channelSize : ℕ} {acts : List (Action α)} {s : State α}
    (hrun : TransitionSystem.exec step (newAsStream α channelSize) acts =
      some s) :
    s.Conserved ↔
      TransitionSystem.Along step (fun s a => ¬ SendsToClosed s a)
        (newAsStream α channelSize) acts := by
  rw [(exec_accounted hrun).conserved_iff]
  refine TransitionSystem.along_iff_of_exec
    (I := fun _ => True) (G := fun s : State α => s.lost = [])
    (fun _ _ _ _ _ => trivial) ?_ ?_ trivial rfl hrun
  · intro before a after _ hlost hopen hstep
    rcases (move_of_step hstep).lost_cases with ⟨_, hsame⟩ | ⟨hclosed, _⟩
    · exact hsame.trans hlost
    · exact (hopen hclosed).elim
  · intro before a after _ hstep hlost
    rcases (move_of_step hstep).lost_cases with ⟨hopen, hsame⟩ | ⟨_, hnew⟩
    · exact ⟨hsame.symm.trans hlost, hopen⟩
    · exact (hnew hlost).elim

theorem conserved_iff_never_sendsToClosed_one_item :
    ∃ s : State ℕ,
      TransitionSystem.exec step (newAsStream ℕ 1)
          [.send 7, .getConsumer, .setSender 0, .place, .finishDrain] =
        some s ∧
      (s.Conserved ↔
        TransitionSystem.Along step (fun s a => ¬ SendsToClosed s a)
          (newAsStream ℕ 1)
          [.send 7, .getConsumer, .setSender 0, .place, .finishDrain]) :=
  ⟨_, rfl, conserved_iff_never_sendsToClosed rfl⟩

/-- The receiver closes after the first of two buffered items: `set_sender`
returns at the second one, which is then in no buffer and in no channel. -/
theorem closed_during_drain_loses_rest :
    ∃ s : State ℕ,
      TransitionSystem.exec step (newAsStream ℕ 1)
          [.send 1, .send 2, .getConsumer, .setSender 0, .place, .close 0,
            .place] = some s ∧
        s.lock = none ∧ s.accepted = [1, 2] ∧ s.buffered = [] ∧
        ¬ s.Conserved := by
  have hrun : TransitionSystem.exec step (newAsStream ℕ 1)
      [.send 1, .send 2, .getConsumer, .setSender 0, .place, .close 0,
        .place] = some _ := rfl
  refine ⟨_, hrun, rfl, rfl, rfl, ?_⟩
  rw [(exec_accounted hrun).conserved_iff]
  simp

end StreamedRequest
end GrpcExtensions
