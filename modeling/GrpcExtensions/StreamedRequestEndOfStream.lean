import GrpcExtensions.StreamedRequestInvariant

/-!
# End of stream and later bindings

`send_eof` marks the end in two ways: by a flag while no consumer is bound,
by an empty sender slot afterwards.  `set_sender` honours the flag and
returns without storing its sender, but it overwrites an empty slot.  The end
is therefore final exactly when it arrived before the first binding.
-/

namespace GrpcExtensions
namespace StreamedRequest

universe u

variable {α : Type u}

/-- What a final end of stream means for a state whose mutex is free: no
sender is stored, every send is refused and changes nothing else, and the
stream of every consumer that has been bound runs out after its queue. -/
structure State.Ended (s : State α) : Prop where
  unstored : s.stored = none
  refuses : ∀ item, s.send item = { s with refused := s.refused ++ [item] }
  finite : ∀ c, c < s.consumers → s.waiting c = false →
    (s.channel c).receiverAlive = true → (s.channel c).finished = false →
    ∃ last,
      TransitionSystem.exec (fun (ch : Channel α) (_ : Unit) => ch.recv)
          (s.channel c)
          (List.replicate ((s.channel c).queue.length + 1) ()) = some last ∧
        last.finished = true ∧ last.received = (s.channel c).placed

/-- From here on the end is final, whatever happens. -/
def State.EndSticky (s : State α) : Prop :=
  ∀ acts t, TransitionSystem.exec step s acts = some t →
    t.lock = none → t.Ended

theorem Move.flagged
    {s t : State α} {a : Action α} (hmove : Move s a t)
    (hflagged : s.Flagged) : t.Flagged := by
  obtain ⟨ended, hended⟩ := hflagged
  cases hmove with
  | sendBuffered item hlock hrequest =>
      rw [hended] at hrequest
      injection hrequest with hitems hflag
      contradiction
  | @bindDrain items hasEndOfStream c hlock hwaiting hrequest =>
      rw [hended] at hrequest
      injection hrequest with hitems hflag
      exact ⟨[], by rw [hflag]⟩
  | bindReplace c hlock hwaiting hrequest =>
      rw [hended] at hrequest
      contradiction
  | eofFlagged hlock hrequest => exact ⟨_, rfl⟩
  | eofTaken hlock hrequest =>
      rw [hended] at hrequest
      contradiction
  | drainBound hlock hrequest =>
      rw [hended] at hrequest
      injection hrequest with hitems hflag
      contradiction
  | _ => exact ⟨ended, hended⟩

theorem State.Flagged.ended
    {s : State α} (hflagged : s.Flagged) (hgood : s.WellFormed)
    (hlock : s.lock = none) : s.Ended := by
  have hunstored : s.stored = none := by
    obtain ⟨items, hrequest⟩ := hflagged
    exact stored_of_notInitialized hrequest
  refine ⟨hunstored, ?_, ?_⟩
  · intro item
    exact s.send_refused item (.inl hflagged)
  · intro c hc hwaiting hreceiver hunfinished
    have hdraining := draining_of_unlocked hlock
    have hheld : ¬ s.HoldsSender c := by
      simp [State.HoldsSender, hwaiting, hdraining, hunstored]
    have hsender : (s.channel c).senderAlive = false := by
      rw [← hgood.sender_iff c hc] at hheld
      simpa using hheld
    exact (s.channel c).reads_to_end hsender hreceiver hunfinished

theorem State.Flagged.endSticky
    {s : State α} (hflagged : s.Flagged) (hgood : s.WellFormed) :
    s.EndSticky := by
  intro acts t hrun hlock
  have hboth : t.WellFormed ∧ t.Flagged :=
    TransitionSystem.exec_invariant
      (I := fun s : State α => s.WellFormed ∧ s.Flagged)
      (fun _ _ _ hs hstep =>
        ⟨(move_of_step hstep).wellFormed hs.1,
          (move_of_step hstep).flagged hs.2⟩)
      ⟨hgood, hflagged⟩ hrun
  exact hboth.2.ended hboth.1 hlock

/-- One more `get_consumer` call undoes an end that was recorded by an empty
slot. -/
theorem not_endSticky_of_initialized
    {s : State α} (hlock : s.lock = none)
    (hrequest : s.request = .initialized none) : ¬ s.EndSticky := by
  intro hsticky
  have hrun :
      TransitionSystem.exec step s [.getConsumer, .setSender s.consumers] =
        some (s.getConsumer.setSender s.consumers) := by
    simp [TransitionSystem.exec, step, State.getConsumer, hlock]
  have hnext : s.getConsumer.request = .initialized none := hrequest
  have hended := hsticky _ _ hrun (by
    rw [s.getConsumer.setSender_initialized s.consumers hnext]
    exact hlock)
  have hunstored := hended.unstored
  rw [s.getConsumer.setSender_initialized s.consumers hnext] at hunstored
  simp [State.stored] at hunstored

/-- In every reachable state, the end that `send_eof` records is final if and
only if no consumer has been bound yet. -/
theorem sendEof_endSticky_iff
    {channelSize : ℕ} {acts : List (Action α)} {s t : State α}
    (hrun : TransitionSystem.exec step (newAsStream α channelSize) acts =
      some s)
    (heof : step s .sendEof = some t) :
    t.EndSticky ↔
      ∃ items hasEndOfStream,
        s.request = .notInitialized items hasEndOfStream := by
  have hgood := exec_wellFormed hrun
  have hmove := move_of_step heof
  have hgoodNext := hmove.wellFormed hgood
  constructor
  · intro hsticky
    cases hrequest : s.request with
    | notInitialized items hasEndOfStream => exact ⟨items, _, rfl⟩
    | initialized sender =>
        cases hmove with
        | eofFlagged hlock hflag =>
            rw [hrequest] at hflag
            contradiction
        | eofTaken hlock htaken =>
            exact absurd hsticky (not_endSticky_of_initialized hlock rfl)
  · rintro ⟨items, hasEndOfStream, hrequest⟩
    cases hmove with
    | eofFlagged hlock hflag =>
        exact State.Flagged.endSticky ⟨_, rfl⟩ hgoodNext
    | eofTaken hlock htaken =>
        rw [hrequest] at htaken
        contradiction

theorem sendEof_endSticky_iff_unbound :
    ∃ s t : State ℕ,
      TransitionSystem.exec step (newAsStream ℕ 1) [.send 7] = some s ∧
        step s .sendEof = some t ∧
        (t.EndSticky ↔
          ∃ items hasEndOfStream,
            s.request = .notInitialized items hasEndOfStream) := by
  have hrun : TransitionSystem.exec step (newAsStream ℕ 1) [.send 7] =
      some _ := rfl
  exact ⟨_, _, hrun, rfl, sendEof_endSticky_iff hrun rfl⟩

/-- The end arrives while the first consumer is bound; the consumer of the
next attempt is bound again, a send is accepted and no end ever comes. -/
theorem rebound_after_eof_stays_open :
    ∃ s t u : State ℕ,
      TransitionSystem.exec step (newAsStream ℕ 1)
          [.getConsumer, .setSender 0, .finishDrain] = some s ∧
        step s .sendEof = some t ∧
        TransitionSystem.exec step t
          [.getConsumer, .setSender 1, .send 7, .place] = some u ∧
        u.lock = none ∧ u.stored = some 1 ∧ u.accepted = [7] ∧
        (u.channel 1).senderAlive = true ∧ ¬ t.EndSticky := by
  refine ⟨_, _, _, rfl, rfl, rfl, rfl, rfl, rfl, rfl, ?_⟩
  intro hsticky
  have hended := hsticky [.getConsumer, .setSender 1, .send 7, .place] _
    rfl rfl
  have hunstored := hended.unstored
  contradiction

end StreamedRequest
end GrpcExtensions
