import GrpcExtensions.StreamedRequestTracking

/-!
# Several consumers of one request

Every `get_consumer` call binds a consumer anew, but the buffer is drained
only once.  A consumer that reads its stream to the end has been handed
everything exactly when nothing had left the buffer before its own binding
and no other binding took its place before the producer was done.
-/

namespace GrpcExtensions
namespace StreamedRequest

universe u

variable {α : Type u}

/-- What a step can only add to: consumers, placed items, lost items, senders
that are gone and streams read to the end. -/
structure State.Extends (s t : State α) : Prop where
  consumers : s.consumers ≤ t.consumers
  placed : ∀ c, c < s.consumers →
    (s.channel c).placed <+: (t.channel c).placed
  lost : s.lost <+: t.lost
  gone : ∀ c, c < s.consumers → (s.channel c).senderAlive = false →
    (t.channel c).senderAlive = false ∧
      (t.channel c).placed = (s.channel c).placed
  finished : ∀ c, c < s.consumers → (s.channel c).finished = true →
    (t.channel c).finished = true

/-- Changing the channel of one consumer, without placing anything unless its
sender is alive. -/
theorem State.Extends.of_update
    {s t : State α} {c : ConsumerId} {next : Channel α}
    (hconsumers : t.consumers = s.consumers)
    (hchannel : t.channel = Function.update s.channel c next)
    (hlost : s.lost <+: t.lost)
    (hplaced : (s.channel c).placed <+: next.placed)
    (hgone : (s.channel c).senderAlive = false →
      next.senderAlive = false ∧ next.placed = (s.channel c).placed)
    (hfinished : (s.channel c).finished = true → next.finished = true) :
    s.Extends t := by
  refine ⟨hconsumers.ge, ?_, hlost, ?_, ?_⟩
  · intro d hd
    rw [hchannel]
    by_cases heq : d = c
    · subst d
      rw [Function.update_self]
      exact hplaced
    · rw [Function.update_of_ne heq]
  · intro d hd hdead
    rw [hchannel]
    by_cases heq : d = c
    · subst d
      rw [Function.update_self]
      exact hgone hdead
    · rw [Function.update_of_ne heq]
      exact ⟨hdead, rfl⟩
  · intro d hd hread
    rw [hchannel]
    by_cases heq : d = c
    · subst d
      rw [Function.update_self]
      exact hfinished hread
    · rw [Function.update_of_ne heq]
      exact hread

theorem State.Extends.of_channel_eq
    {s t : State α} (hconsumers : t.consumers = s.consumers)
    (hchannel : t.channel = s.channel) (hlost : s.lost <+: t.lost) :
    s.Extends t := by
  refine ⟨hconsumers.ge, ?_, hlost, ?_, ?_⟩
  · intro c hc
    rw [hchannel]
  · intro c hc hdead
    rw [hchannel]
    exact ⟨hdead, rfl⟩
  · intro c hc hread
    rw [hchannel]
    exact hread

theorem State.Extends.of_dropStored
    {s t : State α} {existing : Option ConsumerId}
    (hconsumers : t.consumers = s.consumers)
    (hchannel : t.channel = dropStored s.channel existing)
    (hlost : s.lost <+: t.lost) : s.Extends t := by
  cases existing with
  | none => exact .of_channel_eq hconsumers hchannel hlost
  | some c =>
      exact .of_update hconsumers hchannel hlost
        (List.prefix_refl _) (fun _ => ⟨rfl, rfl⟩) id

theorem Move.extends
    {s t : State α} {a : Action α} (hmove : Move s a t)
    (hgood : s.WellFormed) : s.Extends t := by
  have hheld : ∀ c, s.draining = some c ∨ s.stored = some c →
      (s.channel c).senderAlive ≠ false := by
    intro c hbound hdead
    have halive := (hgood.sender_iff c (hgood.bound c hbound).1).mpr
      (.inr hbound)
    rw [hdead] at halive
    contradiction
  cases hmove with
  | getConsumer =>
      have hsame : ∀ c, c < s.consumers →
          s.getConsumer.channel c = s.channel c := by
        intro c hc
        exact Function.update_of_ne hc.ne _ _
      refine ⟨Nat.le_succ _, ?_, List.prefix_refl _, ?_, ?_⟩
      · intro c hc
        rw [hsame c hc]
      · intro c hc hdead
        rw [hsame c hc]
        exact ⟨hdead, rfl⟩
      · intro c hc hread
        rw [hsame c hc]
        exact hread
  | bindReplace c hlock hwaiting hrequest =>
      exact .of_dropStored rfl rfl (List.prefix_refl _)
  | eofTaken hlock hrequest =>
      exact .of_dropStored rfl rfl (List.prefix_refl _)
  | @placeSend c item hlock hopen hroom =>
      refine .of_update rfl rfl (List.prefix_refl _) ?_ ?_ id
      · rw [Channel.push_placed]
        exact List.prefix_append _ _
      · intro hdead
        exact absurd hdead (hheld c (.inr (hgood.sendLock c item hlock)))
  | placeSendClosed hlock hclosed =>
      exact .of_channel_eq rfl rfl (List.prefix_append _ _)
  | @placeDrain c item rest hlock hopen hroom =>
      refine .of_update rfl rfl (List.prefix_refl _) ?_ ?_ id
      · rw [Channel.push_placed]
        exact List.prefix_append _ _
      · intro hdead
        exact absurd hdead
          (hheld c (.inl (draining_of_drain hlock)))
  | placeDrainClosed hlock hclosed =>
      exact .of_update rfl rfl (List.prefix_append _ _)
        (List.prefix_refl _) (fun _ => ⟨rfl, rfl⟩) id
  | drainEnded hlock hrequest =>
      exact .of_update rfl rfl (List.prefix_refl _)
        (List.prefix_refl _) (fun _ => ⟨rfl, rfl⟩) id
  | recvItem c hc hopen hunfinished hqueue =>
      exact .of_update rfl rfl (List.prefix_refl _)
        (by rw [Channel.pop_placed])
        (fun hdead => ⟨hdead, Channel.pop_placed _⟩) id
  | recvEnd c hc hopen hunfinished hqueue hsender =>
      exact .of_update rfl rfl (List.prefix_refl _)
        (List.prefix_refl _) (fun hdead => ⟨hdead, rfl⟩) (fun _ => rfl)
  | close c hc =>
      exact .of_update rfl rfl (List.prefix_refl _)
        (List.prefix_refl _) (fun hdead => ⟨hdead, rfl⟩) id
  | _ => exact .of_channel_eq rfl rfl (List.prefix_refl _)

namespace Session

/-- The consumer's binding finds the buffer untouched, and another binding
takes its place only after the producer's last item. -/
def Undisturbed (c : ConsumerId) (session : Session α) :
    SessionAction → Prop
  | .task (.setSender d) =>
      if d = c then session.shared.placed = 0 ∧ session.shared.lost = []
      else session.shared.stored = some c → session.todo = []
  | _ => True

/-- What `c` needs in order to end up with all of `xs`: the items have gone
nowhere else, and its sender is not gone before the last one. -/
structure Reserved (xs : List α) (c : ConsumerId) (session : Session α) :
    Prop where
  alone : ∀ d, d < session.shared.consumers → d ≠ c →
    (session.shared.channel d).placed = []
  lossless : session.shared.lost = []
  gone : c < session.shared.consumers →
    (session.shared.channel c).senderAlive = false →
    (session.shared.channel c).placed.length = xs.length

theorem Reserved.of_extends
    {xs : List α} {c : ConsumerId} {session after : Session α}
    (hextends : session.shared.Extends after.shared)
    (hreserved : after.Reserved xs c) : session.Reserved xs c := by
  constructor
  · intro d hd hne
    have hprefix := hextends.placed d hd
    rw [hreserved.alone d (hd.trans_le hextends.consumers) hne] at hprefix
    exact List.prefix_nil.mp hprefix
  · have hprefix := hextends.lost
    rw [hreserved.lossless] at hprefix
    exact List.prefix_nil.mp hprefix
  · intro hc hdead
    obtain ⟨hdeadNext, hsame⟩ := hextends.gone c hc hdead
    rw [← hsame]
    exact hreserved.gone (hc.trans_le hextends.consumers) hdeadNext

theorem Sound.length_eq
    {xs : List α} {session : Session α} (hsound : session.Sound xs) :
    session.shared.buffered.length + Multiset.card session.shared.placed +
        session.shared.lost.length + session.shared.inflight.length +
        session.todo.length = xs.length := by
  have htotal := congrArg Multiset.card hsound.accounted.total
  have hsent := congrArg List.length hsound.sent
  simp only [Multiset.coe_card, Multiset.card_add, List.length_append]
    at htotal hsent
  omega

theorem card_placed (s : State α) :
    Multiset.card s.placed =
      ∑ c ∈ Finset.range s.consumers, (s.channel c).placed.length := by
  simp [State.placed]

theorem length_placed_le {s : State α} {c : ConsumerId}
    (hc : c < s.consumers) :
    (s.channel c).placed.length ≤ Multiset.card s.placed := by
  rw [card_placed]
  exact Finset.single_le_sum (f := fun d => (s.channel d).placed.length)
    (fun _ _ => Nat.zero_le _) (Finset.mem_range.mpr hc)

theorem Sound.todo_of_placed
    {xs : List α} {session : Session α} (hsound : session.Sound xs)
    {c : ConsumerId} (hc : c < session.shared.consumers)
    (hplaced : (session.shared.channel c).placed.length = xs.length) :
    session.todo = [] := by
  have hle := length_placed_le hc
  have hlength := hsound.length_eq
  have hzero : session.todo.length = 0 := by omega
  exact List.length_eq_zero_iff.mp hzero

theorem Sound.reserved_of_placed
    {xs : List α} {session : Session α} (hsound : session.Sound xs)
    {c : ConsumerId} (hc : c < session.shared.consumers)
    (hplaced : (session.shared.channel c).placed = xs) :
    session.Reserved xs c := by
  have hlength := hsound.length_eq
  have hle := length_placed_le hc
  rw [hplaced] at hle
  constructor
  · intro d hd hne
    have hboth : (session.shared.channel c).placed.length +
        (session.shared.channel d).placed.length ≤
          Multiset.card session.shared.placed := by
      rw [card_placed]
      exact Finset.add_le_sum
        (f := fun e => (session.shared.channel e).placed.length)
        (fun _ _ => Nat.zero_le _) (Finset.mem_range.mpr hc)
        (Finset.mem_range.mpr hd) hne.symm
    rw [hplaced] at hboth
    have hzero : (session.shared.channel d).placed.length = 0 := by omega
    exact List.length_eq_zero_iff.mp hzero
  · have hzero : session.shared.lost.length = 0 := by omega
    exact List.length_eq_zero_iff.mp hzero
  · intro _ _
    rw [hplaced]

theorem Moves.extends
    {xs : List α} {session after : Session α} {a : SessionAction}
    (hmoves : Moves session a after) (hsound : session.Sound xs) :
    session.shared.Extends after.shared := by
  cases hmoves with
  | send htodo hmove => exact hmove.extends hsound.good
  | dropProducer htodo halive hidle =>
      exact .of_channel_eq rfl rfl (List.prefix_refl _)
  | sendEof hspawned hmove => exact hmove.extends hsound.good
  | task task hmove => exact hmove.extends hsound.good

/-- A consumer that can still end up with everything after the step could do
so before it, and the step has left it undisturbed. -/
theorem Moves.undisturbed
    {xs : List α} {c : ConsumerId} {session after : Session α}
    {a : SessionAction} (hmoves : Moves session a after)
    (hsound : session.Sound xs) (hreserved : after.Reserved xs c) :
    Undisturbed c session a := by
  have hbefore := hreserved.of_extends (hmoves.extends hsound)
  have hgood := hsound.good
  cases hmoves with
  | send htodo hmove => trivial
  | dropProducer htodo halive hidle => trivial
  | sendEof hspawned hmove => trivial
  | @task next task hmove =>
      cases task with
      | setSender d =>
          by_cases heq : d = c
          · subst d
            simp only [Undisturbed, if_true]
            refine ⟨?_, hbefore.lossless⟩
            have hempty : (session.shared.channel c).placed = [] := by
              cases hmove with
              | bindDrain c hlock hwaiting hrequest =>
                  exact (hgood.waiting c hwaiting).2
              | bindReplace c hlock hwaiting hrequest =>
                  exact (hgood.waiting c hwaiting).2
            apply Finset.sum_eq_zero
            intro e he
            by_cases hc : e = c
            · rw [hc, hempty, Multiset.coe_nil]
            · rw [hbefore.alone e (Finset.mem_range.mp he) hc,
                Multiset.coe_nil]
          · simp only [Undisturbed, if_neg heq]
            intro hstored
            have hc := (hgood.bound c (.inr hstored)).1
            cases hmove with
            | bindDrain d hlock hwaiting hrequest =>
                simp [State.stored, hrequest] at hstored
            | @bindReplace existing d hlock hwaiting hrequest =>
                have hexisting : existing = some c := by
                  simpa [State.stored, hrequest] using hstored
                subst existing
                apply hsound.todo_of_placed hc
                rw [← dropStored_placed session.shared.channel (some c) c]
                apply hreserved.gone hc
                simp [dropStored]
      | _ => trivial

/-- A session step keeps track of an undisturbed consumer. -/
theorem Moves.tracked
    {xs : List α} {c : ConsumerId} {session after : Session α}
    {a : SessionAction} (hmoves : Moves session a after)
    (hsound : session.Sound xs) (htracked : session.shared.Tracked xs c)
    (hundisturbed : Undisturbed c session a) :
    after.shared.Tracked xs c := by
  have hgood := hsound.good
  cases hmoves with
  | send htodo hmove =>
      apply hmove.tracked hgood htracked
      · simp
      · simp
      · rintro (hflagged | heof)
        · exact hsound.accepted_of_flagged hflagged
        · contradiction
  | dropProducer htodo halive hidle => exact htracked
  | sendEof hspawned hmove =>
      apply hmove.tracked hgood htracked
      · simp
      · simp
      · intro _
        exact hsound.accepted_of_quiet (by simp [hspawned])
  | @task next task hmove =>
      apply hmove.tracked hgood htracked
      · intro hbind
        cases task with
        | setSender d =>
            have heq : d = c := by simpa [Task.action] using hbind
            subst d
            simp only [Undisturbed, if_true] at hundisturbed
            exact hsound.accounted.accepted_of_untouched hundisturbed.1
              hundisturbed.2
        | _ => simp [Task.action] at hbind
      · intro d hbind hne hstored
        cases task with
        | setSender e =>
            have heq : e = d := by simpa [Task.action] using hbind
            subst e
            simp only [Undisturbed, if_neg hne] at hundisturbed
            have hlock : session.shared.lock = none := by
              cases hmove <;> assumption
            have hsent := hsound.sent
            simpa [hundisturbed hstored, State.inflight, hlock] using hsent
        | _ => simp [Task.action] at hbind
      · rintro (hflagged | heof)
        · exact hsound.accepted_of_flagged hflagged
        · cases task <;> simp [Task.action] at heof

theorem exec_sound
    {channelSize : ℕ} {xs : List α} {acts : List SessionAction}
    {session : Session α}
    (hrun : TransitionSystem.exec Session.step (start channelSize xs) acts =
      some session) : session.Sound xs :=
  TransitionSystem.exec_invariant
    (fun _ _ _ hsound hstep => (moves_of_step hstep).sound hsound)
    (start_sound channelSize xs) hrun

/-- A consumer that has read its stream to the end has received all of `xs`
if and only if it was never disturbed. -/
theorem received_all_iff
    {channelSize : ℕ} {xs : List α} {acts : List SessionAction}
    {session : Session α} {c : ConsumerId}
    (hrun : TransitionSystem.exec Session.step (start channelSize xs) acts =
      some session)
    (hc : c < session.shared.consumers)
    (hfinished : (session.shared.channel c).finished = true) :
    (session.shared.channel c).received = xs ↔
      TransitionSystem.Along Session.step (Undisturbed c)
        (start channelSize xs) acts := by
  have hsound := exec_sound hrun
  obtain ⟨hdead, hqueue⟩ := hsound.good.finished c hfinished
  rw [← Channel.placed_of_queue_nil hqueue]
  constructor
  · intro hplaced
    exact TransitionSystem.along_of_exec
      (I := fun s : Session α => s.Sound xs)
      (G := fun s : Session α => s.Reserved xs c)
      (fun _ _ _ hs hstep => (moves_of_step hstep).sound hs)
      (fun _ _ _ hs hstep hreserved =>
        ⟨hreserved.of_extends ((moves_of_step hstep).extends hs),
          (moves_of_step hstep).undisturbed hs hreserved⟩)
      (start_sound channelSize xs) hrun
      (hsound.reserved_of_placed hc hplaced)
  · intro halong
    have hboth : session.Sound xs ∧ session.shared.Tracked xs c :=
      TransitionSystem.exec_invariant_along
        (I := fun s : Session α => s.Sound xs ∧ s.shared.Tracked xs c)
        (fun _ _ _ hs hundisturbed hstep =>
          ⟨(moves_of_step hstep).sound hs.1,
            (moves_of_step hstep).tracked hs.1 hs.2 hundisturbed⟩)
        ⟨start_sound channelSize xs, newAsStream_tracked xs c channelSize⟩
        halong hrun
    apply hboth.2.gone hc
    · intro hholds
      rw [(hsound.good.sender_iff c hc).mpr hholds] at hdead
      contradiction
    · exact .inr hfinished

end Session

end StreamedRequest
end GrpcExtensions
