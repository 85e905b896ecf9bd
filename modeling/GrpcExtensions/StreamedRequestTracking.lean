import GrpcExtensions.StreamedRequestSession

/-!
# Following one consumer

What one consumer is handed depends on two events: what had left the buffer
when its `set_sender` task took the mutex, and whether another task replaced
its sender before the producer was done.  When neither happens, the items
placed in its channel are the accepted items from the binding to the end.
-/

namespace GrpcExtensions
namespace StreamedRequest

universe u

variable {α : Type u}

/-- The consumer has read its stream to the end or can still do so. -/
def State.Reading (s : State α) (c : ConsumerId) : Prop :=
  (s.channel c).receiverAlive = true ∨ (s.channel c).finished = true

/-- The channel of `c` carries the accepted items while `c` is bound, and all
of `xs` once its sender is gone. -/
structure State.Tracked (xs : List α) (c : ConsumerId) (s : State α) :
    Prop where
  unmade : s.consumers ≤ c → (s.channel c).placed = []
  draining : ∀ rest, s.lock = some (.drain c rest) →
    s.accepted = (s.channel c).placed ++ rest
  stored : s.stored = some c → s.Reading c →
    s.accepted = (s.channel c).placed
  gone : c < s.consumers → ¬ s.HoldsSender c → s.Reading c →
    (s.channel c).placed = xs

theorem State.reading_congr
    {s t : State α} {c : ConsumerId} (h : t.channel c = s.channel c) :
    t.Reading c ↔ s.Reading c := by
  rw [State.Reading, State.Reading, h]

theorem State.HoldsSender.congr
    {s t : State α} {c : ConsumerId} (hholds : s.HoldsSender c)
    (hwaiting : t.waiting c = s.waiting c)
    (hdraining : t.draining = s.draining)
    (hstored : t.stored = s.stored) : t.HoldsSender c := by
  rw [State.HoldsSender, hwaiting, hdraining, hstored]
  exact hholds

theorem newAsStream_tracked
    (xs : List α) (c : ConsumerId) (channelSize : ℕ) :
    (newAsStream α channelSize).Tracked xs c := by
  constructor <;> simp [newAsStream, State.stored]

/-- A step that leaves the consumer alone. -/
theorem State.Tracked.frame
    {xs : List α} {c : ConsumerId} {s t : State α}
    (htracked : s.Tracked xs c)
    (hconsumers : t.consumers = s.consumers)
    (hplaced : (t.channel c).placed = (s.channel c).placed)
    (hreading : t.Reading c → s.Reading c)
    (hdraining : ∀ rest, t.lock = some (.drain c rest) →
      s.lock = some (.drain c rest) ∧ t.accepted = s.accepted)
    (hstored : t.stored = some c →
      s.stored = some c ∧ t.accepted = s.accepted)
    (hheld : s.HoldsSender c → t.HoldsSender c) :
    t.Tracked xs c := by
  constructor
  · intro hunmade
    rw [hplaced]
    exact htracked.unmade (hconsumers ▸ hunmade)
  · intro rest hlock
    obtain ⟨hbefore, haccepted⟩ := hdraining rest hlock
    rw [haccepted, hplaced]
    exact htracked.draining rest hbefore
  · intro hbound hread
    obtain ⟨hbefore, haccepted⟩ := hstored hbound
    rw [haccepted, hplaced]
    exact htracked.stored hbefore (hreading hread)
  · intro hmade hdropped hread
    rw [hplaced]
    exact htracked.gone (hconsumers ▸ hmade)
      (fun hholds => hdropped (hheld hholds)) (hreading hread)

/-- The stored sender is dropped while the mutex is free, and `c` is not the
consumer that is bound instead. -/
theorem State.Tracked.of_dropStored
    {xs : List α} {c : ConsumerId} {s t : State α}
    {existing : Option ConsumerId}
    (htracked : s.Tracked xs c) (hlock : s.lock = none)
    (hconsumers : t.consumers = s.consumers)
    (hchannel : t.channel = dropStored s.channel existing)
    (hfree : t.lock = none) (hbound : t.stored ≠ some c)
    (hwaiting : t.waiting c = s.waiting c)
    (hlast : s.HoldsSender c → ¬ t.HoldsSender c → s.Reading c →
      s.accepted = xs) :
    t.Tracked xs c := by
  have hplaced : (t.channel c).placed = (s.channel c).placed := by
    simp [hchannel]
  have hreading : t.Reading c ↔ s.Reading c := by
    simp [State.Reading, hchannel]
  constructor
  · intro hunmade
    rw [hplaced]
    exact htracked.unmade (hconsumers ▸ hunmade)
  · intro rest hdrain
    rw [hdrain] at hfree
    contradiction
  · intro hstored
    exact absurd hstored hbound
  · intro hmade hdropped hread
    rw [hplaced]
    by_cases hholds : s.HoldsSender c
    · have haccepted := hlast hholds hdropped (hreading.mp hread)
      have hstored : s.stored = some c := by
        rcases hholds with hwaits | hdraining | hstored
        · exact absurd (.inl (hwaiting.trans hwaits)) hdropped
        · simp [State.draining, hlock] at hdraining
        · exact hstored
      rw [← haccepted]
      exact (htracked.stored hstored (hreading.mp hread)).symm
    · exact htracked.gone (hconsumers ▸ hmade) hholds (hreading.mp hread)

theorem State.WellFormed.not_reading_of_closed
    {s : State α} {c : ConsumerId} (hgood : s.WellFormed)
    (hheld : s.HoldsSender c) (hc : c < s.consumers)
    (hclosed : (s.channel c).receiverAlive = false) : ¬ s.Reading c := by
  rintro (hopen | hfinished)
  · rw [hclosed] at hopen
    contradiction
  · have hdead := (hgood.finished c hfinished).1
    rw [(hgood.sender_iff c hc).mpr hheld] at hdead
    contradiction

/-- Nothing has left the buffer: it still holds all accepted items. -/
theorem State.Accounted.accepted_of_untouched
    {s : State α} (hacc : s.Accounted)
    (hplaced : s.placed = 0) (hlost : s.lost = []) :
    s.accepted = s.buffered := by
  have htotal := hacc.total
  rw [hplaced, hlost, Multiset.coe_nil, add_zero, add_zero,
    Multiset.coe_eq_coe] at htotal
  exact (hacc.suffix.eq_of_length htotal.length_eq.symm).symm

section TrackedMoves

variable {xs : List α} {c : ConsumerId} {s : State α}

theorem State.Tracked.getConsumer
    (htracked : s.Tracked xs c) (hgood : s.WellFormed) :
    s.getConsumer.Tracked xs c := by
  by_cases heq : c = s.consumers
  · subst c
    constructor
    · intro hunmade
      exact absurd hunmade (Nat.not_succ_le_self s.consumers)
    · intro rest hlock
      have hdraining : s.draining = some s.consumers :=
        draining_of_drain hlock
      exact absurd (hgood.bound s.consumers (.inl hdraining)).1
        (lt_irrefl _)
    · intro hbound hread
      exact absurd (hgood.bound s.consumers (.inr hbound)).1 (lt_irrefl _)
    · intro hmade hdropped hread
      exact absurd (.inl (by simp [State.getConsumer])) hdropped
  · have hchannel : s.getConsumer.channel c = s.channel c := by
      simp [State.getConsumer, heq]
    have hwaiting : s.getConsumer.waiting c = s.waiting c := by
      simp [State.getConsumer, heq]
    constructor
    · intro hunmade
      rw [hchannel]
      exact htracked.unmade (Nat.le_of_succ_le hunmade)
    · intro rest hlock
      rw [hchannel]
      exact htracked.draining rest hlock
    · intro hbound hread
      rw [State.Reading, hchannel] at hread
      rw [hchannel]
      exact htracked.stored hbound hread
    · intro hmade hdropped hread
      have hlt : c < s.consumers :=
        lt_of_le_of_ne (Nat.lt_succ_iff.mp hmade) heq
      rw [State.Reading, hchannel] at hread
      rw [State.HoldsSender, hwaiting] at hdropped
      rw [hchannel]
      exact htracked.gone hlt hdropped hread

theorem State.Tracked.bindDrain
    {items : List α} {hasEndOfStream : Bool} {d : ConsumerId}
    (htracked : s.Tracked xs c) (hgood : s.WellFormed)
    (hlock : s.lock = none) (hwaiting : s.waiting d = true)
    (hrequest : s.request = .notInitialized items hasEndOfStream)
    (hfirst : d = c → s.accepted = s.buffered) :
    ({ s with
      request := .notInitialized [] hasEndOfStream
      lock := some (.drain d items)
      waiting := Function.update s.waiting d false } : State α).Tracked
        xs c := by
  by_cases heq : d = c
  · subst d
    have hbuffered :=
      buffered_of_notInitialized (draining_of_unlocked hlock) hrequest
    constructor
    · exact htracked.unmade
    · intro rest hdrain
      have hrest : items = rest := by simpa using hdrain
      rw [(hgood.waiting c hwaiting).2, List.nil_append, ← hrest,
        ← hbuffered]
      exact hfirst rfl
    · intro hbound
      simp [State.stored] at hbound
    · intro hmade hdropped
      exact absurd (.inr (.inl rfl)) hdropped
  · refine htracked.frame rfl rfl id ?_ ?_ ?_
    · intro rest hdrain
      simp only [Option.some.injEq, Awaiting.drain.injEq] at hdrain
      exact absurd hdrain.1 heq
    · intro hbound
      simp [State.stored] at hbound
    · intro hholds
      have hwaitingNext :
          Function.update s.waiting d false c = s.waiting c :=
        Function.update_of_ne (Ne.symm heq) _ _
      simpa [State.HoldsSender, State.draining, State.stored, hlock,
        hrequest, hwaitingNext, heq] using hholds

theorem State.Tracked.bindReplace
    {existing : Option ConsumerId} {d : ConsumerId}
    (htracked : s.Tracked xs c) (hgood : s.WellFormed)
    (hlock : s.lock = none) (hwaiting : s.waiting d = true)
    (hrequest : s.request = .initialized existing)
    (hfirst : d = c → s.accepted = s.buffered)
    (hlast : d ≠ c → s.stored = some c → s.Reading c → s.accepted = xs) :
    ({ s with
      request := .initialized (some d)
      channel := dropStored s.channel existing
      waiting := Function.update s.waiting d false } : State α).Tracked
        xs c := by
  by_cases heq : d = c
  · subst d
    have hbuffered :=
      buffered_of_initialized (draining_of_unlocked hlock) hrequest
    constructor
    · intro hunmade
      rw [dropStored_placed]
      exact htracked.unmade hunmade
    · intro rest hdrain
      rw [show s.lock = _ from hdrain] at hlock
      contradiction
    · intro hbound hread
      rw [dropStored_placed, (hgood.waiting c hwaiting).2]
      exact (hfirst rfl).trans hbuffered
    · intro hmade hdropped
      exact absurd (.inr (.inr rfl)) hdropped
  · have hwaitingNext :
        Function.update s.waiting d false c = s.waiting c :=
      Function.update_of_ne (Ne.symm heq) _ _
    refine htracked.of_dropStored hlock rfl rfl hlock ?_ hwaitingNext ?_
    · simpa [State.stored] using heq
    · intro hholds hdropped hread
      refine hlast heq ?_ hread
      rcases hholds with hwaits | hdraining | hstored
      · exact absurd (.inl (hwaitingNext.trans hwaits)) hdropped
      · simp [State.draining, hlock] at hdraining
      · exact hstored

theorem State.Tracked.placeSend
    {d : ConsumerId} {item : α}
    (htracked : s.Tracked xs c) (hgood : s.WellFormed)
    (hlock : s.lock = some (.send d item))
    (hopen : (s.channel d).receiverAlive = true)
    (hroom : (s.channel d).HasRoom) :
    ({ s with
      channel := Function.update s.channel d ((s.channel d).push item hroom)
      lock := none
      accepted := s.accepted ++ [item] } : State α).Tracked xs c := by
  have hstored := hgood.sendLock d item hlock
  by_cases heq : d = c
  · subst d
    constructor
    · intro hunmade
      have hmade := (hgood.bound c (.inr hstored)).1
      exact absurd hmade (not_lt.mpr hunmade)
    · intro rest hdrain
      contradiction
    · intro hbound hread
      dsimp only
      rw [Function.update_self, Channel.push_placed,
        ← htracked.stored hstored (.inl hopen)]
    · intro hmade hdropped
      exact absurd (.inr (.inr hstored)) hdropped
  · have hchannel :
        Function.update s.channel d ((s.channel d).push item hroom) c =
          s.channel c :=
      Function.update_of_ne (Ne.symm heq) _ _
    refine htracked.frame rfl (congrArg Channel.placed hchannel) ?_ ?_ ?_ ?_
    · exact (State.reading_congr hchannel).mp
    · intro rest hdrain
      contradiction
    · intro hbound
      rw [show s.stored = _ from hbound] at hstored
      exact absurd (Option.some.inj hstored).symm heq
    · intro hholds
      exact hholds.congr rfl (by simp [State.draining, hlock]) rfl

theorem State.Tracked.placeSendClosed
    {d : ConsumerId} {item : α}
    (htracked : s.Tracked xs c) (hgood : s.WellFormed)
    (hlock : s.lock = some (.send d item))
    (hclosed : (s.channel d).receiverAlive = false) :
    ({ s with
      lock := none
      accepted := s.accepted ++ [item]
      lost := s.lost ++ [item] } : State α).Tracked xs c := by
  have hstored := hgood.sendLock d item hlock
  by_cases heq : d = c
  · subst d
    have hmade := (hgood.bound c (.inr hstored)).1
    constructor
    · exact htracked.unmade
    · intro rest hdrain
      contradiction
    · intro hbound hread
      exact absurd hread
        (hgood.not_reading_of_closed (.inr (.inr hstored)) hmade hclosed)
    · intro hc hdropped
      exact absurd (.inr (.inr hstored)) hdropped
  · refine htracked.frame rfl rfl id ?_ ?_ ?_
    · intro rest hdrain
      contradiction
    · intro hbound
      rw [show s.stored = _ from hbound] at hstored
      exact absurd (Option.some.inj hstored).symm heq
    · intro hholds
      exact hholds.congr rfl (by simp [State.draining, hlock]) rfl

theorem State.Tracked.placeDrain
    {d : ConsumerId} {item : α} {rest : List α}
    (htracked : s.Tracked xs c) (hgood : s.WellFormed)
    (hlock : s.lock = some (.drain d (item :: rest)))
    (hroom : (s.channel d).HasRoom) :
    ({ s with
      channel := Function.update s.channel d ((s.channel d).push item hroom)
      lock := some (.drain d rest) } : State α).Tracked xs c := by
  have hdraining := draining_of_drain hlock
  obtain ⟨hasEndOfStream, hrequest⟩ := hgood.drainLock d _ hlock
  by_cases heq : d = c
  · subst d
    constructor
    · intro hunmade
      have hmade := (hgood.bound c (.inl hdraining)).1
      exact absurd hmade (not_lt.mpr hunmade)
    · intro remaining hdrain
      have hrest : rest = remaining := by simpa using hdrain
      have haccepted := htracked.draining _ hlock
      simp [haccepted, hrest]
    · intro hbound
      simp [State.stored, hrequest] at hbound
    · intro hmade hdropped
      exact absurd (.inr (.inl rfl)) hdropped
  · have hchannel :
        Function.update s.channel d ((s.channel d).push item hroom) c =
          s.channel c :=
      Function.update_of_ne (Ne.symm heq) _ _
    refine htracked.frame rfl (congrArg Channel.placed hchannel) ?_ ?_ ?_ ?_
    · exact (State.reading_congr hchannel).mp
    · intro remaining hdrain
      simp only [Option.some.injEq, Awaiting.drain.injEq] at hdrain
      exact absurd hdrain.1 heq
    · intro hbound
      exact ⟨hbound, rfl⟩
    · intro hholds
      exact hholds.congr rfl (by simp [State.draining, hlock]) rfl

/-- The drain of another consumer ends and its sender is dropped. -/
theorem State.Tracked.drainedOther
    {d : ConsumerId} {rest items lost : List α} {hasEndOfStream : Bool}
    (htracked : s.Tracked xs c) (hne : d ≠ c)
    (hlock : s.lock = some (.drain d rest))
    (hrequest : s.request = .notInitialized items hasEndOfStream) :
    ({ s with
      channel := Function.update s.channel d (s.channel d).dropSender
      lock := none
      lost := lost } : State α).Tracked xs c := by
  have hchannel :
      Function.update s.channel d (s.channel d).dropSender c =
        s.channel c :=
    Function.update_of_ne (Ne.symm hne) _ _
  refine htracked.frame rfl (congrArg Channel.placed hchannel) ?_ ?_ ?_ ?_
  · exact (State.reading_congr hchannel).mp
  · intro remaining hdrain
    contradiction
  · intro hbound
    exact ⟨hbound, rfl⟩
  · intro hholds
    simpa [State.HoldsSender, State.draining, hlock, State.stored,
      hrequest, hne] using hholds

theorem State.Tracked.placeDrainClosed
    {d : ConsumerId} {item : α} {rest : List α}
    (htracked : s.Tracked xs c) (hgood : s.WellFormed)
    (hlock : s.lock = some (.drain d (item :: rest)))
    (hclosed : (s.channel d).receiverAlive = false) :
    ({ s with
      channel := Function.update s.channel d (s.channel d).dropSender
      lock := none
      lost := s.lost ++ item :: rest } : State α).Tracked xs c := by
  have hdraining := draining_of_drain hlock
  obtain ⟨hasEndOfStream, hrequest⟩ := hgood.drainLock d _ hlock
  by_cases heq : d = c
  · subst d
    have hmade := (hgood.bound c (.inl hdraining)).1
    constructor
    · intro hunmade
      exact absurd hmade (not_lt.mpr hunmade)
    · intro remaining hdrain
      contradiction
    · intro hbound
      simp [State.stored, hrequest] at hbound
    · intro hc hdropped hread
      have hreadBefore : s.Reading c := by
        simpa [State.Reading] using hread
      exact absurd hreadBefore
        (hgood.not_reading_of_closed (.inr (.inl hdraining)) hmade hclosed)
  · exact htracked.drainedOther heq hlock hrequest

theorem State.Tracked.drainEnded
    {d : ConsumerId} {items : List α}
    (htracked : s.Tracked xs c) (hgood : s.WellFormed)
    (hlock : s.lock = some (.drain d []))
    (hrequest : s.request = .notInitialized items true)
    (hlast : s.accepted = xs) :
    ({ s with
      channel := Function.update s.channel d (s.channel d).dropSender
      lock := none } : State α).Tracked xs c := by
  have hdraining := draining_of_drain hlock
  by_cases heq : d = c
  · subst d
    have hmade := (hgood.bound c (.inl hdraining)).1
    constructor
    · intro hunmade
      exact absurd hmade (not_lt.mpr hunmade)
    · intro remaining hdrain
      contradiction
    · intro hbound
      simp [State.stored, hrequest] at hbound
    · intro hc hdropped hread
      have haccepted := htracked.draining [] hlock
      rw [List.append_nil, hlast] at haccepted
      simpa using haccepted.symm
  · exact htracked.drainedOther heq hlock hrequest

theorem State.Tracked.drainBound
    {d : ConsumerId} {items : List α}
    (htracked : s.Tracked xs c)
    (hlock : s.lock = some (.drain d []))
    (hrequest : s.request = .notInitialized items false) :
    ({ s with
      request := .initialized (some d)
      lock := none } : State α).Tracked xs c := by
  by_cases heq : d = c
  · subst d
    constructor
    · exact htracked.unmade
    · intro remaining hdrain
      contradiction
    · intro hbound hread
      simpa using htracked.draining [] hlock
    · intro hmade hdropped
      exact absurd (.inr (.inr rfl)) hdropped
  · refine htracked.frame rfl rfl id ?_ ?_ ?_
    · intro remaining hdrain
      contradiction
    · intro hbound
      have heqd : d = c := by simpa [State.stored] using hbound
      exact absurd heqd heq
    · intro hholds
      simpa [State.HoldsSender, State.draining, hlock, State.stored,
        hrequest, heq] using hholds

/-- The reader's own steps keep the placed items of every channel. -/
theorem State.Tracked.updateChannel
    {d : ConsumerId} {next : Channel α}
    (htracked : s.Tracked xs c)
    (hplaced : next.placed = (s.channel d).placed)
    (hreading : next.receiverAlive = true ∨ next.finished = true →
      s.Reading d) :
    ({ s with channel := Function.update s.channel d next } :
      State α).Tracked xs c := by
  by_cases heq : d = c
  · subst d
    refine htracked.frame rfl ?_ ?_ (fun _ hdrain => ⟨hdrain, rfl⟩)
      (fun hbound => ⟨hbound, rfl⟩) id
    · simpa using hplaced
    · intro hread
      apply hreading
      simpa [State.Reading] using hread
  · have hchannel : Function.update s.channel d next c = s.channel c :=
      Function.update_of_ne (Ne.symm heq) _ _
    exact htracked.frame rfl (congrArg Channel.placed hchannel)
      (State.reading_congr hchannel).mp (fun _ hdrain => ⟨hdrain, rfl⟩)
      (fun hbound => ⟨hbound, rfl⟩) id

end TrackedMoves

/-- Each step keeps track of the consumer, if its binding finds the buffer
untouched and its sender is dropped only after all of `xs` is accepted. -/
theorem Move.tracked
    {xs : List α} {c : ConsumerId} {s t : State α} {a : Action α}
    (hmove : Move s a t) (hgood : s.WellFormed)
    (htracked : s.Tracked xs c)
    (hfirst : a = .setSender c → s.accepted = s.buffered)
    (hreplaced : ∀ d, a = .setSender d → d ≠ c → s.stored = some c →
      s.accepted = xs)
    (hended : s.Flagged ∨ a = .sendEof → s.accepted = xs) :
    t.Tracked xs c := by
  cases hmove with
  | getConsumer => exact htracked.getConsumer hgood
  | @sendBuffered items item hlock hrequest =>
      refine htracked.frame rfl rfl id ?_ ?_ ?_
      · intro rest hdrain
        rw [show s.lock = _ from hdrain] at hlock
        contradiction
      · intro hbound
        simp [State.stored] at hbound
      · intro hholds
        simpa [State.HoldsSender, State.draining, State.stored, hrequest]
          using hholds
  | sendRefused item hlock hrequest =>
      exact htracked.frame rfl rfl id (fun _ hdrain => ⟨hdrain, rfl⟩)
        (fun hbound => ⟨hbound, rfl⟩) id
  | sendStarted item hlock hrequest =>
      refine htracked.frame rfl rfl id ?_ (fun hbound => ⟨hbound, rfl⟩) ?_
      · intro rest hdrain
        simp at hdrain
      · intro hholds
        simpa [State.HoldsSender, State.draining, State.stored, hlock]
          using hholds
  | @bindDrain items hasEndOfStream d hlock hwaiting hrequest =>
      exact htracked.bindDrain hgood hlock hwaiting hrequest
        (fun heq => hfirst (by rw [heq]))
  | @bindReplace existing d hlock hwaiting hrequest =>
      exact htracked.bindReplace hgood hlock hwaiting hrequest
        (fun heq => hfirst (by rw [heq]))
        (fun hne hstored _ => hreplaced d rfl hne hstored)
  | eofFlagged hlock hrequest =>
      refine htracked.frame rfl rfl id (fun _ hdrain => ⟨hdrain, rfl⟩) ?_ ?_
      · intro hbound
        simp [State.stored] at hbound
      · intro hholds
        simpa [State.HoldsSender, State.draining, State.stored, hrequest]
          using hholds
  | eofTaken hlock hrequest =>
      refine htracked.of_dropStored hlock rfl rfl hlock ?_ rfl ?_
      · simp [State.stored]
      · exact fun _ _ _ => hended (.inr rfl)
  | placeSend hlock hopen hroom =>
      exact htracked.placeSend hgood hlock hopen hroom
  | placeSendClosed hlock hclosed =>
      exact htracked.placeSendClosed hgood hlock hclosed
  | placeDrain hlock hopen hroom =>
      exact htracked.placeDrain hgood hlock hroom
  | placeDrainClosed hlock hclosed =>
      exact htracked.placeDrainClosed hgood hlock hclosed
  | drainEnded hlock hrequest =>
      exact htracked.drainEnded hgood hlock hrequest
        (hended (.inl ⟨_, hrequest⟩))
  | drainBound hlock hrequest => exact htracked.drainBound hlock hrequest
  | recvItem d hd hopen hunfinished hqueue =>
      exact htracked.updateChannel (Channel.pop_placed _)
        (fun _ => .inl hopen)
  | recvEnd d hd hopen hunfinished hqueue hsender =>
      exact htracked.updateChannel (Channel.finish_placed _)
        (fun _ => .inl hopen)
  | close d hd =>
      refine htracked.updateChannel (Channel.close_placed _) ?_
      rintro (hopen | hfinished)
      · simp at hopen
      · exact .inr hfinished

end StreamedRequest
end GrpcExtensions
