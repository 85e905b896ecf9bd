import GrpcExtensions.BoundedChannel
import Mathlib.Logic.Function.Basic

/-!
# A request whose items are a vector

Every `get_consumer` call on a request made by `new_as_vec` starts a task that
sends the whole vector into the consumer's own channel.  The tasks share
nothing but the vector, so each consumer with its task is a machine of its
own, and a run of all is made of runs of these machines.
-/

namespace GrpcExtensions
namespace StreamedRequestVector

universe u

variable {α : Type u}

/-- A `StreamedRequest` around `StreamedRequestInner::AsVec`. -/
structure VecRequest (α : Type u) where
  items : List α
  channelSize : ℕ

def newAsVec (data : List α) : VecRequest α where
  items := data
  channelSize := 1024

/-- `Vec::into`. -/
def ofVec (data : List α) : VecRequest α :=
  newAsVec data

def VecRequest.setChannelSize (request : VecRequest α) (value : ℕ) :
    VecRequest α :=
  { request with channelSize := value }

/-- A consumer's channel and the items that its `set_sender` task has still to
send; the task has ended with `none`. -/
structure Consumer (α : Type u) where
  channel : Channel α
  task : Option (List α)

inductive ConsumerAction where
  | getConsumer
  | setSender
  | recv
  | close
  deriving DecidableEq

namespace Consumer

def new (request : VecRequest α) : Consumer α where
  channel := Channel.new α request.channelSize
  task := some request.items

/-- One turn of the loop of `set_sender`, or its end, which drops the sender.
An error of `send` is printed and ends the task as well. -/
def setSender (consumer : Consumer α) : Option (Consumer α) :=
  match consumer.task with
  | some (itm :: rest) =>
      match consumer.channel.send itm with
      | .sent channel => some { channel, task := some rest }
      | .closed => some { channel := consumer.channel.dropSender, task := none }
      | .full => none
  | some [] => some { channel := consumer.channel.dropSender, task := none }
  | none => none

def recv (consumer : Consumer α) : Option (Consumer α) :=
  consumer.channel.recv.map fun channel => { consumer with channel }

def close (consumer : Consumer α) : Consumer α :=
  { consumer with channel := consumer.channel.close }

/-- One consumer with its task, from its `get_consumer` call on. -/
def step (request : VecRequest α) :
    Option (Consumer α) → ConsumerAction → Option (Option (Consumer α))
  | none, .getConsumer => some (some (new request))
  | some consumer, .setSender => consumer.setSender.map some
  | some consumer, .recv => consumer.recv.map some
  | some consumer, .close => some (some consumer.close)
  | _, _ => none

end Consumer

/-- Consumers are named by the order of their `get_consumer` calls. -/
structure State (α : Type u) where
  consumers : ℕ
  consumer : ℕ → Option (Consumer α)

def start : State α where
  consumers := 0
  consumer := fun _ => none

structure Action where
  id : ℕ
  act : ConsumerAction

def step (request : VecRequest α) (s : State α) (a : Action) :
    Option (State α) :=
  if a.act = .getConsumer ∧ a.id ≠ s.consumers then none
  else
    (Consumer.step request (s.consumer a.id) a.act).map fun consumer =>
      { consumers :=
          if a.act = .getConsumer then s.consumers + 1 else s.consumers
        consumer := Function.update s.consumer a.id consumer }

section OneConsumer

variable {request : VecRequest α} {consumer next : Consumer α}

/-- The placed items and the ones that the task has still to send make up the
vector; once the task has ended, all were placed or the stream was closed. -/
structure Consumer.Sound (request : VecRequest α) (consumer : Consumer α) :
    Prop where
  capacity : consumer.channel.capacity = request.channelSize
  sending : ∀ rest, consumer.task = some rest →
    consumer.channel.placed ++ rest = request.items ∧
      consumer.channel.senderAlive = true
  ended : consumer.task = none →
    consumer.channel.senderAlive = false ∧
      consumer.channel.placed <+: request.items ∧
      (consumer.channel.receiverAlive = true →
        consumer.channel.placed = request.items)
  finished : consumer.channel.finished = true →
    consumer.task = none ∧ consumer.channel.queue = []

theorem new_sound (request : VecRequest α) :
    (Consumer.new request).Sound request := by
  constructor
  · rfl
  · intro rest hrest
    cases hrest
    exact ⟨rfl, rfl⟩
  · intro hnone
    cases hnone
  · intro hfinished
    cases hfinished

theorem setSender_cases (hsend : consumer.setSender = some next) :
    (∃ itm rest, ∃ hroom : consumer.channel.HasRoom,
      consumer.task = some (itm :: rest) ∧
        consumer.channel.receiverAlive = true ∧
        next = ⟨consumer.channel.push itm hroom, some rest⟩) ∨
    (∃ rest, consumer.task = some rest ∧
      (rest = [] ∨ consumer.channel.receiverAlive = false) ∧
        next = ⟨consumer.channel.dropSender, none⟩) := by
  unfold Consumer.setSender at hsend
  split at hsend
  next itm rest htask =>
    split at hsend
    next channel hsent =>
      obtain ⟨hopen, hroom, rfl⟩ := Channel.send_eq_sent.mp hsent
      cases hsend
      exact Or.inl ⟨itm, rest, hroom, htask, hopen, rfl⟩
    next hclosed =>
      cases hsend
      exact Or.inr ⟨_, htask, Or.inr (Channel.send_eq_closed.mp hclosed), rfl⟩
    next => contradiction
  next htask =>
    cases hsend
    exact Or.inr ⟨[], htask, Or.inl rfl, rfl⟩
  next => contradiction

theorem setSender_sound
    (hsound : consumer.Sound request) (hsend : consumer.setSender = some next) :
    next.Sound request := by
  rcases setSender_cases hsend with ⟨itm, rest, hroom, htask, hopen, rfl⟩ |
    ⟨rest, htask, hdone, rfl⟩
  · obtain ⟨hplaced, hsender⟩ := hsound.sending _ htask
    refine ⟨hsound.capacity, ?_, nofun, ?_⟩
    · intro left hleft
      cases hleft
      refine ⟨?_, hsender⟩
      rw [Channel.push_placed, List.append_assoc, List.singleton_append]
      exact hplaced
    · intro hfinished
      have hnone := (hsound.finished hfinished).1
      rw [htask] at hnone
      contradiction
  · obtain ⟨hplaced, hsender⟩ := hsound.sending _ htask
    refine ⟨hsound.capacity, nofun, fun _ => ⟨rfl, ⟨rest, hplaced⟩, ?_⟩, ?_⟩
    · intro hopen
      cases hdone with
      | inl hnil =>
          rw [hnil, List.append_nil] at hplaced
          exact hplaced
      | inr hclosed =>
          rw [show consumer.channel.receiverAlive = true from hopen] at hclosed
          contradiction
    · intro hfinished
      exact ⟨rfl, (hsound.finished hfinished).2⟩

theorem recv_sound
    (hsound : consumer.Sound request) (hrecv : consumer.recv = some next) :
    next.Sound request := by
  obtain ⟨channel, hchannel, rfl⟩ := Option.map_eq_some_iff.mp hrecv
  obtain ⟨hopen, hunfinished, ⟨hqueue, rfl⟩ | ⟨hqueue, hsender, rfl⟩⟩ :=
    Channel.recv_eq_some.mp hchannel
  · refine ⟨hsound.capacity, ?_, ?_, ?_⟩
    · intro rest htask
      rw [Channel.pop_placed]
      exact hsound.sending rest htask
    · intro htask
      rw [Channel.pop_placed]
      exact hsound.ended htask
    · intro hfinished
      rw [Channel.pop_finished, hunfinished] at hfinished
      contradiction
  · refine ⟨hsound.capacity, hsound.sending, hsound.ended, fun _ => ?_⟩
    refine ⟨?_, hqueue⟩
    cases htask : consumer.task with
    | none => rfl
    | some rest =>
        rw [(hsound.sending rest htask).2] at hsender
        contradiction

theorem close_sound (hsound : consumer.Sound request) :
    consumer.close.Sound request := by
  refine ⟨hsound.capacity, hsound.sending, fun htask => ?_, hsound.finished⟩
  obtain ⟨hsender, hplaced, _⟩ := hsound.ended htask
  exact ⟨hsender, hplaced, nofun⟩

theorem consumerStep_sound
    {before after : Option (Consumer α)} {a : ConsumerAction}
    (hsound : ∀ consumer, before = some consumer → consumer.Sound request)
    (hstep : Consumer.step request before a = some after) :
    ∀ consumer, after = some consumer → consumer.Sound request := by
  intro next hnext
  subst hnext
  cases before with
  | none =>
      cases a with
      | getConsumer =>
          cases hstep
          exact new_sound request
      | _ => contradiction
  | some consumer =>
      have hsound := hsound consumer rfl
      cases a with
      | getConsumer => contradiction
      | setSender =>
          obtain ⟨_, hsend, heq⟩ := Option.map_eq_some_iff.mp hstep
          cases heq
          exact setSender_sound hsound hsend
      | recv =>
          obtain ⟨_, hrecv, heq⟩ := Option.map_eq_some_iff.mp hstep
          cases heq
          exact recv_sound hsound hrecv
      | close =>
          cases hstep
          exact close_sound hsound

theorem received_prefix (hsound : consumer.Sound request) :
    consumer.channel.received <+: request.items := by
  apply consumer.channel.received_prefix_placed.trans
  cases htask : consumer.task with
  | none => exact (hsound.ended htask).2.1
  | some rest => exact ⟨rest, (hsound.sending rest htask).1⟩

theorem received_all
    (hsound : consumer.Sound request) (hsize : 1 ≤ request.channelSize)
    (hsend : consumer.setSender = none) (hrecv : consumer.recv = none)
    (hopen : consumer.channel.receiverAlive = true) :
    consumer.channel.received = request.items ∧
      consumer.channel.finished = true := by
  have hwaits := Channel.recv_eq_none.mp (Option.map_eq_none_iff.mp hrecv)
  have htask : consumer.task = none := by
    cases htask : consumer.task with
    | none => rfl
    | some rest =>
        exfalso
        cases rest with
        | nil => simp [Consumer.setSender, htask] at hsend
        | cons itm rest =>
            -- The task can only wait for room, and an empty queue has room.
            have hqueue : consumer.channel.queue = [] := by
              rcases hwaits with hclosed | hfinished | ⟨hqueue, _⟩
              · rw [hopen] at hclosed
                contradiction
              · rw [(hsound.finished hfinished).1] at htask
                contradiction
              · exact hqueue
            have hroom : consumer.channel.HasRoom := by
              unfold Channel.HasRoom
              rw [hqueue, hsound.capacity]
              exact hsize
            simp [Consumer.setSender, htask,
              Channel.send_of_room itm hopen hroom] at hsend
  obtain ⟨hsender, _, hplaced⟩ := hsound.ended htask
  have hfinished : consumer.channel.finished = true := by
    rcases hwaits with hclosed | hfinished | ⟨_, halive⟩
    · rw [hopen] at hclosed
      contradiction
    · exact hfinished
    · rw [hsender] at halive
      contradiction
  refine ⟨?_, hfinished⟩
  rw [← Channel.placed_of_queue_nil (hsound.finished hfinished).2]
  exact hplaced hopen

end OneConsumer

section AllConsumers

variable {request : VecRequest α} {s t : State α}

/-- What the consumer `c` and its task do in a run. -/
def actsOf (c : ℕ) (acts : List Action) : List ConsumerAction :=
  acts.filterMap fun a => if a.id = c then some a.act else none

theorem step_eq_some {a : Action} (hstep : step request s a = some t) :
    ∃ consumer, Consumer.step request (s.consumer a.id) a.act = some consumer ∧
      t.consumer = Function.update s.consumer a.id consumer ∧
      (a.act = .getConsumer → a.id = s.consumers ∧
        t.consumers = s.consumers + 1) ∧
      (a.act ≠ .getConsumer → t.consumers = s.consumers) := by
  unfold step at hstep
  split at hstep
  next => contradiction
  next hguard =>
    obtain ⟨consumer, hconsumer, rfl⟩ := Option.map_eq_some_iff.mp hstep
    refine ⟨consumer, hconsumer, rfl, fun hget => ?_, fun hget => ?_⟩
    · exact ⟨by_contra fun hne => hguard ⟨hget, hne⟩, if_pos hget⟩
    · exact if_neg hget

/-- A run of all consumers is, for each of them, a run of that consumer. -/
theorem exec_consumer
    {acts : List Action}
    (hrun : TransitionSystem.exec (step request) s acts = some t) (c : ℕ) :
    TransitionSystem.exec (Consumer.step request) (s.consumer c)
      (actsOf c acts) = some (t.consumer c) := by
  refine @TransitionSystem.exec_filterMap _ _ _ _ _ _
    (fun s : State α => s.consumer c) (fun a => if a.id = c then some a.act
      else none) (fun s a t b hvisible hstep => ?_)
    (fun s a t hhidden hstep => ?_) _ _ _ hrun
  · split at hvisible
    next hid =>
      cases hvisible
      obtain ⟨consumer, hconsumer, hupdate, _⟩ := step_eq_some hstep
      subst hid
      rw [hconsumer, hupdate, Function.update_self]
    next => contradiction
  · split at hhidden
    next => contradiction
    next hid =>
      obtain ⟨consumer, _, hupdate, _⟩ := step_eq_some hstep
      rw [hupdate, Function.update_of_ne (Ne.symm hid)]

theorem exec_consumer_sound
    {acts : List Action}
    (hrun : TransitionSystem.exec (step request) start acts = some s)
    {c : ℕ} {consumer : Consumer α} (hc : s.consumer c = some consumer) :
    consumer.Sound request :=
  TransitionSystem.exec_invariant
    (I := fun o : Option (Consumer α) =>
      ∀ consumer, o = some consumer → consumer.Sound request)
    (fun _ _ _ hsound hstep => consumerStep_sound hsound hstep)
    (by
      intro consumer hnone
      cases hnone) (exec_consumer hrun c) consumer hc

theorem consumerStep_isSome
    {before after : Option (Consumer α)} {a : ConsumerAction}
    (hstep : Consumer.step request before a = some after) :
    after.isSome = true ∧ (before.isSome = true ↔ a ≠ .getConsumer) := by
  cases before with
  | none =>
      cases a with
      | getConsumer =>
          cases hstep
          simp
      | _ => contradiction
  | some consumer =>
      cases a with
      | getConsumer => contradiction
      | setSender =>
          obtain ⟨_, _, rfl⟩ := Option.map_eq_some_iff.mp hstep
          simp
      | recv =>
          obtain ⟨_, _, rfl⟩ := Option.map_eq_some_iff.mp hstep
          simp
      | close =>
          cases hstep
          simp

/-- The consumers are those that `get_consumer` was called for. -/
theorem exec_isSome_iff
    {acts : List Action}
    (hrun : TransitionSystem.exec (step request) start acts = some s) (c : ℕ) :
    (s.consumer c).isSome = true ↔ c < s.consumers := by
  refine TransitionSystem.exec_invariant
    (I := fun s : State α =>
      ∀ c, (s.consumer c).isSome = true ↔ c < s.consumers)
    (fun s a t hs hstep c => ?_) (fun c => by simp [start]) hrun c
  obtain ⟨consumer, hconsumer, hupdate, hget, hother⟩ := step_eq_some hstep
  obtain ⟨hsome, hbefore⟩ := consumerStep_isSome hconsumer
  rw [hupdate]
  have hold := hs a.id
  by_cases hact : a.act = .getConsumer
  · obtain ⟨hid, hcount⟩ := hget hact
    rw [hcount]
    by_cases hc : c = a.id
    · subst hc
      rw [Function.update_self, hid]
      simp [hsome]
    · rw [Function.update_of_ne hc, hs c]
      omega
  · rw [hother hact]
    by_cases hc : c = a.id
    · subst hc
      rw [Function.update_self, ← hs, hbefore]
      simp [hsome, hact]
    · rw [Function.update_of_ne hc, hs c]

def Settled (request : VecRequest α) (s : State α) : Prop :=
  ∀ c, step request s ⟨c, .setSender⟩ = none ∧ step request s ⟨c, .recv⟩ = none

theorem consumer_of_settled
    (hsettled : Settled request s) {c : ℕ} {consumer : Consumer α}
    (hc : s.consumer c = some consumer) :
    consumer.setSender = none ∧ consumer.recv = none := by
  obtain ⟨hsend, hrecv⟩ := hsettled c
  constructor
  · simpa [step, Consumer.step, hc] using hsend
  · simpa [step, Consumer.step, hc] using hrecv

/-- Every consumer has received a prefix of the vector; one that is open has
received the whole vector and its end once nothing moves any more; and what a
consumer receives depends on its own actions only, whatever the others do. -/
theorem vector_replays_whole
    (xs : List α) {channelSize : ℕ} (hsize : 1 ≤ channelSize)
    {acts : List Action} {s : State α}
    (hrun : TransitionSystem.exec
      (step ((newAsVec xs).setChannelSize channelSize)) start acts = some s) :
    (∀ c < s.consumers, ∃ consumer, s.consumer c = some consumer ∧
      consumer.channel.received <+: xs ∧
      (Settled ((newAsVec xs).setChannelSize channelSize) s →
        consumer.channel.receiverAlive = true →
          consumer.channel.received = xs ∧
            consumer.channel.finished = true)) ∧
    ∀ (others : List Action) (t : State α) (c : ℕ),
      TransitionSystem.exec (step ((newAsVec xs).setChannelSize channelSize))
        start others = some t →
      actsOf c acts = actsOf c others → s.consumer c = t.consumer c := by
  constructor
  · intro c hc
    rw [← exec_isSome_iff hrun] at hc
    obtain ⟨consumer, hconsumer⟩ := Option.isSome_iff_exists.mp hc
    have hsound := exec_consumer_sound hrun hconsumer
    refine ⟨consumer, hconsumer, received_prefix hsound, ?_⟩
    intro hsettled hopen
    obtain ⟨hsend, hrecv⟩ := consumer_of_settled hsettled hconsumer
    exact received_all hsound hsize hsend hrecv hopen
  · intro others t c hothers hacts
    have hfirst := exec_consumer hrun c
    have hsecond := exec_consumer hothers c
    rw [hacts] at hfirst
    rw [show (start : State α).consumer c = none from rfl] at hfirst hsecond
    rw [hfirst] at hsecond
    exact Option.some.inj hsecond

/-- Two consumers of a vector of two items; the first is closed early. -/
theorem vector_replays_whole_one_closed :
    ∃ s : State ℕ,
      TransitionSystem.exec (step ((newAsVec [7, 8]).setChannelSize 1)) start
          [⟨0, .getConsumer⟩, ⟨1, .getConsumer⟩, ⟨0, .setSender⟩,
            ⟨1, .setSender⟩, ⟨0, .close⟩, ⟨1, .recv⟩, ⟨0, .setSender⟩,
            ⟨1, .setSender⟩, ⟨1, .setSender⟩, ⟨1, .recv⟩, ⟨1, .recv⟩] =
        some s ∧
      ∀ c < s.consumers, ∃ consumer, s.consumer c = some consumer ∧
        consumer.channel.received <+: [7, 8] ∧
        (Settled ((newAsVec [7, 8]).setChannelSize 1) s →
          consumer.channel.receiverAlive = true →
            consumer.channel.received = [7, 8] ∧
              consumer.channel.finished = true) := by
  have hrun : TransitionSystem.exec
      (step ((newAsVec [7, 8]).setChannelSize 1)) start
      [⟨0, .getConsumer⟩, ⟨1, .getConsumer⟩, ⟨0, .setSender⟩,
        ⟨1, .setSender⟩, ⟨0, .close⟩, ⟨1, .recv⟩, ⟨0, .setSender⟩,
        ⟨1, .setSender⟩, ⟨1, .setSender⟩, ⟨1, .recv⟩, ⟨1, .recv⟩] =
      some _ := rfl
  exact ⟨_, hrun, (vector_replays_whole [7, 8] (Nat.le_refl 1) hrun).1⟩

end AllConsumers

end StreamedRequestVector
end GrpcExtensions
