import GrpcExtensions.BoundedChannel

/-!
# A task that feeds a channel

A task owns the only sender of a bounded channel.  Each of its sends is given
up when the queue stays full for too long or when the receiver is gone, and
dropping the sender at the end of the task is all the reader learns about its
outcome.  `items` names the pieces of work a sent value was made of, so that
what was delivered can be compared with what there was to deliver.
-/

universe u v

namespace ChannelTask

inductive SendResult where
  | sent
  | timeout
  | closed

/-- A task up to its next send, which continues according to the result. -/
inductive Task (ι : Type u) (β : Type v) where
  | done
  | panic
  | sendTimeout (contract : β) (items : List ι)
      (next : SendResult → Task ι β)

/-- A sent value with the pieces of work it was made of. -/
structure Message (ι : Type u) (β : Type v) where
  contract : β
  items : List ι

variable {ι : Type u} {β : Type v}

def Task.Ended : Task ι β → Prop
  | .sendTimeout _ _ _ => False
  | _ => True

instance (task : Task ι β) : Decidable task.Ended := by
  cases task <;> unfold Task.Ended <;> infer_instance

/-- The work the task delivers when every send succeeds. -/
def Task.delivered : Task ι β → List ι
  | .sendTimeout _ items next => items ++ (next .sent).delivered
  | _ => []

/-- The task ends at the first send that fails, and every sent value carries
some work and satisfies `P`. -/
inductive Task.StopsOnFailure (P : β → Prop) : Task ι β → Prop where
  | done : StopsOnFailure P .done
  | panic : StopsOnFailure P .panic
  | sendTimeout {contract : β} {items : List ι}
      {next : SendResult → Task ι β}
      (hcontract : P contract) (hitems : items ≠ [])
      (htimeout : next .timeout = .done) (hclosed : next .closed = .done)
      (hsent : StopsOnFailure P (next .sent)) :
      StopsOnFailure P (.sendTimeout contract items next)

structure State (ι : Type u) (β : Type v) where
  task : Task ι β
  channel : Channel (Message ι β)

def start (capacity : ℕ) (task : Task ι β) : State ι β where
  task := task
  channel := Channel.new (Message ι β) capacity

inductive Action where
  | send
  | timeout
  | finish
  | recv
  | close

def step (s : State ι β) : Action → Option (State ι β)
  | .send =>
      match s.task with
      | .sendTimeout contract items next =>
          match s.channel.send ⟨contract, items⟩ with
          | .sent ch => some { task := next .sent, channel := ch }
          | .closed => some { s with task := next .closed }
          | .full => none
      | _ => none
  | .timeout =>
      match s.task with
      | .sendTimeout contract items next =>
          match s.channel.send ⟨contract, items⟩ with
          | .full => some { s with task := next .timeout }
          | _ => none
      | _ => none
  | .finish =>
      if s.task.Ended then
        some { s with channel := s.channel.dropSender }
      else none
  | .recv =>
      s.channel.recv.map fun ch => { s with channel := ch }
  | .close => some { s with channel := s.channel.close }

inductive Move : State ι β → Action → State ι β → Prop where
  | sent {s : State ι β} {contract : β} {items : List ι}
      {next : SendResult → Task ι β}
      (htask : s.task = .sendTimeout contract items next)
      (hopen : s.channel.receiverAlive = true) (hroom : s.channel.HasRoom) :
      Move s .send
        { task := next .sent
          channel := s.channel.push ⟨contract, items⟩ hroom }
  | closed {s : State ι β} {contract : β} {items : List ι}
      {next : SendResult → Task ι β}
      (htask : s.task = .sendTimeout contract items next)
      (hclosed : s.channel.receiverAlive = false) :
      Move s .send { s with task := next .closed }
  | timeout {s : State ι β} {contract : β} {items : List ι}
      {next : SendResult → Task ι β}
      (htask : s.task = .sendTimeout contract items next)
      (hfull : ¬ s.channel.HasRoom) :
      Move s .timeout { s with task := next .timeout }
  | finish {s : State ι β} (hended : s.task.Ended) :
      Move s .finish { s with channel := s.channel.dropSender }
  | recvItem {s : State ι β} (hopen : s.channel.receiverAlive = true)
      (hunfinished : s.channel.finished = false)
      (hqueue : s.channel.queue ≠ []) :
      Move s .recv { s with channel := s.channel.pop }
  | recvEnd {s : State ι β} (hopen : s.channel.receiverAlive = true)
      (hunfinished : s.channel.finished = false)
      (hqueue : s.channel.queue = [])
      (hsender : s.channel.senderAlive = false) :
      Move s .recv { s with channel := s.channel.finish }
  | close (s : State ι β) :
      Move s .close { s with channel := s.channel.close }

theorem move_of_step
    {s t : State ι β} {a : Action} (hstep : step s a = some t) :
    Move s a t := by
  cases a with
  | send =>
      simp only [step] at hstep
      split at hstep
      next contract items next htask =>
        split at hstep
        next ch hsent =>
          obtain ⟨hopen, hroom, rfl⟩ := Channel.send_eq_sent.mp hsent
          simp only [Option.some.injEq] at hstep
          exact hstep ▸ Move.sent htask hopen hroom
        next hclosed =>
          simp only [Option.some.injEq] at hstep
          exact hstep ▸ Move.closed htask
            (Channel.send_eq_closed.mp hclosed)
        next => contradiction
      next => contradiction
  | timeout =>
      simp only [step] at hstep
      split at hstep
      next contract items next htask =>
        split at hstep
        next hfull =>
          simp only [Option.some.injEq] at hstep
          exact hstep ▸ Move.timeout htask
            (Channel.send_eq_full.mp hfull).2
        next => contradiction
      next => contradiction
  | finish =>
      simp only [step] at hstep
      split at hstep
      next hended =>
        simp only [Option.some.injEq] at hstep
        exact hstep ▸ Move.finish hended
      next => contradiction
  | recv =>
      obtain ⟨ch, hrecv, rfl⟩ := Option.map_eq_some_iff.mp hstep
      obtain ⟨hopen, hunfinished, hcase⟩ := Channel.recv_eq_some.mp hrecv
      rcases hcase with ⟨hqueue, rfl⟩ | ⟨hqueue, hsender, rfl⟩
      · exact Move.recvItem hopen hunfinished hqueue
      · exact Move.recvEnd hopen hunfinished hqueue hsender
  | close =>
      simp only [step, Option.some.injEq] at hstep
      exact hstep ▸ Move.close s

/-- The work carried by a list of messages. -/
def carried (messages : List (Message ι β)) : List ι :=
  messages.flatMap Message.items

/-- What has been or may still be delivered. -/
def State.reach (s : State ι β) : List ι :=
  carried s.channel.placed ++ s.task.delivered

/-- What holds in every state of a task that stops on failure and delivers
`full` when nothing fails. -/
structure State.Sound (P : β → Prop) (full : List ι) (s : State ι β) :
    Prop where
  stops : s.task.StopsOnFailure P
  contracts : ∀ m ∈ s.channel.placed, P m.contract
  reach : s.reach <+: full
  ended : s.channel.senderAlive = false → s.task.Ended
  finished : s.channel.finished = true →
    s.channel.senderAlive = false ∧ s.channel.queue = []

theorem start_sound
    {P : β → Prop} (capacity : ℕ) {task : Task ι β}
    (hstops : task.StopsOnFailure P) :
    (start capacity task).Sound P task.delivered := by
  refine ⟨hstops, ?_, List.prefix_refl _, ?_, ?_⟩ <;> simp [start]

/-- A send that fails gives up the work of its value. -/
theorem State.Sound.lost
    {P : β → Prop} {full : List ι} {s : State ι β} {contract : β}
    {items : List ι} {next : SendResult → Task ι β}
    (hsound : s.Sound P full)
    (htask : s.task = .sendTimeout contract items next) :
    carried s.channel.placed <+: full ∧ carried s.channel.placed ≠ full := by
  obtain ⟨rest, hrest⟩ := hsound.reach
  have hitems : items ≠ [] := by
    have hstops := hsound.stops
    rw [htask] at hstops
    cases hstops with
    | sendTimeout hcontract hitems htimeout hclosed hsent => exact hitems
  simp only [State.reach, htask, Task.delivered, List.append_assoc] at hrest
  constructor
  · exact ⟨_, hrest⟩
  · intro heq
    rw [heq] at hrest
    have hnil := List.append_right_eq_self.mp hrest
    exact hitems (List.append_eq_nil_iff.mp hnil).1

/-- A task that has given up a send reaches only what was placed so far. -/
theorem reach_of_done
    {s : State ι β} {task : Task ι β} (hdone : task = .done) :
    State.reach { s with task := task } = carried s.channel.placed := by
  simp [State.reach, hdone, Task.delivered]

/-- Each step keeps what can be reached, unless a send fails: then not
everything can be reached any more. -/
theorem Move.reach_cases
    {P : β → Prop} {full : List ι} {s t : State ι β} {a : Action}
    (hmove : Move s a t) (hsound : s.Sound P full) :
    (a ≠ .timeout ∧ t.reach = s.reach) ∨
      (t.reach <+: full ∧ t.reach ≠ full ∧
        (a = .timeout ∨ s.channel.receiverAlive = false) ∧
        ¬ s.task.Ended) := by
  have hstops := hsound.stops
  cases hmove with
  | sent htask hopen hroom =>
      left
      refine ⟨by simp, ?_⟩
      simp [State.reach, htask, Task.delivered, carried]
  | closed htask hclosed =>
      right
      rw [htask] at hstops
      cases hstops with
      | sendTimeout hcontract hitems htimeoutDone hclosedDone hsent =>
          rw [reach_of_done hclosedDone, htask]
          exact ⟨(hsound.lost htask).1, (hsound.lost htask).2,
            .inr hclosed, id⟩
  | timeout htask hfull =>
      right
      rw [htask] at hstops
      cases hstops with
      | sendTimeout hcontract hitems htimeoutDone hclosedDone hsent =>
          rw [reach_of_done htimeoutDone, htask]
          exact ⟨(hsound.lost htask).1, (hsound.lost htask).2,
            .inl rfl, id⟩
  | finish hended => exact .inl ⟨by simp, rfl⟩
  | recvItem hopen hunfinished hqueue =>
      exact .inl ⟨by simp, by simp [State.reach]⟩
  | recvEnd hopen hunfinished hqueue hsender =>
      exact .inl ⟨by simp, rfl⟩
  | close => exact .inl ⟨by simp, rfl⟩

theorem Move.sound
    {P : β → Prop} {full : List ι} {s t : State ι β} {a : Action}
    (hmove : Move s a t) (hsound : s.Sound P full) : t.Sound P full := by
  have hreach : t.reach <+: full := by
    rcases hmove.reach_cases hsound with ⟨_, hsame⟩ | ⟨hreached, _⟩
    · rw [hsame]
      exact hsound.reach
    · exact hreached
  obtain ⟨hstops, hcontracts, _, hended, hfinished⟩ := hsound
  cases hmove with
  | sent htask hopen hroom =>
      rw [htask] at hstops hended
      have halive : s.channel.senderAlive ≠ false := fun hdead => hended hdead
      cases hstops with
      | sendTimeout hcontract hitems htimeoutDone hclosedDone hsent =>
          refine ⟨hsent, ?_, hreach, ?_, ?_⟩
          · intro m hm
            rw [Channel.push_placed, List.mem_append,
              List.mem_singleton] at hm
            rcases hm with hm | rfl
            · exact hcontracts m hm
            · exact hcontract
          · intro hdead
            exact absurd hdead halive
          · intro hread
            exact absurd (hfinished hread).1 halive
  | closed htask hclosed =>
      rw [htask] at hstops
      cases hstops with
      | sendTimeout hcontract hitems htimeoutDone hclosedDone hsent =>
          refine ⟨?_, hcontracts, hreach, ?_, hfinished⟩
          · rw [hclosedDone]
            exact .done
          · intro _
            rw [hclosedDone]
            trivial
  | timeout htask hfull =>
      rw [htask] at hstops
      cases hstops with
      | sendTimeout hcontract hitems htimeoutDone hclosedDone hsent =>
          refine ⟨?_, hcontracts, hreach, ?_, hfinished⟩
          · rw [htimeoutDone]
            exact .done
          · intro _
            rw [htimeoutDone]
            trivial
  | finish hend =>
      exact ⟨hstops, hcontracts, hreach, fun _ => hend,
        fun hread => ⟨rfl, (hfinished hread).2⟩⟩
  | recvItem hopen hunfinished hqueue =>
      refine ⟨hstops, ?_, hreach, hended, ?_⟩
      · rw [Channel.pop_placed]
        exact hcontracts
      · intro hread
        exact absurd (hunfinished.symm.trans hread) Bool.false_ne_true
  | recvEnd hopen hunfinished hqueue hsender =>
      exact ⟨hstops, hcontracts, hreach, hended,
        fun _ => ⟨hsender, hqueue⟩⟩
  | close => exact ⟨hstops, hcontracts, hreach, hended, hfinished⟩

theorem exec_sound
    {P : β → Prop} {capacity : ℕ} {task : Task ι β} {acts : List Action}
    {s : State ι β} (hstops : task.StopsOnFailure P)
    (hrun : TransitionSystem.exec step (start capacity task) acts =
      some s) : s.Sound P task.delivered :=
  TransitionSystem.exec_invariant
    (fun _ _ _ hs hstep => (move_of_step hstep).sound hs)
    (start_sound capacity hstops) hrun

/-- A reader that has seen the end of the stream has read all that the task
still reaches. -/
theorem State.Sound.carried_received
    {P : β → Prop} {full : List ι} {s : State ι β}
    (hsound : s.Sound P full) (hfinished : s.channel.finished = true) :
    carried s.channel.received = s.reach := by
  obtain ⟨hdead, hqueue⟩ := hsound.finished hfinished
  have hended := hsound.ended hdead
  have hnothing : s.task.delivered = [] := by
    cases htask : s.task with
    | sendTimeout contract items next =>
        rw [htask] at hended
        exact hended.elim
    | _ => rfl
  rw [State.reach, hnothing, List.append_nil,
    Channel.placed_of_queue_nil hqueue]

/-- Everything is still reached, or the reader has gone before the end. -/
def State.Delivering (full : List ι) (s : State ι β) : Prop :=
  s.reach = full ∨
    (s.channel.receiverAlive = false ∧ s.channel.finished = false)

theorem Move.delivering
    {P : β → Prop} {full : List ι} {s t : State ι β} {a : Action}
    (hmove : Move s a t) (hsound : s.Sound P full) (hne : a ≠ .timeout)
    (hdelivering : s.Delivering full) : t.Delivering full := by
  rcases hdelivering with hreach | ⟨hclosed, hunfinished⟩
  · rcases hmove.reach_cases hsound with
      ⟨_, hsame⟩ | ⟨_, _, htimeout | hclosed, hrunning⟩
    · exact .inl (hsame.trans hreach)
    · exact absurd htimeout hne
    · -- a running task still has its sender, so the end is not in sight
      have hunfinished : s.channel.finished = false := by
        by_contra hread
        have hdead := (hsound.finished (by simpa using hread)).1
        exact hrunning (hsound.ended hdead)
      cases hmove with
      | closed htask hgone => exact .inr ⟨hgone, hunfinished⟩
      | finish hended => exact absurd hended hrunning
      | close => exact .inr ⟨rfl, hunfinished⟩
      | timeout htask hfull => exact absurd rfl hne
      | _ => simp_all
  · right
    cases hmove with
    | close => exact ⟨rfl, hunfinished⟩
    | closed htask hgone => exact ⟨hgone, hunfinished⟩
    | finish hended => exact ⟨hclosed, hunfinished⟩
    | timeout htask hfull => exact absurd rfl hne
    | _ => simp_all

/-- What a reader has when it sees the end of the stream is everything the
task can deliver if and only if no send of the run timed out. -/
theorem delivered_iff_no_timeout
    {P : β → Prop} {capacity : ℕ} {task : Task ι β} {acts : List Action}
    {s : State ι β} (hstops : task.StopsOnFailure P)
    (hrun : TransitionSystem.exec step (start capacity task) acts =
      some s)
    (hfinished : s.channel.finished = true) :
    carried s.channel.received = task.delivered ↔
      TransitionSystem.Along step (fun _ a => a ≠ .timeout)
        (start capacity task) acts := by
  rw [(exec_sound hstops hrun).carried_received hfinished]
  constructor
  · intro hreach
    refine TransitionSystem.along_of_exec
      (I := fun s : State ι β => s.Sound P task.delivered)
      (G := fun s : State ι β => s.reach = task.delivered)
      (fun _ _ _ hs hstep => (move_of_step hstep).sound hs) ?_
      (start_sound capacity hstops) hrun hreach
    intro before a after hsound hstep hafter
    rcases (move_of_step hstep).reach_cases hsound with
      ⟨hne, hsame⟩ | ⟨_, hlost, _⟩
    · exact ⟨hsame.symm.trans hafter, hne⟩
    · exact absurd hafter hlost
  · intro halong
    have hboth : s.Sound P task.delivered ∧
        s.Delivering task.delivered :=
      TransitionSystem.exec_invariant_along
        (I := fun s : State ι β => s.Sound P task.delivered ∧
          s.Delivering task.delivered)
        (fun _ _ _ hs hne hstep =>
          ⟨(move_of_step hstep).sound hs.1,
            (move_of_step hstep).delivering hs.1 hne hs.2⟩)
        ⟨start_sound capacity hstops, .inl rfl⟩ halong hrun
    rcases hboth.2 with hreach | ⟨_, hunfinished⟩
    · exact hreach
    · exact absurd (hunfinished.symm.trans hfinished) Bool.false_ne_true

section Scripts

/-- What the task sends when every send succeeds. -/
def Task.contracts : Task ι β → List β
  | .sendTimeout contract _ next => contract :: (next .sent).contracts
  | _ => []

/-- The sends of the task with their outcomes, when send number `k` ends as
`outcomes k`. -/
def Task.attempts : Task ι β → (ℕ → SendResult) → List (β × SendResult)
  | .sendTimeout contract _ next, outcomes =>
      (contract, outcomes 0) ::
        (next (outcomes 0)).attempts fun k => outcomes (k + 1)
  | _, _ => []

def deliveredContract : β × SendResult → Option β
  | (contract, .sent) => some contract
  | _ => none

def Task.deliveredContracts (task : Task ι β) (outcomes : ℕ → SendResult) :
    List β :=
  (task.attempts outcomes).filterMap deliveredContract

theorem filterMap_deliveredContract_sent (contracts : List β) :
    (contracts.map fun contract => (contract, SendResult.sent)).filterMap
      deliveredContract = contracts := by
  rw [List.filterMap_map]
  exact List.filterMap_some

theorem Task.attempts_of_sent
    {task : Task ι β} {outcomes : ℕ → SendResult}
    (hsent : ∀ k < task.contracts.length, outcomes k = .sent) :
    task.attempts outcomes =
      task.contracts.map fun contract => (contract, .sent) := by
  induction task generalizing outcomes with
  | done => rfl
  | panic => rfl
  | sendTimeout contract items next ih =>
      have hfirst : outcomes 0 = .sent := hsent 0 (Nat.succ_pos _)
      rw [Task.attempts, Task.contracts, hfirst, List.map_cons]
      congr 1
      apply ih
      intro k hk
      exact hsent (k + 1) (Nat.succ_lt_succ hk)

/-- The first send that fails is the last one that is tried. -/
theorem Task.attempts_of_failure
    {P : β → Prop} {task : Task ι β} (hstops : task.StopsOnFailure P)
    {outcomes : ℕ → SendResult} {k : ℕ} (hk : k < task.contracts.length)
    (hsent : ∀ j < k, outcomes j = .sent) (hfailed : outcomes k ≠ .sent) :
    task.attempts outcomes =
      ((task.contracts.take k).map fun contract => (contract, .sent)) ++
        [(task.contracts[k], outcomes k)] := by
  induction hstops generalizing outcomes k with
  | done => exact absurd hk (Nat.not_lt_zero k)
  | panic => exact absurd hk (Nat.not_lt_zero k)
  | @sendTimeout contract items next _ _ htimeout hclosed _ ih =>
      rw [Task.attempts]
      cases k with
      | zero =>
          have hended : next (outcomes 0) = .done := by
            cases hresult : outcomes 0 with
            | sent => exact absurd hresult hfailed
            | timeout => exact htimeout
            | closed => exact hclosed
          rw [hended]
          rfl
      | succ k =>
          have hfirst : outcomes 0 = .sent := hsent 0 (Nat.succ_pos k)
          have hrest := ih (Nat.lt_of_succ_lt_succ hk)
            (fun j hj => hsent (j + 1) (Nat.succ_lt_succ hj)) hfailed
          rw [hfirst, hrest]
          rfl

theorem Task.length_attempts_of_failure
    {P : β → Prop} {task : Task ι β} (hstops : task.StopsOnFailure P)
    {outcomes : ℕ → SendResult} {k : ℕ} (hk : k < task.contracts.length)
    (hsent : ∀ j < k, outcomes j = .sent) (hfailed : outcomes k ≠ .sent) :
    (task.attempts outcomes).length = k + 1 := by
  have htake : min k task.contracts.length = k :=
    Nat.min_eq_left (Nat.le_of_lt hk)
  simp [attempts_of_failure hstops hk hsent hfailed, htake]

/-- What is delivered are the contracts before the first send that fails. -/
theorem Task.deliveredContracts_of_failure
    {P : β → Prop} {task : Task ι β} (hstops : task.StopsOnFailure P)
    {outcomes : ℕ → SendResult} {k : ℕ} (hk : k < task.contracts.length)
    (hsent : ∀ j < k, outcomes j = .sent) (hfailed : outcomes k ≠ .sent) :
    task.deliveredContracts outcomes = task.contracts.take k := by
  have hlast : deliveredContract (task.contracts[k], outcomes k) = none := by
    cases hresult : outcomes k with
    | sent => exact absurd hresult hfailed
    | timeout => rfl
    | closed => rfl
  rw [Task.deliveredContracts, attempts_of_failure hstops hk hsent hfailed,
    List.filterMap_append, filterMap_deliveredContract_sent,
    List.filterMap_cons_none hlast, List.filterMap_nil, List.append_nil]

theorem Task.deliveredContracts_of_sent
    {task : Task ι β} {outcomes : ℕ → SendResult}
    (hsent : ∀ k < task.contracts.length, outcomes k = .sent) :
    task.deliveredContracts outcomes = task.contracts := by
  rw [Task.deliveredContracts, attempts_of_sent hsent,
    filterMap_deliveredContract_sent]

theorem sent_or_first_failure (outcomes : ℕ → SendResult) (n : ℕ) :
    (∀ k < n, outcomes k = .sent) ∨
      ∃ k < n, (∀ j < k, outcomes j = .sent) ∧ outcomes k ≠ .sent := by
  induction n with
  | zero => exact .inl fun k hk => absurd hk (Nat.not_lt_zero k)
  | succ n ih =>
      rcases ih with hsent | ⟨k, hk, hfirst⟩
      · by_cases hlast : outcomes n = .sent
        · left
          intro k hk
          rcases Nat.lt_succ_iff_lt_or_eq.mp hk with hk | rfl
          · exact hsent k hk
          · exact hlast
        · exact .inr ⟨n, Nat.lt_succ_self n, hsent, hlast⟩
      · exact .inr ⟨k, Nat.lt_succ_of_lt hk, hfirst⟩

/-- Tasks that stop on failure and send corresponding contracts deliver
corresponding contracts, whatever becomes of the sends. -/
theorem Task.deliveredContracts_map
    {ι' : Type u} {β' : Type v} {P : β → Prop} {P' : β' → Prop}
    {task : Task ι β} {other : Task ι' β'} {f : β' → β}
    (hstops : task.StopsOnFailure P) (hother : other.StopsOnFailure P')
    (hcontracts : task.contracts = other.contracts.map f)
    (outcomes : ℕ → SendResult) :
    task.deliveredContracts outcomes =
      (other.deliveredContracts outcomes).map f := by
  have hlength : task.contracts.length = other.contracts.length := by
    rw [hcontracts, List.length_map]
  rcases sent_or_first_failure outcomes task.contracts.length with
    hsent | ⟨k, hk, hsent, hfailed⟩
  · rw [deliveredContracts_of_sent hsent,
      deliveredContracts_of_sent (hlength ▸ hsent), hcontracts]
  · rw [deliveredContracts_of_failure hstops hk hsent hfailed,
      deliveredContracts_of_failure hother (hlength ▸ hk) hsent hfailed,
      hcontracts, List.map_take]

end Scripts

section Sends

/-- Whatever becomes of its sends, the task sends such messages only. -/
def Task.Sends (P : Message ι β → Prop) : Task ι β → Prop
  | .sendTimeout contract items next =>
      P ⟨contract, items⟩ ∧ ∀ result, (next result).Sends P
  | _ => True

theorem Move.sends
    {P : Message ι β → Prop} {s t : State ι β} {a : Action}
    (hmove : Move s a t)
    (hsends : s.task.Sends P ∧ ∀ m ∈ s.channel.placed, P m) :
    t.task.Sends P ∧ ∀ m ∈ t.channel.placed, P m := by
  rcases hsends with ⟨htask, hplaced⟩
  cases hmove with
  | sent heq hopen hroom =>
      rw [heq] at htask
      refine ⟨htask.2 .sent, ?_⟩
      intro m hm
      rw [Channel.push_placed, List.mem_append, List.mem_singleton] at hm
      rcases hm with hm | rfl
      · exact hplaced m hm
      · exact htask.1
  | closed heq hclosed =>
      rw [heq] at htask
      exact ⟨htask.2 .closed, hplaced⟩
  | timeout heq hfull =>
      rw [heq] at htask
      exact ⟨htask.2 .timeout, hplaced⟩
  | recvItem hopen hunfinished hqueue =>
      refine ⟨htask, ?_⟩
      rw [Channel.pop_placed]
      exact hplaced
  | _ => exact ⟨htask, hplaced⟩

theorem exec_sends
    {P : Message ι β → Prop} {capacity : ℕ} {task : Task ι β}
    {acts : List Action} {s : State ι β} (hsends : task.Sends P)
    (hrun : TransitionSystem.exec step (start capacity task) acts =
      some s) : ∀ m ∈ s.channel.placed, P m := by
  have hstart : (start capacity task).task.Sends P ∧
      ∀ m ∈ (start capacity task).channel.placed, P m :=
    ⟨hsends, by simp [start]⟩
  exact (TransitionSystem.exec_invariant
    (I := fun s : State ι β => s.task.Sends P ∧
      ∀ m ∈ s.channel.placed, P m)
    (fun _ _ _ hs hstep => (move_of_step hstep).sends hs) hstart hrun).2

end Sends

section Messages

/-- What the task puts into its channel when every send succeeds. -/
def Task.messages : Task ι β → List (Message ι β)
  | .sendTimeout contract items next =>
      ⟨contract, items⟩ :: (next .sent).messages
  | _ => []

/-- What has been put and what may still be put only loses an end. -/
theorem Move.messages
    {P : β → Prop} {full : List ι} {s t : State ι β} {a : Action}
    (hmove : Move s a t) (hsound : s.Sound P full) :
    t.channel.placed ++ t.task.messages <+:
      s.channel.placed ++ s.task.messages := by
  have hstops := hsound.stops
  cases hmove with
  | sent htask hopen hroom =>
      rw [htask, Task.messages]
      simp only [Channel.push_placed, List.append_assoc,
        List.singleton_append]
      exact List.prefix_refl _
  | closed htask hclosed =>
      rw [htask] at hstops
      cases hstops with
      | sendTimeout hcontract hitems htimeoutDone hclosedDone hsent =>
          simp only [hclosedDone, Task.messages, List.append_nil]
          exact List.prefix_append _ _
  | timeout htask hfull =>
      rw [htask] at hstops
      cases hstops with
      | sendTimeout hcontract hitems htimeoutDone hclosedDone hsent =>
          simp only [htimeoutDone, Task.messages, List.append_nil]
          exact List.prefix_append _ _
  | recvItem hopen hunfinished hqueue =>
      simp only [Channel.pop_placed]
      exact List.prefix_refl _
  | _ => exact List.prefix_refl _

/-- A task that stops at its first failure puts an initial part of its
messages into the channel, whatever becomes of its sends. -/
theorem exec_messages
    {P : β → Prop} {capacity : ℕ} {task : Task ι β} {acts : List Action}
    {s : State ι β} (hstops : task.StopsOnFailure P)
    (hrun : TransitionSystem.exec step (start capacity task) acts =
      some s) : s.channel.placed <+: task.messages := by
  have hboth : s.Sound P task.delivered ∧
      s.channel.placed ++ s.task.messages <+: task.messages :=
    TransitionSystem.exec_invariant
      (I := fun s : State ι β => s.Sound P task.delivered ∧
        s.channel.placed ++ s.task.messages <+: task.messages)
      (fun _ _ _ hs hstep =>
        ⟨(move_of_step hstep).sound hs.1,
          ((move_of_step hstep).messages hs.1).trans hs.2⟩)
      ⟨start_sound capacity hstops, List.prefix_refl _⟩ hrun
  exact (List.prefix_append _ _).trans hboth.2

end Messages

end ChannelTask
