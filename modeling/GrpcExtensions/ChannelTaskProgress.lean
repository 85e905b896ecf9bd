import GrpcExtensions.ChannelTask
import GrpcExtensions.RankedRuns

/-!
# A feeding task and its reader come to rest

A task that stops on failure has at most one send for each piece of its work.
Every send is paid for twice, once when it is tried and once when the item is
read, so the task and its reader together have a bounded number of steps.
Where they can go no further, the task has ended and the reader has been told.
A task with no more sends than the channel holds never gives one up.
-/

universe u v

namespace ChannelTask

variable {ι : Type u} {β : Type v}

/-- The task sends and the reader reads. -/
def Action.transfers : Action → Bool
  | .send => true
  | .timeout => true
  | .recv => true
  | _ => false

/-- The reader stays, and the task drops its sender once. -/
def Action.Onward (s : State ι β) : Action → Prop
  | .finish => s.channel.senderAlive = true
  | a => a.transfers = true

instance (s : State ι β) (a : Action) : Decidable (a.Onward s) := by
  cases a <;> unfold Action.Onward <;> infer_instance

def stepOnward (s : State ι β) (a : Action) : Option (State ι β) :=
  TransitionSystem.restrict step (fun s a => a.Onward s) s a

/-- What is left to do: the sends, the reads and the two sides of the end. -/
def State.work (s : State ι β) : ℕ :=
  2 * s.task.contracts.length + s.channel.queue.length +
    s.channel.senderAlive.toNat + (!s.channel.finished).toNat

/-- Each send carries some of the work. -/
theorem Task.StopsOnFailure.length_contracts_le
    {P : β → Prop} {task : Task ι β} (hstops : task.StopsOnFailure P) :
    task.contracts.length ≤ task.delivered.length := by
  induction hstops with
  | done => exact Nat.le_refl 0
  | panic => exact Nat.le_refl 0
  | sendTimeout hcontract hitems htimeout hclosed hsent ih =>
      have hsome := List.length_pos_of_ne_nil hitems
      simp only [Task.contracts, Task.delivered, List.length_cons,
        List.length_append]
      omega

theorem start_work (capacity : ℕ) (task : Task ι β) :
    (start capacity task).work = 2 * task.contracts.length + 2 := rfl

section Moves

variable {P : β → Prop} {full : List ι} {s t : State ι β} {a : Action}

/-- A send that fails leaves nothing more to send. -/
theorem contracts_of_failed
    (hsound : s.Sound P full) {contract : β} {items : List ι}
    {next : SendResult → Task ι β}
    (htask : s.task = .sendTimeout contract items next)
    (result : SendResult) (hfailed : result ≠ .sent) :
    (next result).contracts = [] := by
  have hstops := hsound.stops
  rw [htask] at hstops
  cases hstops with
  | sendTimeout hcontract hitems htimeout hclosed hsent =>
      cases result with
      | sent => exact absurd rfl hfailed
      | timeout => rw [htimeout]; rfl
      | closed => rw [hclosed]; rfl

/-- Sends and reads do some of the work, and nothing adds to it. -/
theorem Move.work_add_le
    (hmove : Move s a t) (hsound : s.Sound P full) :
    t.work + a.transfers.toNat ≤ s.work := by
  unfold State.work
  cases hmove with
  | sent htask hopen hroom =>
      rw [htask]
      simp only [Task.contracts, Channel.push, List.length_cons,
        List.length_append, List.length_nil, Action.transfers,
        Bool.toNat_true]
      omega
  | closed htask hclosed =>
      have hnone := contracts_of_failed hsound htask .closed (by simp)
      rw [htask]
      simp only [hnone, Task.contracts, List.length_cons, List.length_nil,
        Action.transfers, Bool.toNat_true]
      omega
  | timeout htask hfull =>
      have hnone := contracts_of_failed hsound htask .timeout (by simp)
      rw [htask]
      simp only [hnone, Task.contracts, List.length_cons, List.length_nil,
        Action.transfers, Bool.toNat_true]
      omega
  | finish hended =>
      simp only [Channel.dropSender, Action.transfers, Bool.toNat_false]
      omega
  | recvItem hopen hunfinished hqueue =>
      have hlength := List.length_pos_of_ne_nil hqueue
      simp only [Channel.pop, List.length_tail, Action.transfers,
        Bool.toNat_true]
      omega
  | recvEnd hopen hunfinished hqueue hsender =>
      simp only [Channel.finish, hunfinished, Action.transfers, Bool.not_true,
        Bool.not_false, Bool.toNat_true, Bool.toNat_false]
      omega
  | close => exact Nat.le_refl _

theorem stepOnward_eq_some :
    stepOnward s a = some t ↔ a.Onward s ∧ step s a = some t :=
  TransitionSystem.restrict_eq_some

theorem work_lt_of_stepOnward
    (hsound : s.Sound P full) (hstep : stepOnward s a = some t) :
    t.work < s.work := by
  rcases stepOnward_eq_some.mp hstep with ⟨honward, hstep⟩
  have hmove := move_of_step hstep
  have hle := hmove.work_add_le hsound
  cases hmove with
  | finish hended =>
      -- the sender is dropped for the first time
      have halive : s.channel.senderAlive = true := honward
      simp only [State.work, Channel.dropSender, halive, Bool.toNat_true,
        Bool.toNat_false]
      omega
  | close => exact absurd honward Bool.false_ne_true
  | _ => exact hle

theorem sound_of_stepOnward
    (hsound : s.Sound P full) (hstep : stepOnward s a = some t) :
    t.Sound P full :=
  (move_of_step (stepOnward_eq_some.mp hstep).2).sound hsound

end Moves

/-- The task is over, and a reader that is still there has read all that was
sent and the end of the stream. -/
structure State.AtRest (s : State ι β) : Prop where
  ended : s.task.Ended
  dropped : s.channel.senderAlive = false
  finished : s.channel.receiverAlive = true → s.channel.finished = true
  read : s.channel.receiverAlive = true →
    s.channel.received = s.channel.placed

section Rest

variable {P : β → Prop} {full : List ι} {s : State ι β}

/-- A running task can send, or it gives the send up. -/
theorem ended_of_stuck
    (hstuck : TransitionSystem.Stuck stepOnward s) : s.task.Ended := by
  have hsend : step s .send = none := hstuck.step_eq_none rfl
  have htimeout : step s .timeout = none := hstuck.step_eq_none rfl
  cases htask : s.task with
  | done => trivial
  | panic => trivial
  | sendTimeout contract items next =>
      simp only [step, htask] at hsend htimeout
      cases houtcome : s.channel.send ⟨contract, items⟩ with
      | sent ch => simp [houtcome] at hsend
      | closed => simp [houtcome] at hsend
      | full => simp [houtcome] at htimeout

theorem atRest_of_stuck
    (hsound : s.Sound P full)
    (hstuck : TransitionSystem.Stuck stepOnward s) : s.AtRest := by
  have hended := ended_of_stuck hstuck
  have hdropped : s.channel.senderAlive = false := by
    by_contra halive
    have honward : Action.finish.Onward s := by
      simpa [Action.Onward] using halive
    have hnone : step s .finish = none := hstuck.step_eq_none honward
    simp [step, hended] at hnone
  have hrecv : s.channel.recv = none := by
    have hnone : step s .recv = none := hstuck.step_eq_none rfl
    simpa [step] using hnone
  have hfinished : s.channel.receiverAlive = true →
      s.channel.finished = true := by
    intro hopen
    rcases Channel.recv_eq_none.mp hrecv with hclosed | hfinished | ⟨_, halive⟩
    · rw [hopen] at hclosed
      contradiction
    · exact hfinished
    · rw [hdropped] at halive
      contradiction
  refine ⟨hended, hdropped, hfinished, ?_⟩
  intro hopen
  have hqueue := (hsound.finished (hfinished hopen)).2
  exact (Channel.placed_of_queue_nil hqueue).symm

end Rest

/-- How a task and its reader go on from a state of theirs. -/
structure State.Settles (s : State ι β) : Prop where
  bounded : ∀ acts t, TransitionSystem.exec stepOnward s acts = some t →
    acts.length + t.work ≤ s.work
  settles : ∃ acts t, TransitionSystem.exec stepOnward s acts = some t ∧
    TransitionSystem.Stuck stepOnward t
  rest : ∀ acts t, TransitionSystem.exec stepOnward s acts = some t →
    TransitionSystem.Stuck stepOnward t → t.AtRest

theorem State.Sound.settles
    {P : β → Prop} {full : List ι} {s : State ι β}
    (hsound : s.Sound P full) : s.Settles := by
  have hinv : ∀ (u : State ι β) a v, u.Sound P full →
      stepOnward u a = some v → v.Sound P full :=
    fun u a v hu hstep => sound_of_stepOnward hu hstep
  have hlower : ∀ (u : State ι β) a v, u.Sound P full →
      stepOnward u a = some v → v.work < u.work :=
    fun u a v hu hstep => work_lt_of_stepOnward hu hstep
  constructor
  · intro acts t hrun
    exact TransitionSystem.length_add_rank_le hinv hlower hsound hrun
  · exact TransitionSystem.exists_stuck hinv hlower hsound
  · intro acts t hrun hstuck
    exact atRest_of_stuck
      (TransitionSystem.exec_invariant hinv hsound hrun) hstuck

/-- No run has more sends and reads than two for each piece of work and one
for the end. -/
theorem countP_transfers_le
    {P : β → Prop} {capacity : ℕ} {task : Task ι β} {acts : List Action}
    {s : State ι β} (hstops : task.StopsOnFailure P)
    (hrun : TransitionSystem.exec step (start capacity task) acts =
      some s) :
    acts.countP Action.transfers + s.work ≤
      2 * task.delivered.length + 2 := by
  have hcount : acts.countP Action.transfers + s.work ≤
      (start capacity task).work := by
    apply TransitionSystem.countP_add_rank_le
      (I := fun s : State ι β => s.Sound P task.delivered)
      (fun _ _ _ hs hstep => (move_of_step hstep).sound hs) ?_ ?_
      (start_sound capacity hstops) hrun
    · intro s a t hs htransfers hstep
      have hle := (move_of_step hstep).work_add_le hs
      rw [htransfers] at hle
      exact hle
    · intro s a t hs _ hstep
      exact Nat.le_of_add_right_le ((move_of_step hstep).work_add_le hs)
  have hlength := hstops.length_contracts_le
  rw [start_work] at hcount
  omega

/-- What has been sent and what is still to be sent fit in the buffer
together, although nothing may ever be read. -/
def State.Fits (s : State ι β) : Prop :=
  s.channel.placed.length + s.task.contracts.length ≤ s.channel.capacity

section Fits

variable {P : β → Prop} {full : List ι} {s t : State ι β} {a : Action}

theorem Move.fits
    (hmove : Move s a t) (hsound : s.Sound P full) (hfits : s.Fits) :
    t.Fits := by
  unfold State.Fits at hfits ⊢
  cases hmove with
  | sent htask hopen hroom =>
      rw [htask] at hfits
      simp only [Task.contracts, List.length_cons] at hfits
      rw [Channel.push_placed, List.length_append, List.length_singleton]
      simp only [Channel.push]
      omega
  | closed htask hclosed =>
      rw [contracts_of_failed hsound htask _ (by simp), List.length_nil]
      exact Nat.le_of_add_right_le hfits
  | timeout htask hfull =>
      rw [contracts_of_failed hsound htask _ (by simp), List.length_nil]
      exact Nat.le_of_add_right_le hfits
  | finish hended => exact hfits
  | recvItem hopen hunfinished hqueue =>
      rw [Channel.pop_placed]
      exact hfits
  | recvEnd hopen hunfinished hqueue hsender => exact hfits
  | close => exact hfits

/-- A send that is tried has a place in the buffer. -/
theorem Move.ne_timeout_of_fits (hmove : Move s a t) (hfits : s.Fits) :
    a ≠ .timeout := by
  intro htimeout
  subst htimeout
  cases hmove with
  | timeout htask hfull =>
      apply hfull
      unfold State.Fits at hfits
      rw [htask, Channel.placed, List.length_append] at hfits
      simp only [Task.contracts, List.length_cons] at hfits
      unfold Channel.HasRoom
      omega

end Fits

section Runs

variable {P : β → Prop} {capacity : ℕ} {task : Task ι β}
variable {acts : List Action} {s : State ι β}

theorem start_fits (hshort : task.contracts.length ≤ capacity) :
    (start capacity task).Fits := by
  rw [State.Fits, start, Channel.new_placed, List.length_nil, Nat.zero_add]
  exact hshort

/-- A task that makes no more contracts than its channel holds has room for
each of them. -/
theorem exec_fits
    (hstops : task.StopsOnFailure P)
    (hshort : task.contracts.length ≤ capacity)
    (hrun : TransitionSystem.exec step (start capacity task) acts =
      some s) : s.Fits := by
  have hboth : s.Sound P task.delivered ∧ s.Fits :=
    TransitionSystem.exec_invariant
      (I := fun s : State ι β => s.Sound P task.delivered ∧ s.Fits)
      (fun _ _ _ hs hstep =>
        ⟨(move_of_step hstep).sound hs.1, (move_of_step hstep).fits hs.1 hs.2⟩)
      ⟨start_sound capacity hstops, start_fits hshort⟩ hrun
  exact hboth.2

theorem along_ne_timeout
    (hstops : task.StopsOnFailure P)
    (hshort : task.contracts.length ≤ capacity)
    (hrun : TransitionSystem.exec step (start capacity task) acts =
      some s) :
    TransitionSystem.Along step (fun _ a => a ≠ .timeout)
      (start capacity task) acts := by
  apply TransitionSystem.along_of_exec
    (I := fun s : State ι β => s.Sound P task.delivered ∧ s.Fits)
    (G := fun _ => True) _ _ ⟨start_sound capacity hstops, start_fits hshort⟩
    hrun trivial
  · intro s a t hs hstep
    have hmove := move_of_step hstep
    exact ⟨hmove.sound hs.1, hmove.fits hs.1 hs.2⟩
  · intro s a t hs hstep _
    exact ⟨trivial, (move_of_step hstep).ne_timeout_of_fits hs.2⟩

end Runs

end ChannelTask
