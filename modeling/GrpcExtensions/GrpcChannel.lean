import GrpcExtensions.BoundedRetry
import Mathlib.Data.List.Basic

/-!
# One client on a channel holder

The state of one client and its `GrpcChannelHolder`, and the steps of
`GrpcChannel` on it.  What the network answers is a script: the outcome of
each connect and of each executor call, by its position in the run.  The
channel made by a connect is named by that position.
-/

namespace GrpcExtensions
namespace GrpcChannel

universe u v

variable {ρ : Type u} {β : Type v}

inductive Code where
  | ok
  | cancelled
  | unknown
  | invalidArgument
  | deadlineExceeded
  | notFound
  | alreadyExists
  | permissionDenied
  | resourceExhausted
  | failedPrecondition
  | aborted
  | outOfRange
  | unimplemented
  | internal
  | unavailable
  | dataLoss
  | unauthenticated
  deriving DecidableEq

structure Status where
  code : Code
  message : String

/-- A transport error is known by its text only. -/
inductive GrpcReadError where
  | timeout
  | transportError (err : String)
  | tonicStatus (status : Status)

abbrev ChannelId := ℕ

inductive ConnectOutcome where
  | connected
  | failed (err : String)
  | timeout

inductive ExecuteOutcome (β : Type v) where
  | response (result : β)
  | timeout
  | status (status : Status)

/-- An executor call: the channel it ran on, its request and its outcome. -/
structure Call (ρ : Type u) (β : Type v) where
  channel : ChannelId
  request : ρ
  outcome : ExecuteOutcome β

/-- What the network answers, call by call.  `unixSocket` says which kind of
url the settings give. -/
structure Env (β : Type v) where
  unixSocket : Bool
  connect : ℕ → ConnectOutcome
  execute : ℕ → ExecuteOutcome β

structure Client (ρ : Type u) (β : Type v) where
  holder : Option ChannelId
  connects : ℕ
  calls : List (Call ρ β)

/-- The classification in `drop_channel_if_needed`. -/
def GrpcReadError.declaresDead : GrpcReadError → Bool
  | .tonicStatus status => if status.code = .unknown then true else false
  | _ => false

namespace Client

variable (env : Env β) (request : ρ) (client : Client ρ β)

def set (channel : ChannelId) : Client ρ β :=
  { client with holder := some channel }

def dropChannel : Client ρ β :=
  { client with holder := none }

/-- One turn of the connect loop: connect under the timeout and install. -/
def connectOnce : Except GrpcReadError ChannelId × Client ρ β :=
  let after := { client with connects := client.connects + 1 }
  match env.connect client.connects with
  | .connected => (.ok client.connects, after.set client.connects)
  | .failed err => (.error (.transportError err), after)
  | .timeout => (.error .timeout, after)

/-- The loop gives up once `attempt_no > 3`, before it increases the counter:
at the fifth failure. -/
def connectToUnixSocket : Except GrpcReadError ChannelId × Client ρ β :=
  BoundedRetry.loop (connectOnce env) id 5 0 client

/-- The loop for a url that is not a unix socket is a second copy. -/
def createChannel : Except GrpcReadError ChannelId × Client ρ β :=
  if env.unixSocket then client.connectToUnixSocket env
  else BoundedRetry.loop (connectOnce env) id 5 0 client

def getChannel : Except GrpcReadError ChannelId × Client ρ β :=
  match client.holder with
  | some channel => (.ok channel, client)
  | none => client.createChannel env

def dropDeadChannel : Client ρ β :=
  client.dropChannel

def dropChannelIfNeeded (err : GrpcReadError) : Bool × Client ρ β :=
  let remove := err.declaresDead
  if remove then (remove, client.dropDeadChannel) else (remove, client)

def callExecutor (channel : ChannelId) : ExecuteOutcome β × Client ρ β :=
  let outcome := env.execute client.calls.length
  (outcome, { client with calls := client.calls ++ [⟨channel, request, outcome⟩] })

/-- The body that the four `execute` functions share. -/
def executeOn : Except GrpcReadError β × Client ρ β :=
  match client.getChannel env with
  | (.error err, after) => (.error err, after)
  | (.ok channel, connected) =>
      match connected.callExecutor env request channel with
      | (.timeout, after) => (.error .timeout, after.dropDeadChannel)
      | (.response result, after) => (.ok result, after)
      | (.status status, after) =>
          let err := .tonicStatus status
          (.error err, (after.dropChannelIfNeeded err).2)

def execute : Except GrpcReadError β × Client ρ β :=
  client.executeOn env request

def executeWithResponseAsStream : Except GrpcReadError β × Client ρ β :=
  client.executeOn env request

def executeInputAsStream : Except GrpcReadError β × Client ρ β :=
  client.executeOn env request

def executeInputAsStreamResponseAsStream :
    Except GrpcReadError β × Client ρ β :=
  client.executeOn env request

end Client

/-- An answer of the server that does not declare the channel dead. -/
def Call.AnsweredWith (call : Call ρ β) (status : Status) : Prop :=
  call.outcome = .status status ∧ status.code ≠ .unknown

/-- Everything one attempt can do. -/
inductive Attempted (request : ρ) (client : Client ρ β) :
    Except GrpcReadError β → Client ρ β → Prop where
  | noChannel {err : GrpcReadError} {after : Client ρ β}
      (hholder : client.holder = none)
      (herr : ∀ status, err ≠ .tonicStatus status)
      (hnone : after.holder = none) (hcalls : after.calls = client.calls) :
      Attempted request client (.error err) after
  | response {channel : ChannelId} {result : β} {after : Client ρ β}
      (hheld : after.holder = some channel)
      (hcalls : after.calls =
        client.calls ++ [⟨channel, request, .response result⟩]) :
      Attempted request client (.ok result) after
  | timeout {channel : ChannelId} {after : Client ρ β}
      (hdropped : after.holder = none)
      (hcalls : after.calls =
        client.calls ++ [⟨channel, request, .timeout⟩]) :
      Attempted request client (.error .timeout) after
  | dead {channel : ChannelId} {status : Status} {after : Client ρ β}
      (hcode : status.code = .unknown)
      (hdropped : after.holder = none)
      (hcalls : after.calls =
        client.calls ++ [⟨channel, request, .status status⟩]) :
      Attempted request client (.error (.tonicStatus status)) after
  | answered {channel : ChannelId} {status : Status} {after : Client ρ β}
      (hcode : status.code ≠ .unknown)
      (hheld : after.holder = some channel)
      (hcalls : after.calls =
        client.calls ++ [⟨channel, request, .status status⟩]) :
      Attempted request client (.error (.tonicStatus status)) after

/-- Everything a call of `create_channel` on an empty holder can do. -/
inductive Connected (client : Client ρ β) :
    Except GrpcReadError ChannelId → Client ρ β → Prop where
  | installed {channel : ChannelId} {after : Client ρ β}
      (hheld : after.holder = some channel)
      (hcalls : after.calls = client.calls) :
      Connected client (.ok channel) after
  | failed {err : GrpcReadError} {after : Client ρ β}
      (herr : ∀ status, err ≠ .tonicStatus status)
      (hnone : after.holder = none) (hcalls : after.calls = client.calls) :
      Connected client (.error err) after

/-- What `get_channel` does: the connect that succeeds gives the channel its
name, and there are at most five of them. -/
inductive GotChannel (client : Client ρ β) :
    Except GrpcReadError ChannelId → Client ρ β → Prop where
  | held {channel : ChannelId} (hheld : client.holder = some channel) :
      GotChannel client (.ok channel) client
  | created {failures : ℕ} (hnone : client.holder = none)
      (hfailures : failures < 5) :
      GotChannel client (.ok (client.connects + failures))
        { client with
          holder := some (client.connects + failures)
          connects := client.connects + failures + 1 }
  | failed {err : GrpcReadError} (hnone : client.holder = none)
      (herr : ∀ status, err ≠ .tonicStatus status) :
      GotChannel client (.error err)
        { client with connects := client.connects + 5 }

theorem connectOnce_ok
    {env : Env β} {client after : Client ρ β} {channel : ChannelId}
    (honce : client.connectOnce env = (.ok channel, after)) :
    channel = client.connects ∧
      after = { client with
        holder := some client.connects
        connects := client.connects + 1 } := by
  unfold Client.connectOnce at honce
  dsimp only at honce
  split at honce
  next =>
    cases honce
    exact ⟨rfl, rfl⟩
  next => cases honce
  next => cases honce

theorem connectOnce_error
    {env : Env β} {client after : Client ρ β} {err : GrpcReadError}
    (honce : client.connectOnce env = (.error err, after)) :
    (∀ status, err ≠ .tonicStatus status) ∧
      after = { client with connects := client.connects + 1 } := by
  unfold Client.connectOnce at honce
  dsimp only at honce
  split at honce
  next => cases honce
  next =>
    cases honce
    exact ⟨by simp, rfl⟩
  next =>
    cases honce
    exact ⟨by simp, rfl⟩

/-- Each failed connect uses up one name of a channel. -/
theorem connectOnce_run
    {env : Env β} {left : ℕ} {client final : Client ρ β}
    {attempts : List (BoundedRetry.Attempt (Client ρ β) GrpcReadError
      ChannelId)}
    {result : Except GrpcReadError ChannelId}
    (hrun : BoundedRetry.Run (Client.connectOnce env) left client attempts
      result final) :
    (∃ failures ≤ left, result = .ok (client.connects + failures) ∧
        final = { client with
          holder := some (client.connects + failures)
          connects := client.connects + failures + 1 }) ∨
      ∃ err, result = .error err ∧ (∀ status, err ≠ .tonicStatus status) ∧
        final = { client with connects := client.connects + (left + 1) } := by
  induction hrun with
  | done hok =>
      obtain ⟨rfl, rfl⟩ := connectOnce_ok hok
      exact Or.inl ⟨0, Nat.zero_le _, rfl, rfl⟩
  | last herror =>
      obtain ⟨herr, rfl⟩ := connectOnce_error herror
      exact Or.inr ⟨_, rfl, herr, rfl⟩
  | @again left client _ _ _ _ _ herror hrest ih =>
      obtain ⟨herr, rfl⟩ := connectOnce_error herror
      have hshift : ∀ k, client.connects + 1 + k = client.connects + (k + 1) := by
        intro k
        omega
      rcases ih with ⟨failures, hle, hresult, hfinal⟩ |
        ⟨err, hresult, hstatus, hfinal⟩
      · refine Or.inl ⟨failures + 1, by omega, ?_, ?_⟩
        · rw [hresult, hshift]
        · rw [hfinal, hshift]
      · refine Or.inr ⟨err, hresult, hstatus, ?_⟩
        rw [hfinal, hshift]

theorem createChannel_got
    {env : Env β} {client after : Client ρ β}
    {outcome : Except GrpcReadError ChannelId}
    (hnone : client.holder = none)
    (hcreate : client.createChannel env = (outcome, after)) :
    GotChannel client outcome after := by
  obtain ⟨result, final, hrun⟩ :=
    BoundedRetry.run_history (Client.connectOnce env) 5 client
  unfold Client.createChannel Client.connectToUnixSocket at hcreate
  rw [ite_self, hrun.loop_eq id, Except.map_id] at hcreate
  cases hcreate
  rcases connectOnce_run hrun with ⟨failures, hle, rfl, rfl⟩ |
    ⟨err, rfl, herr, rfl⟩
  · exact .created hnone (by omega)
  · exact .failed hnone herr

theorem getChannel_got
    {env : Env β} {client after : Client ρ β}
    {outcome : Except GrpcReadError ChannelId}
    (hget : client.getChannel env = (outcome, after)) :
    GotChannel client outcome after := by
  unfold Client.getChannel at hget
  split at hget
  next channel hheld =>
    cases hget
    exact .held hheld
  next hnone => exact createChannel_got hnone hget

theorem createChannel_connected
    {env : Env β} {client after : Client ρ β}
    {outcome : Except GrpcReadError ChannelId}
    (hnone : client.holder = none)
    (hcreate : client.createChannel env = (outcome, after)) :
    Connected client outcome after := by
  cases createChannel_got hnone hcreate with
  | held hheld =>
      rw [hnone] at hheld
      cases hheld
  | created _ _ => exact .installed rfl rfl
  | failed _ herr => exact .failed herr hnone rfl

/-- An application answer is an error that keeps the channel; only a timeout
and the code `Unknown` drop it. -/
theorem dropChannelIfNeeded_holder
    (client : Client ρ β) (status : Status) :
    (client.dropChannelIfNeeded (.tonicStatus status)).2 =
      if status.code = .unknown then client.dropChannel else client := by
  unfold Client.dropChannelIfNeeded GrpcReadError.declaresDead
  by_cases hcode : status.code = .unknown
  · simp [hcode, Client.dropDeadChannel]
  · simp [hcode]

theorem callExecutor_attempted
    {env : Env β} {request : ρ} {client connected after : Client ρ β}
    {channel : ChannelId} {result : Except GrpcReadError β}
    (hheld : connected.holder = some channel)
    (hcalls : connected.calls = client.calls)
    (hcall :
      (match connected.callExecutor env request channel with
      | (.timeout, after) => (.error .timeout, after.dropDeadChannel)
      | (.response result, after) => (.ok result, after)
      | (.status status, after) =>
          (.error (.tonicStatus status),
            (after.dropChannelIfNeeded (.tonicStatus status)).2)) =
        (result, after)) :
    Attempted request client result after := by
  unfold Client.callExecutor at hcall
  cases houtcome : env.execute connected.calls.length with
  | timeout =>
      simp only [houtcome] at hcall
      cases hcall
      exact .timeout rfl (by rw [← hcalls]; rfl)
  | response answer =>
      simp only [houtcome] at hcall
      cases hcall
      exact .response hheld (by rw [hcalls])
  | status status =>
      simp only [houtcome, dropChannelIfNeeded_holder] at hcall
      cases hcall
      by_cases hcode : status.code = .unknown
      · rw [if_pos hcode]
        exact .dead hcode rfl (by rw [← hcalls]; rfl)
      · rw [if_neg hcode]
        exact .answered hcode hheld (by rw [hcalls])

theorem executeOn_attempted
    {env : Env β} {request : ρ} {client after : Client ρ β}
    {result : Except GrpcReadError β}
    (hexecute : client.executeOn env request = (result, after)) :
    Attempted request client result after := by
  unfold Client.executeOn at hexecute
  cases hheld : client.holder with
  | some channel =>
      have hget : client.getChannel env = (.ok channel, client) := by
        unfold Client.getChannel
        rw [hheld]
      rw [hget] at hexecute
      exact callExecutor_attempted hheld rfl hexecute
  | none =>
      have hget : client.getChannel env = client.createChannel env := by
        unfold Client.getChannel
        rw [hheld]
      rw [hget] at hexecute
      cases hcreate : client.createChannel env with
      | mk outcome connected =>
          rw [hcreate] at hexecute
          cases createChannel_connected hheld hcreate with
          | installed hinstalled hcalls =>
              exact callExecutor_attempted hinstalled hcalls hexecute
          | failed herr hnone hcalls =>
              cases hexecute
              exact .noChannel hheld herr hnone hcalls

end GrpcChannel
end GrpcExtensions
