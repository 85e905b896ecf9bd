import GrpcExtensions.GrpcChannel
import GrpcExtensions.PortForwardsPool

/-!
# The background ping

The loop of `ping_loop`, with all of `create_channel` that it runs when the
holder is empty.  The ping runs in a task of its own, so its panics are seen as
errors; a panic of the reconnect ends the loop.  The code is the one built for
unix.
-/

namespace GrpcExtensions
namespace PingLoop

open GrpcChannel (ChannelId ConnectOutcome GrpcReadError)
open PortForwardsPool (Names Panic PortForwards)

variable {Credentials Endpoint Tunnel : Type}

/-- The build and what the loop calls of other packages: the parser of a url
over SSH, which gives the credentials and the remote resource, the parser of
an endpoint, `Uri::from_str`, `Channel::from_shared` and
`starts_with_case_insensitive`. -/
structure Env (Credentials Endpoint : Type) where
  names : Names Credentials Endpoint
  withSsh : Bool
  withTls : Bool
  home : Option String
  serviceName : String
  parseOverSsh : String → Option Credentials × String
  tryParse : String → Except String Endpoint
  uriFromStr : String → Except String Unit
  fromShared : String → Except String Unit
  startsWithCaseInsensitive : String → String → Bool

section ConnectUrl

inductive GrpcConnectUrl (Credentials : Type) where
  | tcp (raw : String) (sshCredentials : Option Credentials)
      (remoteResourceString : String)
  | unixSocket (raw : String)

def startsWith (text start : String) : Bool :=
  start.toList.isPrefixOf text.toList

variable (env : Env Credentials Endpoint)

def GrpcConnectUrl.newAsTcp (raw : String) : GrpcConnectUrl Credentials :=
  let overSsh := env.parseOverSsh raw
  .tcp raw overSsh.1 overSsh.2

def GrpcConnectUrl.ofString (url : String) : GrpcConnectUrl Credentials :=
  if startsWith url "/" || startsWith url "~/" then .unixSocket url
  else newAsTcp env url

def GrpcConnectUrl.getGrpcHost : GrpcConnectUrl Credentials → String
  | .tcp raw _ remoteResourceString =>
      if env.withSsh then remoteResourceString else raw
  | .unixSocket raw => raw

/-- Without the feature `with-ssh` there is no such method. -/
def GrpcConnectUrl.getSshCredentials :
    GrpcConnectUrl Credentials → Except Panic (Option Credentials)
  | .tcp _ sshCredentials _ => .ok sshCredentials
  | .unixSocket raw =>
      .error (.message ("Unix socket does not support ssh credentials: " ++ raw))

def GrpcConnectUrl.asStr : GrpcConnectUrl Credentials → String
  | .tcp raw _ _ => raw
  | .unixSocket raw => raw

def GrpcConnectUrl.isGrpcTlsEndpoint (url : GrpcConnectUrl Credentials) : Bool :=
  env.startsWithCaseInsensitive (url.getGrpcHost env) "https"

def GrpcConnectUrl.isUnixSocket : GrpcConnectUrl Credentials → Bool
  | .unixSocket _ => true
  | _ => false

end ConnectUrl

inductive PingOutcome where
  | ok
  | timeout
  | panic
  deriving DecidableEq

/-- The results of the calls that one iteration makes.  `resolve` gives the
credentials of the SSH session, `channel` names the channel that a successful
connect makes. -/
structure Iteration (Credentials Tunnel : Type) where
  enabled : Bool
  url : String
  resolve : Credentials → Credentials
  forward : Except String Tunnel
  connect : ℕ → ConnectOutcome
  channel : ChannelId
  ping : PingOutcome

structure State (Tunnel : Type) where
  holder : Option ChannelId
  portForwards : PortForwards Tunnel

/-- The task of the loop, with the panic that has ended it. -/
structure Task (Tunnel : Type) where
  shared : State Tunnel
  stopped : Option Panic

def start : Task Tunnel where
  shared := { holder := none, portForwards := fun _ => none }
  stopped := none

section CreateChannel

variable (env : Env Credentials Endpoint) (it : Iteration Credentials Tunnel)

/-- The loop gives up once `attempt_no > 3`, before it increases the counter. -/
def connectLoop (attempt : ℕ → Except Panic ConnectOutcome) (attemptNo : ℕ) :
    Except Panic (Except GrpcReadError Unit) :=
  match attempt attemptNo with
  | .error panic => .error panic
  | .ok .connected => .ok (.ok ())
  | .ok (.failed err) =>
      if attemptNo > 3 then .ok (.error (.transportError err))
      else connectLoop attempt (attemptNo + 1)
  | .ok .timeout =>
      if attemptNo > 3 then .ok (.error .timeout)
      else connectLoop attempt (attemptNo + 1)
termination_by 4 - attemptNo

/-- After the loop the channel, if there is one, has been set. -/
def install (s : State Tunnel) (connected : Except GrpcReadError Unit) :
    Except GrpcReadError ChannelId × State Tunnel :=
  match connected with
  | .ok _ => (.ok it.channel, { s with holder := some it.channel })
  | .error err => (.error err, s)

def createUnixSocketChannel (unixSocketPath : String)
    (outcome : ConnectOutcome) : Except Panic ConnectOutcome :=
  match env.uriFromStr ("http://unix.socket" ++ unixSocketPath) with
  | .error _ =>
      .error (.message ("Failed to create unix socket uri with path:" ++
        unixSocketPath ++ " for service " ++ env.serviceName))
  | .ok _ => .ok outcome

def connectToUnixSocket (s : State Tunnel) (connectUrl : String) :
    Except Panic (Except GrpcReadError ChannelId × State Tunnel) := do
  let connected ← connectLoop
    (fun n => createUnixSocketChannel env connectUrl (it.connect n)) 0
  return install it s connected

/-- One turn of the loop for a url that is no unix socket. -/
def createTcpChannel (connectUrl : GrpcConnectUrl Credentials)
    (outcome : ConnectOutcome) : Except Panic ConnectOutcome :=
  match env.fromShared (connectUrl.getGrpcHost env) with
  | .error err =>
      .error (.message ("Failed to create channel with url:" ++
        connectUrl.asStr ++ ". Err: " ++ err))
  | .ok _ =>
      if env.withTls && connectUrl.isGrpcTlsEndpoint env then
        .error (.message "Tls not implemented yet")
      else .ok outcome

def createOverSsh (s : State Tunnel) (connectUrl : GrpcConnectUrl Credentials)
    (sshCredentials : Credentials) :
    Except Panic (Except GrpcReadError ChannelId × State Tunnel) :=
  match env.tryParse (connectUrl.getGrpcHost env) with
  | .error _ =>
      .error (.message ("Failed to parse grpc service endpoint: " ++
        connectUrl.asStr ++ " for service " ++ env.serviceName))
  | .ok grpcServiceEndpoint =>
      let unixSocketName := PortForwardsPool.generateUnixSocketFile env.names
        env.home sshCredentials grpcServiceEndpoint
      match PortForwardsPool.startPortForward env.names s.portForwards
          (it.resolve sshCredentials) unixSocketName grpcServiceEndpoint
          it.forward with
      | (.panicked panic, _) => .error panic
      | (_, portForwards) =>
          connectToUnixSocket env it { s with portForwards } unixSocketName

/-- The second copy of the connect loop. -/
def createTcp (s : State Tunnel) (connectUrl : GrpcConnectUrl Credentials) :
    Except Panic (Except GrpcReadError ChannelId × State Tunnel) := do
  let connected ← connectLoop
    (fun n => createTcpChannel env connectUrl (it.connect n)) 0
  return install it s connected

def createChannel (s : State Tunnel) (connectUrl : GrpcConnectUrl Credentials) :
    Except Panic (Except GrpcReadError ChannelId × State Tunnel) :=
  if connectUrl.isUnixSocket then
    connectToUnixSocket env it s (connectUrl.getGrpcHost env)
  else
    match (if env.withSsh then connectUrl.getSshCredentials else .ok none) with
    | .error panic => .error panic
    | .ok (some sshCredentials) => createOverSsh env it s connectUrl sshCredentials
    | .ok none => createTcp env it s connectUrl

end CreateChannel

section Loop

variable (env : Env Credentials Endpoint) (it : Iteration Credentials Tunnel)

def getOrCreateChannel (s : State Tunnel) :
    Except Panic (Except GrpcReadError ChannelId × State Tunnel) :=
  match s.holder with
  | some channel => .ok (.ok channel, s)
  | none => createChannel env it s (.ofString env it.url)

def dropChannel (s : State Tunnel) : State Tunnel :=
  { s with holder := none }

/-- The ping is awaited through the handle of its task. -/
def afterPing (s : State Tunnel) : PingOutcome → State Tunnel
  | .ok => s
  | .timeout => dropChannel s
  | .panic => dropChannel s

/-- The body of the loop.  A failed connect is only logged. -/
def iterate (s : State Tunnel) : Except Panic (State Tunnel) :=
  if !it.enabled then .ok s
  else do
    let (channel, s) ← getOrCreateChannel env it s
    match channel with
    | .ok _ => return afterPing s it.ping
    | .error _ => return s

/-- Other parties install and drop channels and start tunnels. -/
inductive Action (Credentials Tunnel : Type) where
  | iteration (it : Iteration Credentials Tunnel)
  | others (holder : Option ChannelId) (portForwards : PortForwards Tunnel)

def step (task : Task Tunnel) :
    Action Credentials Tunnel → Option (Task Tunnel)
  | .iteration it =>
      match task.stopped with
      | some _ => none
      | none =>
          match iterate env it task.shared with
          | .ok shared => some { task with shared }
          | .error panic => some { task with stopped := some panic }
  | .others holder portForwards =>
      some { task with shared := { holder, portForwards } }

/-- The loop makes another iteration, whatever its calls return. -/
def Task.GoesOn (env : Env Credentials Endpoint) (task : Task Tunnel) : Prop :=
  ∀ it : Iteration Credentials Tunnel, (step env task (.iteration it)).isSome

end Loop

section Panics

variable (env : Env Credentials Endpoint) (it : Iteration Credentials Tunnel)

def IsSocketPath (path : String) : Prop :=
  env.uriFromStr ("http://unix.socket" ++ path) = .ok ()

/-- The tunnel is found, or it can be started. -/
def Forwardable (s : State Tunnel) (credentials : Credentials)
    (endpoint : Endpoint) : Prop :=
  (s.portForwards (PortForwardsPool.tunnelId env.names credentials
      endpoint)).isSome = true ∨
    (env.names.getPort endpoint).isSome = true ∧
      ∃ tunnel, it.forward = .ok tunnel

/-- The url can be connected to without a panic. -/
def Creatable (s : State Tunnel) : GrpcConnectUrl Credentials → Prop
  | .unixSocket raw => IsSocketPath env raw
  | .tcp raw sshCredentials remoteResourceString =>
      match (if env.withSsh then sshCredentials else none) with
      | some credentials =>
          ∃ endpoint, env.tryParse remoteResourceString = .ok endpoint ∧
            Forwardable env it s (it.resolve credentials) endpoint ∧
            IsSocketPath env (PortForwardsPool.generateUnixSocketFile env.names
              env.home credentials endpoint)
      | none =>
          let url : GrpcConnectUrl Credentials :=
            .tcp raw sshCredentials remoteResourceString
          env.fromShared (url.getGrpcHost env) = .ok () ∧
            ¬ (env.withTls = true ∧ url.isGrpcTlsEndpoint env = true)

def Reconnects (s : State Tunnel) : Prop :=
  it.enabled = true → s.holder = none →
    Creatable env it s (.ofString env it.url)

def Safe (task : Task Tunnel) : Action Credentials Tunnel → Prop
  | .iteration it => Reconnects env it task.shared
  | .others _ _ => True

variable {env it}

theorem connectLoop_of_ok
    {attempt : ℕ → Except Panic ConnectOutcome}
    (hok : ∀ n, ∃ outcome, attempt n = .ok outcome) (attemptNo : ℕ) :
    ∃ connected, connectLoop attempt attemptNo = .ok connected := by
  fun_induction connectLoop attempt attemptNo with
  | case1 attemptNo panic herror =>
      obtain ⟨outcome, houtcome⟩ := hok attemptNo
      rw [houtcome] at herror
      contradiction
  | case4 attemptNo err houtcome hmore ih => exact ih
  | case6 attemptNo houtcome hmore ih => exact ih
  | _ => exact ⟨_, rfl⟩

/-- The loop panics exactly when its first attempt does, if each of them
panics or none. -/
theorem connectLoop_ok_iff
    {attempt : ℕ → Except Panic ConnectOutcome} {P : Prop}
    (hcheck : (P ∧ ∀ n, ∃ outcome, attempt n = .ok outcome) ∨
      ¬ P ∧ ∃ panic, attempt 0 = .error panic) :
    (∃ connected, connectLoop attempt 0 = .ok connected) ↔ P := by
  obtain ⟨hP, hok⟩ | ⟨hP, panic, herror⟩ := hcheck
  · exact iff_of_true (connectLoop_of_ok hok 0) hP
  · refine iff_of_false ?_ hP
    rw [connectLoop, herror]
    simp

variable (env it)

theorem connectToUnixSocket_ok_iff (s : State Tunnel) (path : String) :
    (∃ result, connectToUnixSocket env it s path = .ok result) ↔
      IsSocketPath env path := by
  have hloop : (∃ connected, connectLoop
      (fun n => createUnixSocketChannel env path (it.connect n)) 0 =
        .ok connected) ↔ IsSocketPath env path := by
    apply connectLoop_ok_iff
    unfold IsSocketPath createUnixSocketChannel
    cases env.uriFromStr ("http://unix.socket" ++ path) with
    | ok _ => exact Or.inl ⟨rfl, fun n => ⟨_, rfl⟩⟩
    | error err => exact Or.inr ⟨by simp, _, rfl⟩
  rw [← hloop, connectToUnixSocket]
  cases connectLoop (fun n => createUnixSocketChannel env path (it.connect n))
      0 with
  | ok connected => exact iff_of_true ⟨_, rfl⟩ ⟨_, rfl⟩
  | error panic => exact iff_of_false nofun nofun

theorem createTcp_ok_iff
    (s : State Tunnel) (url : GrpcConnectUrl Credentials) :
    (∃ result, createTcp env it s url = .ok result) ↔
      env.fromShared (url.getGrpcHost env) = .ok () ∧
        ¬ (env.withTls = true ∧ url.isGrpcTlsEndpoint env = true) := by
  have hloop : (∃ connected, connectLoop
      (fun n => createTcpChannel env url (it.connect n)) 0 = .ok connected) ↔
      env.fromShared (url.getGrpcHost env) = .ok () ∧
        ¬ (env.withTls = true ∧ url.isGrpcTlsEndpoint env = true) := by
    apply connectLoop_ok_iff
    unfold createTcpChannel
    cases env.fromShared (url.getGrpcHost env) with
    | error err => exact Or.inr ⟨by simp, _, rfl⟩
    | ok _ =>
        by_cases htls : env.withTls = true ∧ url.isGrpcTlsEndpoint env = true
        · refine Or.inr ⟨by simp [htls], .message "Tls not implemented yet", ?_⟩
          simp [htls]
        · refine Or.inl ⟨⟨rfl, htls⟩, fun n => ⟨it.connect n, ?_⟩⟩
          rw [← Bool.and_eq_true] at htls
          simp only [htls]
          rfl
  rw [← hloop, createTcp]
  cases connectLoop (fun n => createTcpChannel env url (it.connect n)) 0 with
  | ok connected => exact iff_of_true ⟨_, rfl⟩ ⟨_, rfl⟩
  | error panic => exact iff_of_false nofun nofun

theorem startPortForward_cases
    (s : State Tunnel) (credentials : Credentials) (endpoint : Endpoint)
    (unixSocket : String) :
    (Forwardable env it s credentials endpoint ∧
      ∀ panic, (PortForwardsPool.startPortForward env.names s.portForwards
        credentials unixSocket endpoint it.forward).1 ≠ .panicked panic) ∨
    ¬ Forwardable env it s credentials endpoint ∧
      ∃ panic, (PortForwardsPool.startPortForward env.names s.portForwards
        credentials unixSocket endpoint it.forward).1 = .panicked panic := by
  unfold PortForwardsPool.startPortForward Forwardable
  dsimp only
  cases hfound : (s.portForwards (PortForwardsPool.tunnelId env.names
      credentials endpoint)).isSome with
  | true => simp
  | false =>
      cases env.names.getPort endpoint with
      | none => simp
      | some port =>
          cases it.forward with
          | error err => simp
          | ok tunnel => simp

theorem createOverSsh_ok_iff
    (s : State Tunnel) (url : GrpcConnectUrl Credentials)
    (credentials : Credentials) :
    (∃ result, createOverSsh env it s url credentials = .ok result) ↔
      ∃ endpoint, env.tryParse (url.getGrpcHost env) = .ok endpoint ∧
        Forwardable env it s (it.resolve credentials) endpoint ∧
        IsSocketPath env (PortForwardsPool.generateUnixSocketFile env.names
          env.home credentials endpoint) := by
  unfold createOverSsh
  cases env.tryParse (url.getGrpcHost env) with
  | error err => simp
  | ok endpoint =>
      simp only [Except.ok.injEq, exists_eq_left']
      generalize PortForwardsPool.generateUnixSocketFile env.names env.home
        credentials endpoint = socket
      have hcases := startPortForward_cases env it s
        (it.resolve credentials) endpoint socket
      cases hstart : PortForwardsPool.startPortForward env.names s.portForwards
          (it.resolve credentials) socket endpoint it.forward with
      | mk outcome portForwards =>
          rw [hstart] at hcases
          cases outcome with
          | panicked panic =>
              have hnot : ¬ Forwardable env it s (it.resolve credentials)
                  endpoint := by
                rcases hcases with ⟨_, hok⟩ | ⟨hnot, _⟩
                · exact absurd rfl (hok panic)
                · exact hnot
              exact iff_of_false nofun fun hboth => hnot hboth.1
          | alreadyStarted =>
              have hforward := (hcases.resolve_right (by simp)).1
              rw [and_iff_right hforward]
              exact connectToUnixSocket_ok_iff env it _ socket
          | started tunnel =>
              have hforward := (hcases.resolve_right (by simp)).1
              rw [and_iff_right hforward]
              exact connectToUnixSocket_ok_iff env it _ socket

theorem createChannel_ok_iff
    (s : State Tunnel) (url : GrpcConnectUrl Credentials) :
    (∃ result, createChannel env it s url = .ok result) ↔
      Creatable env it s url := by
  cases url with
  | unixSocket raw => exact connectToUnixSocket_ok_iff env it s raw
  | tcp raw sshCredentials remote =>
      unfold createChannel Creatable
      by_cases hssh : env.withSsh = true
      · simp only [hssh, if_true, GrpcConnectUrl.getSshCredentials]
        cases sshCredentials with
        | none => exact createTcp_ok_iff env it s _
        | some credentials =>
            have hover := createOverSsh_ok_iff env it s
              (.tcp raw (some credentials) remote) credentials
            simp only [GrpcConnectUrl.getGrpcHost, hssh, if_true] at hover
            exact hover
      · simp only [hssh]
        exact createTcp_ok_iff env it s _

theorem getOrCreateChannel_ok_iff (s : State Tunnel) :
    (∃ result, getOrCreateChannel env it s = .ok result) ↔
      (s.holder = none → Creatable env it s (.ofString env it.url)) := by
  unfold getOrCreateChannel
  cases s.holder with
  | some channel => exact iff_of_true ⟨_, rfl⟩ nofun
  | none =>
      rw [forall_prop_of_true rfl]
      exact createChannel_ok_iff env it s _

theorem iterate_of_enabled (s : State Tunnel) (henabled : it.enabled = true) :
    iterate env it s =
      match getOrCreateChannel env it s with
      | .error panic => .error panic
      | .ok (.ok _, s) => .ok (afterPing s it.ping)
      | .ok (.error _, s) => .ok s := by
  simp only [iterate, henabled]
  cases getOrCreateChannel env it s with
  | error panic => rfl
  | ok result =>
      obtain ⟨channel, after⟩ := result
      cases channel with
      | ok channel => rfl
      | error err => rfl

theorem iterate_ok_iff (s : State Tunnel) :
    (∃ t, iterate env it s = .ok t) ↔ Reconnects env it s := by
  cases henabled : it.enabled with
  | false =>
      refine iff_of_true ⟨s, by simp [iterate, henabled]⟩ fun htrue => ?_
      rw [henabled] at htrue
      contradiction
  | true =>
      unfold Reconnects
      rw [forall_prop_of_true henabled, ← getOrCreateChannel_ok_iff,
        iterate_of_enabled env it s henabled]
      cases getOrCreateChannel env it s with
      | error panic => exact iff_of_false nofun nofun
      | ok result =>
          obtain ⟨channel, after⟩ := result
          cases channel with
          | ok channel => exact iff_of_true ⟨_, rfl⟩ ⟨_, rfl⟩
          | error err => exact iff_of_true ⟨_, rfl⟩ ⟨_, rfl⟩

end Panics

section Results

variable {env : Env Credentials Endpoint} {task next : Task Tunnel}

theorem goesOn_iff : task.GoesOn env ↔ task.stopped = none := by
  constructor
  · intro hgoes
    have hidle := hgoes ⟨false, "", id, .error "", fun _ => .timeout, 0, .ok⟩
    cases hstopped : task.stopped with
    | none => rfl
    | some panic => simp [step, hstopped] at hidle
  · intro hrunning it
    simp only [step, hrunning]
    split
    · rfl
    · rfl

theorem goesOn_of_step
    {a : Action Credentials Tunnel} (hgoes : task.GoesOn env)
    (hstep : step env task a = some next) :
    next.GoesOn env ↔ Safe env task a := by
  rw [goesOn_iff] at hgoes ⊢
  cases a with
  | others holder portForwards =>
      cases hstep
      exact iff_of_true hgoes trivial
  | iteration it =>
      change _ ↔ Reconnects env it task.shared
      rw [← iterate_ok_iff]
      simp only [step, hgoes] at hstep
      cases hiterate : iterate env it task.shared with
      | ok shared =>
          rw [hiterate] at hstep
          cases hstep
          exact iff_of_true rfl ⟨shared, rfl⟩
      | error panic =>
          rw [hiterate] at hstep
          cases hstep
          exact iff_of_false nofun nofun

theorem iterate_of_failed_ping
    {it : Iteration Credentials Tunnel} {s after : State Tunnel}
    {channel : ChannelId} (henabled : it.enabled = true)
    (hchannel : getOrCreateChannel env it s = .ok (.ok channel, after))
    (hping : it.ping ≠ .ok) :
    ∃ t, iterate env it s = .ok t ∧ t.holder = none := by
  rw [iterate_of_enabled env it s henabled, hchannel]
  refine ⟨_, rfl, ?_⟩
  cases hresult : it.ping with
  | ok => exact absurd hresult hping
  | timeout => rfl
  | panic => rfl

/-- In every state of a run the loop goes on, if and only if every reconnect
of the run is possible without a panic; and in any case a failed ping leaves
its channel out of the holder. -/
theorem ping_loop_goes_on_iff
    {acts : List (Action Credentials Tunnel)}
    (hrun : TransitionSystem.exec (step env) start acts = some task) :
    (TransitionSystem.Always (step env) (Task.GoesOn env) start acts ↔
      TransitionSystem.Along (step env) (Safe env) start acts) ∧
    ∀ (it : Iteration Credentials Tunnel) (channel : ChannelId)
        (after : State Tunnel), it.enabled = true →
      getOrCreateChannel env it task.shared = .ok (.ok channel, after) →
      it.ping ≠ .ok →
        ∃ t, iterate env it task.shared = .ok t ∧ t.holder ≠ some channel := by
  constructor
  · exact TransitionSystem.always_iff_along (I := fun _ => True)
      (fun _ _ _ _ _ => trivial)
      (fun _ _ _ _ hgoes hsafe hstep => (goesOn_of_step hgoes hstep).mpr hsafe)
      (fun _ _ _ _ hgoes hstep hnext => (goesOn_of_step hgoes hstep).mp hnext)
      trivial (goesOn_iff.mpr rfl) hrun
  · intro it channel after henabled hchannel hping
    obtain ⟨t, ht, hholder⟩ := iterate_of_failed_ping henabled hchannel hping
    exact ⟨t, ht, by simp [hholder]⟩

/-- A build with SSH and the url `ssh:root@bastion:22->http://db:5000`. -/
def overSshEnv : Env (String × String × ℕ) (String × ℕ) where
  names := PortForwardsPool.plainNames
  withSsh := true
  withTls := false
  home := some "/root"
  serviceName := "Greeter"
  parseOverSsh _ := (some ("root", "bastion", 22), "http://db:5000")
  tryParse _ := .ok ("db", 5000)
  uriFromStr _ := .ok ()
  fromShared _ := .ok ()
  startsWithCaseInsensitive _ _ := false

/-- One iteration with this answer to the port forward and this ping. -/
def overSshIteration (forward : Except String ℕ) (ping : PingOutcome) :
    Iteration (String × String × ℕ) ℕ where
  enabled := true
  url := "ssh:root@bastion:22->http://db:5000"
  resolve := id
  forward := forward
  connect _ := .connected
  channel := 0
  ping := ping

theorem ping_loop_goes_on_iff_ping_timeout :
    ∃ task : Task ℕ,
      TransitionSystem.exec (step overSshEnv) start
          [.others (some 7) fun _ => none,
            .iteration (overSshIteration (.ok 0) .timeout)] = some task ∧
      (TransitionSystem.Always (step overSshEnv) (Task.GoesOn overSshEnv) start
          [.others (some 7) fun _ => none,
            .iteration (overSshIteration (.ok 0) .timeout)] ↔
        TransitionSystem.Along (step overSshEnv) (Safe overSshEnv) start
          [.others (some 7) fun _ => none,
            .iteration (overSshIteration (.ok 0) .timeout)]) :=
  ⟨_, rfl, (ping_loop_goes_on_iff rfl).1⟩

/-- The holder is empty and the port forward cannot be started: the `unwrap`
ends the loop. -/
theorem failed_port_forward_ends_loop :
    ∃ task : Task ℕ,
      TransitionSystem.exec (step overSshEnv) start
          [.iteration (overSshIteration (.error "timed out") .ok)] =
        some task ∧
      task.stopped = some .unwrap ∧ ¬ task.GoesOn overSshEnv ∧
      step overSshEnv task
        (.iteration (overSshIteration (.ok 0) .ok)) = none := by
  refine ⟨_, rfl, rfl, ?_, rfl⟩
  rw [goesOn_iff]
  nofun

end Results

end PingLoop
end GrpcExtensions
