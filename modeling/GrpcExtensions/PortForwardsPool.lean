import GrpcExtensions.TransitionSystem
import Mathlib.Logic.Function.Basic

/-!
# The pool of SSH port forwards

`start_port_forward` looks a tunnel up by its credentials and endpoint, and
inserts the tunnel which it has started under the name of its unix socket.
The two strings are built differently, so a tunnel is found again only if one
string happens to be the other.
-/

namespace GrpcExtensions
namespace PortForwardsPool

universe u v w

variable {Credentials : Type u} {Endpoint : Type v} {Tunnel : Type w}

/-- `message` is the text of a `panic!`; `unwrap` is an `unwrap` on an error. -/
inductive Panic where
  | message (text : String)
  | unwrap
  deriving DecidableEq

/-- What is read of SSH credentials and of a remote endpoint.  Both types
belong to other packages. -/
structure Names (Credentials : Type u) (Endpoint : Type v) where
  credentialsToString : Credentials → String
  getHostPort : Credentials → String × ℕ
  getUserName : Credentials → String
  asStr : Endpoint → String
  getHost : Endpoint → String
  getPort : Endpoint → Option ℕ

section Source

variable (names : Names Credentials Endpoint)

/-- `home` is the environment variable `HOME`. -/
def generateUnixSocketFile (home : Option String)
    (sshCredentials : Credentials) (remoteHost : Endpoint) : String :=
  let (sshHost, sshPort) := names.getHostPort sshCredentials
  let rHost := names.getHost remoteHost
  let rPort :=
    match names.getPort remoteHost with
    | some port => port.repr
    | none => ""
  let rootPath :=
    match home with
    | some value => value
    | none => "/tmp"
  rootPath ++ "/grpc-" ++ names.getUserName sshCredentials ++ "-" ++ sshHost ++
    "_" ++ sshPort.repr ++ "--" ++ rHost ++ "_" ++ rPort ++ ".sock"

def tunnelId (credentials : Credentials) (endpoint : Endpoint) : String :=
  names.credentialsToString credentials ++ "->" ++ names.asStr endpoint

abbrev PortForwards (Tunnel : Type w) := String → Option Tunnel

inductive StartOutcome (Tunnel : Type w) where
  | alreadyStarted
  | started (tunnel : Tunnel)
  | panicked (panic : Panic)

def portIsNotDefined (sshCredentials : Credentials)
    (grpcServiceEndpoint : Endpoint) : Panic :=
  .message ("Can not start port forward [" ++
    names.credentialsToString sshCredentials ++ "]->[" ++
    names.asStr grpcServiceEndpoint ++ "]. Port is not defined")

/-- `result` is what the SSH session answers if it is asked for a tunnel.  A
panic releases the mutex with the map as it was. -/
def startPortForward (portForwards : PortForwards Tunnel)
    (sshCredentials : Credentials) (unixSocket : String)
    (grpcServiceEndpoint : Endpoint) (result : Except String Tunnel) :
    StartOutcome Tunnel × PortForwards Tunnel :=
  let id := tunnelId names sshCredentials grpcServiceEndpoint
  if (portForwards id).isSome then (.alreadyStarted, portForwards)
  else
    match names.getPort grpcServiceEndpoint with
    | none =>
        (.panicked (portIsNotDefined names sshCredentials grpcServiceEndpoint),
          portForwards)
    | some _ =>
        match result with
        | .error _ => (.panicked .unwrap, portForwards)
        | .ok tunnel =>
            (.started tunnel,
              Function.update portForwards unixSocket (some tunnel))

end Source

/-- A call of `start_port_forward` with the socket name of its target. -/
structure Call (Credentials : Type u) (Endpoint : Type v) (Tunnel : Type w) where
  credentials : Credentials
  endpoint : Endpoint
  result : Except String Tunnel

def Call.target (call : Call Credentials Endpoint Tunnel) :
    Credentials × Endpoint :=
  (call.credentials, call.endpoint)

structure State (Credentials : Type u) (Endpoint : Type v) (Tunnel : Type w) where
  portForwards : PortForwards Tunnel
  /-- The targets of the tunnels that were started, oldest first. -/
  tunnelled : List (Credentials × Endpoint)

def new : State Credentials Endpoint Tunnel where
  portForwards := fun _ => none
  tunnelled := []

section Runs

variable (names : Names Credentials Endpoint) (home : Option String)

def socketOf (target : Credentials × Endpoint) : String :=
  generateUnixSocketFile names home target.1 target.2

def call (s : State Credentials Endpoint Tunnel)
    (c : Call Credentials Endpoint Tunnel) :
    StartOutcome Tunnel × PortForwards Tunnel :=
  startPortForward names s.portForwards c.credentials
    (socketOf names home c.target) c.endpoint c.result

def step (s : State Credentials Endpoint Tunnel)
    (c : Call Credentials Endpoint Tunnel) :
    Option (State Credentials Endpoint Tunnel) :=
  match call names home s c with
  | (.started _, portForwards) =>
      some { portForwards, tunnelled := s.tunnelled ++ [c.target] }
  | (_, portForwards) => some { s with portForwards }

/-- A call for a target whose tunnel was started starts nothing. -/
def Reuses (s : State Credentials Endpoint Tunnel)
    (c : Call Credentials Endpoint Tunnel) : Prop :=
  c.target ∈ s.tunnelled →
    call names home s c = (.alreadyStarted, s.portForwards)

/-- The target has no tunnel yet, or its lookup string is the socket name of
some tunnel. -/
def NewOrNamed (s : State Credentials Endpoint Tunnel)
    (c : Call Credentials Endpoint Tunnel) : Prop :=
  c.target ∈ s.tunnelled → ∃ target ∈ s.tunnelled,
    socketOf names home target = tunnelId names c.credentials c.endpoint

end Runs

section Calls

variable {names : Names Credentials Endpoint} {home : Option String}
variable {s t : State Credentials Endpoint Tunnel}
variable {c : Call Credentials Endpoint Tunnel}

theorem call_alreadyStarted
    (hfound : (s.portForwards
      (tunnelId names c.credentials c.endpoint)).isSome = true) :
    call names home s c = (.alreadyStarted, s.portForwards) := by
  simp [call, startPortForward, hfound]

theorem call_cases (s : State Credentials Endpoint Tunnel)
    (c : Call Credentials Endpoint Tunnel) :
    ((s.portForwards (tunnelId names c.credentials c.endpoint)).isSome =
        true ∧
      call names home s c = (.alreadyStarted, s.portForwards)) ∨
    (s.portForwards (tunnelId names c.credentials c.endpoint) = none ∧
      ((∃ panic, call names home s c = (.panicked panic, s.portForwards)) ∨
        ∃ tunnel, call names home s c =
          (.started tunnel, Function.update s.portForwards
            (socketOf names home c.target) (some tunnel)))) := by
  cases hfound : s.portForwards (tunnelId names c.credentials c.endpoint) with
  | some tunnel =>
      exact Or.inl ⟨rfl, call_alreadyStarted (by rw [hfound]; rfl)⟩
  | none =>
      refine Or.inr ⟨rfl, ?_⟩
      cases hport : names.getPort c.endpoint with
      | none =>
          refine Or.inl ⟨portIsNotDefined names c.credentials c.endpoint, ?_⟩
          simp [call, startPortForward, hfound, hport]
      | some port =>
          cases hresult : c.result with
          | error err =>
              refine Or.inl ⟨.unwrap, ?_⟩
              simp [call, startPortForward, hfound, hport, hresult]
          | ok tunnel =>
              refine Or.inr ⟨tunnel, ?_⟩
              simp [call, startPortForward, hfound, hport, hresult]

theorem portForwards_of_panicked
    {panic : Panic} (hpanic : (call names home s c).1 = .panicked panic) :
    (call names home s c).2 = s.portForwards := by
  obtain ⟨_, hcall⟩ | ⟨_, ⟨_, hcall⟩ | ⟨_, hcall⟩⟩ :=
    @call_cases _ _ _ names home s c
  · rw [hcall]
  · rw [hcall]
  · rw [hcall] at hpanic
    contradiction

theorem result_of_started
    {tunnel : Tunnel} (hstarted : (call names home s c).1 = .started tunnel) :
    c.result = .ok tunnel := by
  unfold call startPortForward at hstarted
  dsimp only at hstarted
  split at hstarted
  · contradiction
  · cases hport : names.getPort c.endpoint with
    | none => simp [hport] at hstarted
    | some port =>
        cases hresult : c.result with
        | error err => simp [hport, hresult] at hstarted
        | ok started => simpa [hport, hresult] using hstarted

def State.Keyed (names : Names Credentials Endpoint) (home : Option String)
    (s : State Credentials Endpoint Tunnel) : Prop :=
  ∀ key, (s.portForwards key).isSome = true ↔
    ∃ target ∈ s.tunnelled, socketOf names home target = key

theorem new_keyed :
    (new : State Credentials Endpoint Tunnel).Keyed names home := by
  intro key
  simp [new]

/-- A call either leaves the state alone, or starts a tunnel that was not
found. -/
theorem step_cases (hstep : step names home s c = some t) :
    (t = s ∧ ∀ tunnel, (call names home s c).1 ≠ .started tunnel) ∨
      ∃ tunnel, (call names home s c).1 = .started tunnel ∧ t =
        { portForwards := Function.update s.portForwards
            (socketOf names home c.target) (some tunnel)
          tunnelled := s.tunnelled ++ [c.target] } := by
  unfold step at hstep
  obtain ⟨_, hcall⟩ | ⟨_, ⟨_, hcall⟩ | ⟨tunnel, hcall⟩⟩ :=
    @call_cases _ _ _ names home s c
  · rw [hcall] at hstep ⊢
    cases hstep
    exact Or.inl ⟨rfl, by simp⟩
  · rw [hcall] at hstep ⊢
    cases hstep
    exact Or.inl ⟨rfl, by simp⟩
  · rw [hcall] at hstep
    cases hstep
    exact Or.inr ⟨tunnel, by rw [hcall], rfl⟩

theorem State.Keyed.step
    (hkeyed : s.Keyed names home) (hstep : step names home s c = some t) :
    t.Keyed names home := by
  obtain ⟨rfl, _⟩ | ⟨tunnel, _, rfl⟩ := step_cases hstep
  · exact hkeyed
  · intro key
    dsimp only
    by_cases hkey : key = socketOf names home c.target
    · subst hkey
      simp
    · rw [Function.update_of_ne hkey, hkeyed key]
      constructor
      · intro ⟨target, hmem, hsocket⟩
        exact ⟨target, List.mem_append_left _ hmem, hsocket⟩
      · intro ⟨target, hmem, hsocket⟩
        cases List.mem_append.mp hmem with
        | inl hmem => exact ⟨target, hmem, hsocket⟩
        | inr hlast =>
            rw [List.mem_singleton.mp hlast] at hsocket
            exact absurd hsocket.symm hkey

theorem reuses_iff_newOrNamed (hkeyed : s.Keyed names home) :
    Reuses names home s c ↔ NewOrNamed names home s c := by
  unfold Reuses NewOrNamed
  refine imp_congr_right fun _ => ?_
  rw [← hkeyed]
  constructor
  · intro hreuses
    obtain ⟨hfound, _⟩ | ⟨_, ⟨_, hcall⟩ | ⟨_, hcall⟩⟩ :=
      @call_cases _ _ _ names home s c
    · exact hfound
    · rw [hreuses] at hcall
      simp at hcall
    · rw [hreuses] at hcall
      simp at hcall
  · exact call_alreadyStarted

theorem nodup_of_step
    (hnodup : s.tunnelled.Nodup) (hreuses : Reuses names home s c)
    (hstep : step names home s c = some t) : t.tunnelled.Nodup := by
  obtain ⟨rfl, _⟩ | ⟨tunnel, hstarted, rfl⟩ := step_cases hstep
  · exact hnodup
  · refine List.nodup_append.mpr ⟨hnodup, by simp, ?_⟩
    intro first hfirst second hsecond heq
    rw [List.mem_singleton.mp hsecond] at heq
    rw [hreuses (heq ▸ hfirst)] at hstarted
    contradiction

end Calls

section Results

variable (names : Names Credentials Endpoint) (home : Option String)

theorem along_reuses_iff
    {s : State Credentials Endpoint Tunnel} (hkeyed : s.Keyed names home)
    (calls : List (Call Credentials Endpoint Tunnel)) :
    TransitionSystem.Along (step names home) (Reuses names home) s calls ↔
      TransitionSystem.Along (step names home) (NewOrNamed names home) s
        calls := by
  induction calls generalizing s with
  | nil => exact Iff.rfl
  | cons c calls ih =>
      refine and_congr (reuses_iff_newOrNamed hkeyed) ?_
      exact forall_congr' fun t => imp_congr_right fun hstep =>
        ih (hkeyed.step hstep)

/-- A call for a target whose tunnel was started starts nothing, and every
target gets at most one tunnel, if and only if no call is made for such a
target unless its lookup string is the socket name of a tunnel.  A call that
fails leaves the map alone in any case. -/
theorem one_tunnel_per_target_iff
    (calls : List (Call Credentials Endpoint Tunnel)) :
    (TransitionSystem.Along (step names home) (Reuses names home) new calls ∧
        (∀ s, TransitionSystem.exec (step names home) new calls = some s →
          s.tunnelled.Nodup) ↔
      TransitionSystem.Along (step names home) (NewOrNamed names home) new
        calls) ∧
    ∀ (s : State Credentials Endpoint Tunnel) (c : Call Credentials Endpoint
        Tunnel) (panic : Panic),
      (call names home s c).1 = .panicked panic →
        (call names home s c).2 = s.portForwards := by
  refine ⟨?_, fun _ _ _ => portForwards_of_panicked⟩
  rw [← along_reuses_iff names home new_keyed]
  refine and_iff_left_of_imp fun halong s hrun => ?_
  exact TransitionSystem.exec_invariant_along
    (I := fun s => s.tunnelled.Nodup)
    (fun _ _ _ hnodup hreuses hstep => nodup_of_step hnodup hreuses hstep)
    List.nodup_nil halong hrun

/-- Credentials of the form `user@host:port`, endpoints `host:port`. -/
def plainNames : Names (String × String × ℕ) (String × ℕ) where
  credentialsToString c := c.1 ++ "@" ++ c.2.1 ++ ":" ++ c.2.2.repr
  getHostPort c := c.2
  getUserName c := c.1
  asStr e := e.1 ++ ":" ++ e.2.repr
  getHost e := e.1
  getPort e := some e.2

/-- The second call for one target starts a second tunnel on the same
socket. -/
theorem second_call_starts_second_tunnel :
    ∃ s t : State (String × String × ℕ) (String × ℕ) ℕ,
      step plainNames (some "/root") new
          ⟨("root", "bastion", 22), ("db", 5000), .ok 0⟩ = some s ∧
        (("root", "bastion", 22), ("db", 5000)) ∈ s.tunnelled ∧
        (call plainNames (some "/root") s
            ⟨("root", "bastion", 22), ("db", 5000), .ok 1⟩).1 = .started 1 ∧
        step plainNames (some "/root") s
          ⟨("root", "bastion", 22), ("db", 5000), .ok 1⟩ = some t ∧
        t.tunnelled = [(("root", "bastion", 22), ("db", 5000)),
          (("root", "bastion", 22), ("db", 5000))] ∧
        ¬ TransitionSystem.Along (step plainNames (some "/root"))
          (Reuses plainNames (some "/root")) new
          [⟨("root", "bastion", 22), ("db", 5000), .ok 0⟩,
            ⟨("root", "bastion", 22), ("db", 5000), .ok 1⟩] := by
  have hmem : (("root", "bastion", 22), ("db", 5000)) ∈
      [(("root", "bastion", 22), ("db", 5000))] := by simp
  refine ⟨_, _, rfl, hmem, rfl, rfl, rfl, fun halong => ?_⟩
  have hreuses := (halong.2 _ rfl).1 hmem
  have hstarted : StartOutcome.started 1 = StartOutcome.alreadyStarted :=
    congrArg Prod.fst hreuses
  contradiction

end Results

end PortForwardsPool
end GrpcExtensions
