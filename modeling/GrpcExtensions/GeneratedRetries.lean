import GrpcExtensions.ClientMacros
import GrpcExtensions.LastInsertion
import GrpcExtensions.RequestRuns

/-!
# The retries of a generated method

The amount of retries goes from the parameters of the macro into
`with_retries` of the generated method, unless it is zero.  The builders count
attempts, so that a request is made once for the amounts zero and one, and
otherwise as often as the amount says.
-/

namespace GrpcExtensions
namespace GeneratedRetries

open ClientMacros
open GrpcChannel (Client Env ExecuteOutcome GrpcReadError RequestBuilder
  RequestBuilderWithInputStream StreamedResponse)
open ProtoFileReader (ProtoRpc ProtoServiceDescription)

universe u v

variable {ρ : Type u} {β : Type v}

section Source

inductive Response (β : Type v) where
  | single (result : β)
  | streamed (stream : StreamedResponse β)

def answer {γ : Type v} (wrap : γ → Response β)
    (outcome : Except GrpcReadError γ × Client ρ β) :
    Except GrpcReadError (Response β) × Client ρ β :=
  (outcome.1.map wrap, outcome.2)

/-- A call of the generated method. -/
def runMethod (method : Method) (env : Env β) (requestTimeout : ℕ)
    (inputData : ρ) (client : Client ρ β) :
    Except GrpcReadError (Response β) × Client ρ β :=
  let builder : RequestBuilder ρ := ⟨inputData, requestTimeout⟩
  let streamBuilder : RequestBuilderWithInputStream ρ :=
    ⟨inputData, requestTimeout⟩
  match method.requestFn, method.withRetries, method.responseFn with
  | .startRequest, none, .getResponse =>
      answer .single (builder.getResponse env client)
  | .startRequest, none, .getStreamedResponse =>
      answer .streamed (builder.getStreamedResponse env client)
  | .startRequest, some amount, .getResponse =>
      answer .single ((builder.withRetries amount).getResponse env client)
  | .startRequest, some amount, .getStreamedResponse =>
      answer .streamed
        ((builder.withRetries amount).getStreamedResponse env client)
  | .startRequestWithInputPramsAsStream, none, .getResponse =>
      answer .single (streamBuilder.getResponse env client)
  | .startRequestWithInputPramsAsStream, none, .getStreamedResponse =>
      answer .streamed (streamBuilder.getStreamedResponse env client)
  | .startRequestWithInputPramsAsStream, some amount, .getResponse =>
      answer .single
        ((streamBuilder.withRetries amount).getResponse env client)
  | .startRequestWithInputPramsAsStream, some amount, .getStreamedResponse =>
      answer .streamed
        ((streamBuilder.withRetries amount).getStreamedResponse env client)

end Source

/-- The override of the rpc that was written last, else the default. -/
def effectiveRetries (retries : ℕ) (overrides : Option (List OverrideParam))
    (name : String) : ℕ :=
  (LastInsertion.lastValue name ((overrides.getD []).map fun item =>
    (item.fnName, item.retries))).getD retries

/-- A call that is lost with its channel. -/
def Disconnects : ExecuteOutcome β → Prop
  | .timeout => True
  | .status answer => answer.code = .unknown
  | .response _ => False

/-- A client without a channel gets one within its five attempts. -/
def Connects (env : Env β) : Prop :=
  ∀ n, ∃ failures < 5, env.connect (n + failures) = .connected

/-- Every disconnect is followed by another call, up to `retries` of them. -/
structure ResendsExactly (method : Method) (retries : ℕ) : Prop where
  calls : ∀ (ρ β : Type) (env : Env β) (requestTimeout : ℕ) (inputData : ρ)
    (client : Client ρ β), Connects env →
      (∀ n, Disconnects (env.execute n)) →
      (runMethod method env requestTimeout inputData client).2.calls.length =
        client.calls.length + (1 + retries)
  succeeds : ∀ (ρ β : Type) (env : Env β) (requestTimeout : ℕ)
    (inputData : ρ) (client : Client ρ β), Connects env →
      ∀ failures ≤ retries,
        (∀ n < failures,
          Disconnects (env.execute (client.calls.length + n))) →
        (∃ result, env.execute (client.calls.length + failures) =
          .response result) →
        ∃ response, (runMethod method env requestTimeout inputData client).1 =
          .ok response

section Channels

variable {env : Env β}

/-- The connect loop ends with the first connect that succeeds. -/
theorem retry_connectOnce_ok
    {left : ℕ} {client : Client ρ β}
    (hconnects : ∃ failures ≤ left,
      env.connect (client.connects + failures) = .connected) :
    ∃ channel after, BoundedRetry.retry (Client.connectOnce env) id left
        client = (.ok channel, after) ∧
      after.calls = client.calls := by
  induction left generalizing client with
  | zero =>
      rcases hconnects with ⟨failures, hle, hconnected⟩
      obtain rfl : failures = 0 := Nat.le_zero.mp hle
      have honce : client.connectOnce env = (.ok client.connects,
          { client with
            holder := some client.connects
            connects := client.connects + 1 }) := by
        rw [Nat.add_zero] at hconnected
        simp [Client.connectOnce, hconnected, Client.set]
      exact ⟨_, _, BoundedRetry.retry_of_ok honce 0, rfl⟩
  | succ left ih =>
      rcases hconnects with ⟨failures, hle, hconnected⟩
      cases honce : client.connectOnce env with
      | mk outcome after =>
          cases outcome with
          | ok channel =>
              rcases GrpcChannel.connectOnce_ok honce with ⟨_, hafter⟩
              exact ⟨_, after, BoundedRetry.retry_of_ok honce _,
                by rw [hafter]⟩
          | error err =>
              rcases GrpcChannel.connectOnce_error honce with ⟨_, hafter⟩
              rw [BoundedRetry.retry_succ_of_error honce]
              cases failures with
              | zero =>
                  rw [Nat.add_zero] at hconnected
                  simp [Client.connectOnce, hconnected] at honce
              | succ failures =>
                  have hrest := @ih after ⟨failures, by omega, by
                    rw [hafter]
                    rwa [Nat.add_assoc, Nat.add_comm 1]⟩
                  rw [hafter] at hrest ⊢
                  exact hrest

theorem getChannel_ok (hconnects : Connects env) (client : Client ρ β) :
    ∃ channel after, client.getChannel env = (.ok channel, after) ∧
      after.calls = client.calls := by
  unfold Client.getChannel
  cases client.holder with
  | some channel => exact ⟨channel, client, rfl, rfl⟩
  | none =>
      have hfive : ∃ failures ≤ 4,
          env.connect (client.connects + failures) = .connected := by
        rcases hconnects client.connects with ⟨failures, hlt, hconnected⟩
        exact ⟨failures, by omega, hconnected⟩
      dsimp only
      rw [Client.createChannel, Client.connectToUnixSocket, ite_self,
        BoundedRetry.loop_eq_retry]
      exact retry_connectOnce_ok hfive

/-- With a channel at hand an attempt is one call of the executor. -/
theorem execute_of_disconnects
    (hconnects : Connects env) {client : Client ρ β}
    (hlost : Disconnects (env.execute client.calls.length)) (request : ρ) :
    ∃ err after, client.execute env request = (.error err, after) ∧
      after.calls.length = client.calls.length + 1 := by
  rcases getChannel_ok hconnects client with ⟨channel, connected, hget, hcalls⟩
  rw [← hcalls] at hlost ⊢
  unfold Client.execute Client.executeOn Client.callExecutor
  rw [hget]
  cases houtcome : env.execute connected.calls.length with
  | response result =>
      rw [houtcome] at hlost
      contradiction
  | timeout =>
      refine ⟨_, _, by simp only [houtcome]; rfl, ?_⟩
      simp [Client.dropDeadChannel, Client.dropChannel]
  | status status =>
      refine ⟨_, _, by simp only [houtcome]; rfl, ?_⟩
      rw [GrpcChannel.dropChannelIfNeeded_holder]
      split <;> simp [Client.dropChannel]

theorem execute_of_response
    (hconnects : Connects env) {client : Client ρ β} {result : β}
    (hanswer : env.execute client.calls.length = .response result)
    (request : ρ) : (client.execute env request).1 = .ok result := by
  rcases getChannel_ok hconnects client with ⟨channel, connected, hget, hcalls⟩
  rw [← hcalls] at hanswer
  unfold Client.execute Client.executeOn Client.callExecutor
  simp [hget, hanswer]

end Channels

section Attempts

variable {γ : Type v} {env : Env β} {onOk : β → γ}

theorem retry_calls_of_disconnects
    (hconnects : Connects env) (hlost : ∀ n, Disconnects (env.execute n))
    (request : ρ) (left : ℕ) (client : Client ρ β) :
    (BoundedRetry.retry (Client.execute env request) onOk left
        client).2.calls.length = client.calls.length + (left + 1) := by
  induction left generalizing client with
  | zero =>
      obtain ⟨err, after, hexecute, hlength⟩ :=
        execute_of_disconnects hconnects (hlost client.calls.length) request
      rw [BoundedRetry.retry_zero_of_error hexecute, hlength]
  | succ left ih =>
      obtain ⟨err, after, hexecute, hlength⟩ :=
        execute_of_disconnects hconnects (hlost client.calls.length) request
      rw [BoundedRetry.retry_succ_of_error hexecute, ih, hlength]
      omega

theorem retry_ok_of_response
    (hconnects : Connects env) (request : ρ) {left failures : ℕ}
    (hle : failures ≤ left) {client : Client ρ β} {result : β}
    (hlost : ∀ n < failures,
      Disconnects (env.execute (client.calls.length + n)))
    (hanswer : env.execute (client.calls.length + failures) =
      .response result) :
    (BoundedRetry.retry (Client.execute env request) onOk left client).1 =
      .ok (onOk result) := by
  induction failures generalizing left client with
  | zero =>
      have hexecute := execute_of_response hconnects hanswer request
      cases houtcome : client.execute env request with
      | mk outcome after =>
          rw [houtcome] at hexecute
          cases hexecute
          rw [BoundedRetry.retry_of_ok houtcome]
  | succ failures ih =>
      obtain ⟨left, rfl⟩ := Nat.exists_eq_add_one_of_ne_zero
        (by omega : left ≠ 0)
      obtain ⟨err, after, hexecute, hlength⟩ :=
        execute_of_disconnects hconnects (hlost 0 (by omega)) request
      rw [BoundedRetry.retry_succ_of_error hexecute]
      apply ih (by omega)
      · intro n hn
        have hnext := hlost (n + 1) (by omega)
        rwa [hlength, Nat.add_assoc, Nat.add_comm 1]
      · rwa [hlength, Nat.add_assoc, Nat.add_comm 1]

end Attempts

/-- Every connect succeeds and every call times out. -/
def timingOut : Env β where
  unixSocket := false
  connect _ := .connected
  execute _ := .timeout

theorem timingOut_connects : Connects (timingOut : Env β) :=
  fun _ => ⟨0, by omega, rfl⟩

theorem timingOut_disconnects (n : ℕ) :
    Disconnects ((timingOut : Env β).execute n) :=
  trivial

section Methods

/-- How a method wraps what the executor returns. -/
def wrapOf (method : Method) (requestTimeout : ℕ) : β → Response β :=
  match method.responseFn with
  | .getResponse => .single
  | .getStreamedResponse => fun result => .streamed ⟨result, requestTimeout⟩

theorem answer_loop
    {γ : Type v} (wrap : γ → Response β) (onOk : β → γ)
    (attempt : Client ρ β → Except GrpcReadError β × Client ρ β)
    (amount : ℕ) :
    answer wrap (BoundedRetry.loop attempt onOk amount 0 client) =
      BoundedRetry.retry attempt (wrap ∘ onOk) (amount - 1) client := by
  rcases BoundedRetry.run_history attempt amount client with
      ⟨result, final, hrun⟩
  rw [hrun.loop_eq onOk, hrun.retry_eq, answer]
  cases result <;> rfl

theorem answer_execute (env : Env β) (inputData : ρ) (client : Client ρ β) :
    answer .single (client.execute env inputData) =
      BoundedRetry.retry (Client.execute env inputData) .single 0 client := by
  rw [answer]
  cases hexecute : client.execute env inputData with
  | mk outcome after =>
      cases outcome with
      | ok result =>
          rw [BoundedRetry.retry_of_ok hexecute]
          rfl
      | error err =>
          rw [BoundedRetry.retry_zero_of_error hexecute]
          rfl

theorem answer_getStreamedResponse
    (env : Env β) (inputData : ρ) (requestTimeout : ℕ)
    (client : Client ρ β) :
    answer .streamed (RequestBuilder.getStreamedResponse env client
        ⟨inputData, requestTimeout⟩) =
      BoundedRetry.retry (Client.execute env inputData)
        (fun result => .streamed ⟨result, requestTimeout⟩) 0 client := by
  cases hexecute : client.execute env inputData with
  | mk outcome after =>
      have hstream : client.executeWithResponseAsStream env inputData =
          (outcome, after) := hexecute
      rw [answer, RequestBuilder.getStreamedResponse, hstream]
      cases outcome with
      | ok result =>
          rw [BoundedRetry.retry_of_ok hexecute]
          rfl
      | error err =>
          rw [BoundedRetry.retry_zero_of_error hexecute]
          rfl

/-- A method without retries makes one attempt, whatever its builder. -/
theorem runMethod_eq
    (method : Method) (env : Env β) (requestTimeout : ℕ) (inputData : ρ)
    (client : Client ρ β) :
    runMethod method env requestTimeout inputData client =
      BoundedRetry.retry (Client.execute env inputData)
        (wrapOf method requestTimeout) (method.withRetries.getD 0 - 1)
        client := by
  unfold runMethod wrapOf
  cases method.withRetries with
  | some amount =>
      cases method.requestFn <;> cases method.responseFn <;>
        exact answer_loop _ _ _ amount
  | none =>
      cases method.responseFn with
      | getResponse =>
          cases method.requestFn <;>
            exact answer_execute env inputData client
      | getStreamedResponse =>
          cases method.requestFn <;>
            exact answer_getStreamedResponse env inputData requestTimeout
              client

/-- No method makes more attempts than its amount, unless that is zero. -/
theorem resendsExactly_iff_of_withRetries
    {method : Method} {retries : ℕ}
    (hamount : method.withRetries.getD 0 = retries) :
    ResendsExactly method retries ↔ retries = 0 := by
  constructor
  · intro hresends
    have hcalls := hresends.calls Unit Unit timingOut 0 () ⟨none, 0, []⟩
      timingOut_connects timingOut_disconnects
    rw [runMethod_eq, retry_calls_of_disconnects timingOut_connects
      timingOut_disconnects, hamount] at hcalls
    omega
  · intro hzero
    subst hzero
    constructor
    · intro ρ β env requestTimeout inputData client hconnects hlost
      rw [runMethod_eq, retry_calls_of_disconnects hconnects hlost, hamount]
    · intro ρ β env requestTimeout inputData client hconnects failures hle
        hlost ⟨result, hanswer⟩
      rw [runMethod_eq, hamount]
      exact ⟨_, retry_ok_of_response hconnects inputData hle hlost hanswer⟩

end Methods

section Generation

/-- The map of the overrides gives the effective amount. -/
theorem retriesOf_eq
    {overrides : Option (List OverrideParam)}
    {result : Std.HashMap String FnOverride}
    (hnew : FnOverride.new overrides = .ok result)
    (retries : ℕ) (rpc : ProtoRpc) :
    retriesOf retries result rpc =
      effectiveRetries retries overrides rpc.name := by
  cases overrides with
  | none =>
      cases hnew
      simp [retriesOf, effectiveRetries, LastInsertion.lastValue]
  | some overrides =>
      have hresult : result = overrides.foldl
          (fun result item => result.insert item.fnName ⟨item.retries⟩)
          (∅ : Std.HashMap String FnOverride) := by
        unfold FnOverride.new at hnew
        dsimp only at hnew
        split at hnew
        · contradiction
        · cases hnew
          rfl
      have hlookup := LastInsertion.hashMap_getElem?
        (fun item : OverrideParam =>
          (item.fnName, (⟨item.retries⟩ : FnOverride))) overrides rpc.name
      have hlast := LastInsertion.lastValue_map FnOverride.mk rpc.name
        (overrides.map fun item => (item.fnName, item.retries))
      rw [List.map_map] at hlast
      have hvalue : result[rpc.name]? =
          (LastInsertion.lastValue rpc.name
            (overrides.map fun item => (item.fnName, item.retries))).map
              FnOverride.mk := by
        rw [hresult, hlookup]
        exact hlast
      unfold retriesOf effectiveRetries
      rw [hvalue, Option.getD_some]
      cases LastInsertion.lastValue rpc.name
        (overrides.map fun item => (item.fnName, item.retries)) <;> rfl

end Generation

/-- The methods of a generated client, with the effective amount of retries
of their rpcs: a method resends a request as often as the amount says if and
only if it says never. -/
theorem resendsExactly_iff
    {lexer : TokenLexer} {cases : CharCase}
    {crateNs : String} {protoFile : ProtoServiceDescription} {retries : ℕ}
    {overrides : Option (List OverrideParam)} {withTelemetry : Bool}
    {client : ClientMacros.Client}
    (hgenerate : generate lexer cases crateNs protoFile retries overrides
      withTelemetry = .ok client) :
    List.Forall₂
      (fun rpc method =>
        ResendsExactly method (effectiveRetries retries overrides rpc.name) ↔
          effectiveRetries retries overrides rpc.name = 0)
      protoFile.rpc client.methods := by
  rcases generate_eq_ok hgenerate with ⟨result, hnew, _, hmethods⟩
  refine hmethods.imp fun rpc method hmethod => ?_
  rcases generateGrpcMethod_eq_ok hmethod with ⟨_, _, _, _, _, hretries⟩
  apply resendsExactly_iff_of_withRetries
  rw [hretries, retriesOf_eq hnew]

section Example

/-- `rpc Get(flows.GetRequest) returns (flows.GetReply);`. -/
def flows : ProtoServiceDescription where
  serviceName := "Flows"
  rpc := [⟨"Get", "flows.GetRequest", "flows.GetReply"⟩]

def getMethod (amount : ℕ) : Method where
  fnName := "get"
  inputDataType := "GetRequest"
  outputDataType := "GetReply"
  withCtx := false
  requestFn := .startRequest
  withRetries := some amount
  responseFn := .getResponse

def getImplementation : Implementation where
  interfaceName := .requestResponse
  inputType := "GetRequest"
  outputType := "GetReply"
  inputData := "GetRequest"
  resultType := "GetReply"
  inputInvoke := "input_data"
  fnName := "get"

theorem generate_flows (amount : ℕ) :
    generate anyTokens asciiCase "crate::flows" flows (amount + 1) none false =
      .ok {
        useNameSpaces := nameSpaces asciiCase "crate::flows" "Flows"
        grpcServiceName := "FlowsClient"
        interfaces := [getImplementation]
        methods := [getMethod (amount + 1)] } := by
  apply generate_without_overrides
  · rfl
  · unfold generateGrpcMethods flows
    rw [List.mapM_cons, generateGrpcMethod, retriesOf_empty]
    rfl

theorem resendsExactly_iff_flows :
    List.Forall₂
      (fun rpc method =>
        ResendsExactly method (effectiveRetries 3 none rpc.name) ↔
          effectiveRetries 3 none rpc.name = 0)
      flows.rpc [getMethod 3] :=
  resendsExactly_iff (generate_flows 2)

/-- With one retry a request that times out is not resent at all. -/
theorem one_retry_resends_nothing :
    ∃ client method, generate anyTokens asciiCase "crate::flows" flows 1 none
        false = .ok client ∧
      client.methods = [method] ∧
      (runMethod method (timingOut : Env ℕ) 5 "request"
        ⟨none, 0, []⟩).2.calls.length = 1 ∧
      ¬ ResendsExactly method 1 := by
  refine ⟨_, getMethod 1, generate_flows 0, rfl, ?_, ?_⟩
  · rw [runMethod_eq, retry_calls_of_disconnects timingOut_connects
      timingOut_disconnects]
    rfl
  · have hamount : (getMethod 1).withRetries.getD 0 = 1 := rfl
    rw [resendsExactly_iff_of_withRetries hamount]
    decide

end Example

end GeneratedRetries
end GrpcExtensions
