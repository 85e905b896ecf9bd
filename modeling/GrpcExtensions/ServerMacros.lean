import GrpcExtensions.ClientMacros

/-!
# The server that is generated from a .proto file

Every rpc becomes a function of the server trait, and an output that is a
stream becomes the declaration of a stream type as well.
-/

namespace GrpcExtensions
namespace ServerMacros

open ProtoFileReader (Panic ParamType ProtoRpc ProtoServiceDescription)
open ClientMacros (CharCase TokenLexer bind_eq_ok intoSnakeCase tokenStream)

/-- `generate_server_stream!(stream_name, item_name)`. -/
structure StreamDescription where
  streamName : String
  itemName : String
  deriving DecidableEq

structure Function where
  fnName : String
  streamDescription : Option StreamDescription
  /-- The name under which the telemetry of a call is started. -/
  telemetryInjection : Option String
  inputParam : String
  outType : String
  resultConversion : String
  deriving DecidableEq

structure Server where
  useNameSpaces : List String
  serviceName : String
  /-- The type that the service is implemented for. -/
  grpcStructName : String
  functions : List Function
  ping : Function
  deriving DecidableEq

section Source

variable (lexer : TokenLexer) (cases : CharCase) (withTelemetry : Bool)

def generateInputParam (inputParam : Option ParamType) :
    Except Panic String :=
  match inputParam with
  | some (.single tpName) => do
      let tpName ← tokenStream lexer tpName
      return "tonic::Request<" ++ tpName ++ ">"
  | some (.stream tpName) => do
      let tpName ← tokenStream lexer tpName
      return "tonic::Request<tonic::Streaming<" ++ tpName ++ ">>"
  | none => .ok "tonic::Request<()>"

/-- The stream description, the type of the response and the conversion of
the result. -/
def generateOutput (rpc : ProtoRpc) :
    Except Panic (Option StreamDescription × String × String) :=
  match rpc.getOutputParam with
  | some (.single tpName) => do
      let tpName ← tokenStream lexer tpName
      return (none, "tonic::Response<" ++ tpName ++ ">", "Ok(result.into())")
  | some (.stream tpName) => do
      let tpName ← tokenStream lexer tpName
      let fnNameStreamed := rpc.name ++ "Stream"
      let fnName ← tokenStream lexer fnNameStreamed
      return (some ⟨fnNameStreamed, tpName⟩,
        "tonic::Response<Self::" ++ fnName ++ ">", "result.get_result()")
  | none => .ok (none, "tonic::Response<()>", "Ok(result.into())")

def generateFunction (rpc : ProtoRpc) : Except Panic Function := do
  let fnName ← tokenStream lexer (intoSnakeCase cases rpc.name)
  let inputParam ← generateInputParam lexer rpc.getInputParam
  let (streamDescription, outType, resultConversion) ←
    generateOutput lexer rpc
  return {
    fnName
    streamDescription
    telemetryInjection := if withTelemetry then some rpc.name else none
    inputParam
    outType
    resultConversion }

/-- The function that every server has; it takes no part in telemetry. -/
def ping : Function where
  fnName := "ping"
  streamDescription := none
  telemetryInjection := none
  inputParam := "tonic::Request<()>"
  outType := "tonic::Response<()>"
  resultConversion := "Ok(tonic::Response::new(()))"

def serverNs (crateNs serviceName : String) : String :=
  crateNs ++ "::" ++ intoSnakeCase cases serviceName ++ "_server::*"

def structName (grpcStructName : Option String) : Except Panic String :=
  match grpcStructName with
  | some grpcStructName => tokenStream lexer grpcStructName
  | none => .ok "super::SdkGrpcService"

def generate (crateNs : String) (grpcStructName : Option String)
    (protoFile : ProtoServiceDescription) : Except Panic Server := do
  let serviceName ← tokenStream lexer protoFile.serviceName
  let grpcStructName ← structName lexer grpcStructName
  let functions ← protoFile.rpc.mapM
    (generateFunction lexer cases withTelemetry)
  let serverNs ← tokenStream lexer
    (serverNs cases crateNs protoFile.serviceName)
  let crateNs ← tokenStream lexer crateNs
  return {
    useNameSpaces := [serverNs, crateNs ++ "::*"]
    serviceName
    grpcStructName
    functions
    ping }

end Source

/-- What is made of the rpcs of the file by a macro that succeeds. -/
theorem generate_eq_ok
    {lexer : TokenLexer} {cases : CharCase} {withTelemetry : Bool}
    {crateNs : String} {grpcStructName : Option String}
    {protoFile : ProtoServiceDescription} {server : Server}
    (hgenerate : generate lexer cases withTelemetry crateNs grpcStructName
      protoFile = .ok server) :
    protoFile.rpc.mapM (generateFunction lexer cases withTelemetry) =
        .ok server.functions ∧
      server.ping = ping := by
  unfold generate at hgenerate
  rcases bind_eq_ok.mp hgenerate with ⟨_, _, hgenerate⟩
  rcases bind_eq_ok.mp hgenerate with ⟨_, _, hgenerate⟩
  rcases bind_eq_ok.mp hgenerate with ⟨functions, hfunctions, hgenerate⟩
  rcases bind_eq_ok.mp hgenerate with ⟨_, _, hgenerate⟩
  rcases bind_eq_ok.mp hgenerate with ⟨_, _, hgenerate⟩
  cases hgenerate
  exact ⟨hfunctions, rfl⟩

end ServerMacros
end GrpcExtensions
