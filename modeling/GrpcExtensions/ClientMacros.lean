import GrpcExtensions.ProtoFileReader
import Mathlib.Data.List.Forall2
import Mathlib.Tactic.Common

/-!
# The client that is generated from a .proto file

The macro makes a method and an implementation of an executor trait for every
rpc of the file.  Four selectors derive the streaming kind from the parsed
parameters, each on its own.  Generated code is kept as its text; the names
that the generated methods and traits are called by are enumerations.
-/

namespace GrpcExtensions
namespace ClientMacros

open ProtoFileReader

section Texts

/-- An identifier of ASCII letters, digits and underscores. -/
def IsWord (word : String) : Prop :=
  match word.toList with
  | [] => False
  | first :: rest =>
      (first.isAlpha = true ∨ first = '_') ∧
        ∀ c ∈ rest, c.isAlphanum = true ∨ c = '_'

instance (word : String) : Decidable (IsWord word) :=
  match hword : word.toList with
  | [] => .isFalse (by simp [IsWord, hword])
  | first :: rest =>
      decidable_of_iff
        ((first.isAlpha = true ∨ first = '_') ∧
          (rest.all fun c => c.isAlphanum || c == '_') = true)
        (by simp [IsWord, hword])

/-- Identifiers with `::` between them. -/
inductive IsPath : String → Prop
  | word {word : String} : IsWord word → IsPath word
  | segment {path word : String} :
      IsPath path → IsWord word → IsPath (path ++ "::" ++ word)

/-- Which texts `TokenStream::from_str` takes. -/
structure TokenLexer where
  lexes : String → Bool
  path : ∀ path, IsPath path → lexes path = true
  glob : ∀ path, IsPath path → lexes (path ++ "::*") = true
  usePath : ∀ path, IsPath path → lexes ("use " ++ path) = true
  useGlob : ∀ path, IsPath path → lexes ("use " ++ path ++ "::*") = true
  unit : lexes "()" = true
  streaming : ∀ word, IsWord word →
    lexes ("tonic::Streaming<" ++ word ++ ">") = true
  consumer : lexes "input_data.get_consumer()" = true

/-- `TokenStream::from_str` followed by `unwrap`. -/
def tokenStream (lexer : TokenLexer) (text : String) : Except Panic String :=
  if lexer.lexes text then .ok text else .error .unwrap

/-- A lexer that takes every text. -/
def anyTokens : TokenLexer where
  lexes _ := true
  path _ _ := rfl
  glob _ _ := rfl
  usePath _ _ := rfl
  useGlob _ _ := rfl
  unit := rfl
  streaming _ _ := rfl
  consumer := rfl

/-- `char::is_uppercase` and the first character of `char::to_lowercase`. -/
structure CharCase where
  isUppercase : Char → Bool
  toLowercase : Char → Char
  isUppercase_ascii : ∀ c, c.toNat < 128 → isUppercase c = c.isUpper
  toLowercase_ascii : ∀ c, c.toNat < 128 → toLowercase c = c.toLower

def asciiCase : CharCase where
  isUppercase := Char.isUpper
  toLowercase := Char.toLower
  isUppercase_ascii _ _ := rfl
  toLowercase_ascii _ _ := rfl

def snakeCaseFrom (cases : CharCase) (index : ℕ) : List Char → List Char
  | [] => []
  | ch :: rest =>
      if cases.isUppercase ch then
        (if index ≠ 0 then ['_'] else []) ++
          cases.toLowercase ch :: snakeCaseFrom cases (index + 1) rest
      else ch :: snakeCaseFrom cases (index + 1) rest

def intoSnakeCase (cases : CharCase) (src : String) : String :=
  String.ofList (snakeCaseFrom cases 0 src.toList)

end Texts

section ParamTypes

def isStream : ParamType → Bool
  | .single _ => false
  | .stream _ => true

def getName : ParamType → String
  | .single name => name
  | .stream name => name

def getInputParamInvoke : ParamType → String
  | .single _ => "input_data"
  | .stream _ => "input_data.get_consumer()"

def getOutputParamType : ParamType → String
  | .single name => name
  | .stream name => "tonic::Streaming<" ++ name ++ ">"

end ParamTypes

inductive RequestFn where
  | startRequest
  | startRequestWithInputPramsAsStream
  deriving DecidableEq

inductive ResponseFn where
  | getResponse
  | getStreamedResponse
  deriving DecidableEq

inductive ExecutorTrait where
  | requestResponse
  | requestWithResponseAsStream
  | requestWithInputAsStream
  | requestWithInputAsStreamWithResponseAsStream
  deriving DecidableEq

/-- A method of the client: `channel.request_fn(input_data)`, then
`with_retries` if there is an amount, then `response_fn`. -/
structure Method where
  fnName : String
  inputDataType : String
  outputDataType : String
  /-- The method has a parameter `ctx` and hands it to `get_channel`. -/
  withCtx : Bool
  requestFn : RequestFn
  withRetries : Option ℕ
  responseFn : ResponseFn
  deriving DecidableEq

/-- `impl trait<TGrpcService, input, output>` with its method `execute`. -/
structure Implementation where
  interfaceName : ExecutorTrait
  inputType : String
  outputType : String
  inputData : String
  resultType : String
  /-- What the request is made of. -/
  inputInvoke : String
  fnName : String
  deriving DecidableEq

structure FnOverride where
  retries : ℕ

/-- An item of the macro parameter `overrides`. -/
structure OverrideParam where
  fnName : String
  retries : ℕ

/-- The macro panics, or returns an error of the compiler. -/
inductive Failure where
  | panic (panic : Panic)
  | synError (message : String)

structure Client where
  useNameSpaces : List String
  /-- The client that tonic has generated for the service. -/
  grpcServiceName : String
  interfaces : List Implementation
  methods : List Method

section Methods

variable (lexer : TokenLexer) (cases : CharCase)

def getRequestFnName (inputParam : Option ParamType) : RequestFn :=
  match inputParam with
  | some inputParam =>
      if isStream inputParam then .startRequestWithInputPramsAsStream
      else .startRequest
  | none => .startRequest

def getResponseFnName (inputParam : Option ParamType) : ResponseFn :=
  match inputParam with
  | some inputParam =>
      if isStream inputParam then .getStreamedResponse else .getResponse
  | none => .getResponse

def getFuncInDataType (dataType : Option ParamType) : Except Panic String :=
  match dataType with
  | some (.single name) => tokenStream lexer name
  | some (.stream name) => do
      let param ← tokenStream lexer name
      return "impl Into<my_grpc_extensions::StreamedRequest<" ++ param ++ ">>"
  | none => .ok "()"

def getFuncOutDataType (dataType : Option ParamType) : Except Panic String :=
  match dataType with
  | some (.single name) => tokenStream lexer name
  | some (.stream name) => do
      let param ← tokenStream lexer name
      return "my_grpc_extensions::StreamedResponse<" ++ param ++ ">"
  | none => .ok "()"

variable (retriesAmount : ℕ) (overrides : Std.HashMap String FnOverride)

/-- The retries of one rpc. -/
def retriesOf (rpc : ProtoRpc) : ℕ :=
  match overrides[rpc.name]? with
  | some value => value.retries
  | none => retriesAmount

def generateGrpcMethod (withTelemetry : Bool) (rpc : ProtoRpc) :
    Except Panic Method := do
  let fnName ← tokenStream lexer (intoSnakeCase cases rpc.name)
  let inputDataType ← getFuncInDataType lexer rpc.getInputParam
  let outputDataType ← getFuncOutDataType lexer rpc.getOutputParam
  let retriesAmount := retriesOf retriesAmount overrides rpc
  return {
    fnName
    inputDataType
    outputDataType
    withCtx := withTelemetry
    requestFn := getRequestFnName rpc.getInputParam
    withRetries := if retriesAmount > 0 then some retriesAmount else none
    responseFn := getResponseFnName rpc.getOutputParam }

def generateGrpcMethods (protoFile : ProtoServiceDescription)
    (withTelemetry : Bool) : Except Panic (List Method) :=
  protoFile.rpc.mapM
    (generateGrpcMethod lexer cases retriesAmount overrides withTelemetry)

end Methods

section Interfaces

variable (lexer : TokenLexer) (cases : CharCase)

def getInterfaceName (inputParam outputParam : ParamType) : ExecutorTrait :=
  if isStream inputParam then
    if isStream outputParam then .requestWithInputAsStreamWithResponseAsStream
    else .requestWithInputAsStream
  else
    if isStream outputParam then .requestWithResponseAsStream
    else .requestResponse

def getInterfaceNameWithInputParamOnly (inputParam : ParamType) :
    ExecutorTrait :=
  if isStream inputParam then .requestWithInputAsStream else .requestResponse

def getInterfaceNameWithOutputParamOnly (outputParam : ParamType) :
    ExecutorTrait :=
  if isStream outputParam then .requestWithResponseAsStream
  else .requestResponse

def getNameFnParamTypeToken : ParamType → Except Panic String
  | .single name => tokenStream lexer name
  | .stream name => do
      let name ← tokenStream lexer name
      return "&my_grpc_extensions::StreamedRequest<" ++ name ++ ">"

def generateInterfaceImplementation (rpc : ProtoRpc) :
    Except Panic Implementation :=
  match rpc.getInputParam, rpc.getOutputParam with
  | some inputParam, some outputParam => do
      let inputData ← getNameFnParamTypeToken lexer inputParam
      let resultType ← tokenStream lexer (getOutputParamType outputParam)
      let inputType ← tokenStream lexer (getName inputParam)
      let outputType ← tokenStream lexer (getName outputParam)
      let fnName ← tokenStream lexer (intoSnakeCase cases rpc.name)
      let inputInvoke ← tokenStream lexer (getInputParamInvoke inputParam)
      return {
        interfaceName := getInterfaceName inputParam outputParam
        inputType
        outputType
        inputData
        resultType
        inputInvoke
        fnName }
  | some inputParam, none => do
      let inputData ← getNameFnParamTypeToken lexer inputParam
      let inputType ← tokenStream lexer (getName inputParam)
      let fnName ← tokenStream lexer (intoSnakeCase cases rpc.name)
      let inputInvoke ← tokenStream lexer (getInputParamInvoke inputParam)
      return {
        interfaceName := getInterfaceNameWithInputParamOnly inputParam
        inputType
        outputType := "()"
        inputData
        resultType := "()"
        inputInvoke
        fnName }
  | none, some outputParam => do
      let resultType ← tokenStream lexer (getOutputParamType outputParam)
      let outputType ← tokenStream lexer (getName outputParam)
      let fnName ← tokenStream lexer (intoSnakeCase cases rpc.name)
      return {
        interfaceName := getInterfaceNameWithOutputParamOnly outputParam
        inputType := "()"
        outputType
        inputData := "()"
        resultType
        inputInvoke := "()"
        fnName }
  | none, none =>
      .error (.message ("RPC " ++ rpc.name ++
        " Not supported if input_param and output_param are both empty"))

def generateInterfacesImplementations (protoFile : ProtoServiceDescription) :
    Except Panic (List Implementation) :=
  protoFile.rpc.mapM (generateInterfaceImplementation lexer cases)

end Interfaces

section Generate

def hasMethod (protoFile : ProtoServiceDescription) (methodName : String) :
    Bool :=
  protoFile.rpc.any fun rpc => rpc.name == methodName

def FnOverride.new (params : Option (List OverrideParam)) :
    Except Failure (Std.HashMap String FnOverride) :=
  match params with
  | none => .ok ∅
  | some overrides =>
      let result := overrides.foldl
        (fun result item => result.insert item.fnName ⟨item.retries⟩)
        (∅ : Std.HashMap String FnOverride)
      if result.size = 0 then
        .error (.synError ("Overrides list can not be empty. Just remove " ++
          "field if you do not want to override any function"))
      else .ok result

/-- The first override whose method the file does not have. -/
def checkOverrides (protoFile : ProtoServiceDescription)
    (overrides : Std.HashMap String FnOverride) : Except Failure Unit :=
  match overrides.toList.find? fun item => !hasMethod protoFile item.1 with
  | some item =>
      .error (.synError ("Method " ++ item.1 ++
        " is not found in proto file for service " ++ protoFile.serviceName))
  | none => .ok ()

/-- A panic of the macro is one of its failures. -/
def panicking {α : Type} (result : Except Panic α) : Except Failure α :=
  result.mapError Failure.panic

def serviceClient (grpcServiceName : String) : String :=
  grpcServiceName ++ "Client"

/-- The name spaces of the code that tonic has generated. -/
def nameSpaces (cases : CharCase) (crateNs grpcServiceName : String) :
    List String :=
  ["use " ++ crateNs ++ "::*",
    "use " ++ crateNs ++ "::" ++ intoSnakeCase cases grpcServiceName ++
      "_client::" ++ grpcServiceName ++ "Client"]

/-- The parts of `generate` that depend on the file, in the order in which
they may fail. -/
def generate (lexer : TokenLexer) (cases : CharCase) (crateNs : String)
    (protoFile : ProtoServiceDescription) (retries : ℕ)
    (overrides : Option (List OverrideParam)) (withTelemetry : Bool) :
    Except Failure Client := do
  let grpcServiceName ← panicking
    (tokenStream lexer (serviceClient protoFile.serviceName))
  let interfaces ← panicking
    (generateInterfacesImplementations lexer cases protoFile)
  let overrides ← FnOverride.new overrides
  let useNameSpaces ← panicking
    ((nameSpaces cases crateNs protoFile.serviceName).mapM
      (tokenStream lexer))
  checkOverrides protoFile overrides
  let methods ← panicking
    (generateGrpcMethods lexer cases retries overrides protoFile withTelemetry)
  return { useNameSpaces, grpcServiceName, interfaces, methods }

end Generate

section Results

variable {ε α γ : Type}

theorem bind_eq_ok
    {x : Except ε α} {f : α → Except ε γ} {result : γ} :
    (x >>= f) = .ok result ↔ ∃ a, x = .ok a ∧ f a = .ok result := by
  cases x <;> simp [bind, Except.bind]

theorem panicking_eq_ok {x : Except Panic α} {result : α} :
    panicking x = .ok result ↔ x = .ok result := by
  cases x <;> simp [panicking, Except.mapError]

theorem tokenStream_eq_ok
    {lexer : TokenLexer} {text result : String}
    (htokens : tokenStream lexer text = .ok result) : result = text := by
  unfold tokenStream at htokens
  split at htokens
  · exact (Except.ok.inj htokens).symm
  · contradiction

theorem forall₂_of_mapM
    {f : α → Except ε γ} {xs : List α} {ys : List γ}
    (hmap : xs.mapM f = .ok ys) :
    List.Forall₂ (fun x y => f x = .ok y) xs ys := by
  induction xs generalizing ys with
  | nil =>
      cases hmap
      exact .nil
  | cons x xs ih =>
      rw [List.mapM_cons] at hmap
      rcases bind_eq_ok.mp hmap with ⟨y, hy, hmap⟩
      rcases bind_eq_ok.mp hmap with ⟨rest, hrest, hmap⟩
      cases hmap
      exact .cons hy (ih hrest)

theorem map_eq_of_forall₂
    {δ : Type} {f : α → δ} {g : γ → δ} {xs : List α} {ys : List γ}
    (hrel : List.Forall₂ (fun x y => g y = f x) xs ys) :
    ys.map g = xs.map f := by
  induction hrel with
  | nil => rfl
  | cons hxy _ ih => rw [List.map_cons, List.map_cons, hxy, ih]

theorem exists_of_forall₂
    {R : α → γ → Prop} {xs : List α} {ys : List γ}
    (hrel : List.Forall₂ R xs ys) : ∀ x ∈ xs, ∃ y ∈ ys, R x y := by
  induction hrel with
  | nil => simp
  | @cons x y xs ys hxy _ ih =>
      rw [List.forall_mem_cons]
      refine ⟨⟨y, List.mem_cons_self, hxy⟩, ?_⟩
      intro z hz
      rcases ih z hz with ⟨w, hw, hzw⟩
      exact ⟨w, List.mem_cons_of_mem y hw, hzw⟩

section Inversion

variable {lexer : TokenLexer} {cases : CharCase} {rpc : ProtoRpc}

/-- All that a generated method has from its rpc. -/
theorem generateGrpcMethod_eq_ok
    {retriesAmount : ℕ} {overrides : Std.HashMap String FnOverride}
    {withTelemetry : Bool} {method : Method}
    (hmethod : generateGrpcMethod lexer cases retriesAmount overrides
      withTelemetry rpc = .ok method) :
    method.fnName = intoSnakeCase cases rpc.name ∧
      getFuncInDataType lexer rpc.getInputParam = .ok method.inputDataType ∧
      getFuncOutDataType lexer rpc.getOutputParam =
        .ok method.outputDataType ∧
      method.requestFn = getRequestFnName rpc.getInputParam ∧
      method.responseFn = getResponseFnName rpc.getOutputParam ∧
      method.withRetries.getD 0 = retriesOf retriesAmount overrides rpc := by
  unfold generateGrpcMethod at hmethod
  rcases bind_eq_ok.mp hmethod with ⟨fnName, hname, hmethod⟩
  rcases bind_eq_ok.mp hmethod with ⟨inputDataType, hinput, hmethod⟩
  rcases bind_eq_ok.mp hmethod with ⟨outputDataType, houtput, hmethod⟩
  cases hmethod
  refine ⟨tokenStream_eq_ok hname, hinput, houtput, rfl, rfl, ?_⟩
  dsimp only
  split
  · rfl
  · next hzero => exact (Nat.eq_zero_of_not_pos hzero).symm

/-- What is made of each rpc of the file by a macro that succeeds. -/
theorem generate_eq_ok
    {crateNs : String} {protoFile : ProtoServiceDescription} {retries : ℕ}
    {overrides : Option (List OverrideParam)} {withTelemetry : Bool}
    {client : Client}
    (hgenerate : generate lexer cases crateNs protoFile retries overrides
      withTelemetry = .ok client) :
    ∃ result, FnOverride.new overrides = .ok result ∧
      List.Forall₂ (fun rpc implementation =>
          generateInterfaceImplementation lexer cases rpc =
            .ok implementation)
        protoFile.rpc client.interfaces ∧
      List.Forall₂ (fun rpc method =>
          generateGrpcMethod lexer cases retries result withTelemetry rpc =
            .ok method)
        protoFile.rpc client.methods := by
  unfold generate at hgenerate
  rcases bind_eq_ok.mp hgenerate with ⟨grpcServiceName, _, hgenerate⟩
  rcases bind_eq_ok.mp hgenerate with ⟨interfaces, hinterfaces, hgenerate⟩
  rcases bind_eq_ok.mp hgenerate with ⟨result, hnew, hgenerate⟩
  rcases bind_eq_ok.mp hgenerate with ⟨useNameSpaces, _, hgenerate⟩
  rcases bind_eq_ok.mp hgenerate with ⟨_, _, hgenerate⟩
  rcases bind_eq_ok.mp hgenerate with ⟨methods, hmethods, hgenerate⟩
  cases hgenerate
  exact ⟨result, hnew, forall₂_of_mapM (panicking_eq_ok.mp hinterfaces),
    forall₂_of_mapM (panicking_eq_ok.mp hmethods)⟩

end Inversion

section WithoutOverrides

variable {cases : CharCase}

theorem retriesOf_empty (retries : ℕ) (rpc : ProtoRpc) :
    retriesOf retries ∅ rpc = retries := by
  simp [retriesOf]

theorem generate_without_overrides
    (crateNs : String) {protoFile : ProtoServiceDescription} {retries : ℕ}
    {withTelemetry : Bool}
    {interfaces : List Implementation} {methods : List Method}
    (hinterfaces : generateInterfacesImplementations anyTokens cases protoFile =
      .ok interfaces)
    (hmethods : generateGrpcMethods anyTokens cases retries ∅ protoFile
      withTelemetry = .ok methods) :
    generate anyTokens cases crateNs protoFile retries none withTelemetry =
      .ok {
        useNameSpaces := nameSpaces cases crateNs protoFile.serviceName
        grpcServiceName := serviceClient protoFile.serviceName
        interfaces
        methods } := by
  have hcheck : checkOverrides protoFile ∅ = .ok () := by
    simp [checkOverrides]
  unfold generate
  apply bind_eq_ok.mpr
  refine ⟨_, rfl, ?_⟩
  apply bind_eq_ok.mpr
  refine ⟨interfaces, panicking_eq_ok.mpr hinterfaces, ?_⟩
  apply bind_eq_ok.mpr
  refine ⟨∅, rfl, ?_⟩
  apply bind_eq_ok.mpr
  refine ⟨_, rfl, ?_⟩
  apply bind_eq_ok.mpr
  refine ⟨(), hcheck, ?_⟩
  apply bind_eq_ok.mpr
  exact ⟨methods, panicking_eq_ok.mpr hmethods, rfl⟩

end WithoutOverrides

end Results

end ClientMacros
end GrpcExtensions
