import GrpcExtensions.ExecutorImplementations
import GrpcExtensions.ServerMacros

/-!
# The two ends of an rpc

The macro of the client and the macro of the server read the same file on
their own.  Wherever both of them succeed, the method, the implementation of
the executor trait and the function of the server fit one declaration, also
where that is not the one in the file.  For files of declarations the outcome
of both macros is determined.
-/

namespace GrpcExtensions
namespace GeneratedEnds

open ClientMacros
open ProtoFileReader
open DeclaredStreams
open ExecutorImplementations (kindOf dataType_eq)
open ServerMacros (generateFunction)

section Seen

/-- A parameter as the generated code uses it. -/
def seen (param : Option ParamType) : ParamDecl :=
  ⟨isStream (kindOf param), getName (kindOf param)⟩

def seenRpc (rpc : ProtoRpc) : RpcDecl :=
  ⟨rpc.name, seen rpc.getInputParam, seen rpc.getOutputParam⟩

theorem notMem_of_mem_splitOn
    {α : Type} [BEq α] [LawfulBEq α] {a : α} (xs : List α) :
    ∀ piece ∈ xs.splitOn a, a ∉ piece := by
  induction xs with
  | nil => simp
  | cons x xs ih =>
      rw [List.splitOn_cons_eq_if_modifyHead]
      split
      · rw [List.forall_mem_cons]
        exact ⟨List.not_mem_nil, ih⟩
      · next hne =>
          cases hpieces : xs.splitOn a with
          | nil => simp
          | cons piece pieces =>
              rw [hpieces, List.forall_mem_cons] at ih
              rw [List.modifyHead_cons, List.forall_mem_cons, List.mem_cons]
              constructor
              · rintro (heq | hmem)
                · exact hne (beq_iff_eq.mpr heq.symm)
                · exact ih.1 hmem
              · exact ih.2

/-- The dots of a name are in front of its last segment. -/
theorem dot_notMem_lastSegment (name : String) :
    '.' ∉ (lastSegment name).toList := by
  unfold lastSegment
  rw [String.toList_ofList]
  apply notMem_of_mem_splitOn name.toList
  rw [List.getLastD_eq_getLast?,
    List.getLast?_eq_some_getLast (List.splitOn_ne_nil '.' name.toList)]
  exact List.getLast_mem _

theorem lastSegment_of_no_dot {name : String} (hdot : '.' ∉ name.toList) :
    lastSegment name = name := by
  unfold lastSegment
  rw [List.splitOn_eq_singleton hdot]
  exact String.ofList_toList

theorem dot_notMem_kindOf (src : String) :
    '.' ∉ (getName (kindOf (ParamType.parse src))).toList := by
  have hunit : '.' ∉ "()".toList := by
    decide
  unfold ParamType.parse
  split
  next => exact hunit
  next isVec name hname =>
    split
    · exact hunit
    · split <;> exact dot_notMem_lastSegment name

theorem typeName_seen (src : String) :
    typeName (seen (ParamType.parse src)) =
      getName (kindOf (ParamType.parse src)) := by
  have hdot := dot_notMem_kindOf src
  unfold typeName seen
  rw [if_neg, lastSegment_of_no_dot hdot]
  intro hempty
  dsimp only at hempty
  rw [hempty] at hdot
  exact hdot (by decide)

end Seen

section Agreement

variable (cases : CharCase)

structure MethodAgrees (d : RpcDecl) (method : Method) : Prop where
  fits : MethodFits d method
  fnName : method.fnName = intoSnakeCase cases d.name

/-- Without an input the request is made of the unit value, which is written
out. -/
structure ImplementationAgrees (d : RpcDecl)
    (implementation : Implementation) : Prop where
  fits : ImplementationFits d implementation ∨
    (implementation.inputInvoke = "()" ∧ implementation.inputData = "()" ∧
      ImplementationFits d { implementation with inputInvoke := "input_data" })
  fnName : implementation.fnName = intoSnakeCase cases d.name

structure FunctionAgrees (d : RpcDecl) (function : ServerMacros.Function) :
    Prop where
  fits : FunctionFits d function
  resultConversion : function.resultConversion =
    if d.output.stream then "result.get_result()" else "Ok(result.into())"
  fnName : function.fnName = intoSnakeCase cases d.name

variable {cases} {lexer : TokenLexer} {rpc : ProtoRpc}

theorem requestFn_eq (param : Option ParamType) :
    getRequestFnName param =
      if isStream (kindOf param) then .startRequestWithInputPramsAsStream
      else .startRequest := by
  rcases param with _ | ⟨_ | _⟩ <;> rfl

theorem responseFn_eq (param : Option ParamType) :
    getResponseFnName param =
      if isStream (kindOf param) then .getStreamedResponse
      else .getResponse := by
  rcases param with _ | ⟨_ | _⟩ <;> rfl

theorem method_agrees
    {retriesAmount : ℕ} {overrides : Std.HashMap String FnOverride}
    {withTelemetry : Bool} {method : Method}
    (hmethod : generateGrpcMethod lexer cases retriesAmount overrides
      withTelemetry rpc = .ok method) :
    MethodAgrees cases (seenRpc rpc) method := by
  rcases generateGrpcMethod_eq_ok hmethod with
      ⟨hname, hinput, houtput, hrequest, hresponse, _⟩
  have hin := dataType_eq (getFuncInDataType lexer) rfl (fun _ => rfl)
    (fun _ => rfl) hinput
  have hout := dataType_eq (getFuncOutDataType lexer) rfl (fun _ => rfl)
    (fun _ => rfl) houtput
  constructor
  · constructor
    · exact hrequest.trans (requestFn_eq _)
    · exact hresponse.trans (responseFn_eq _)
    · rw [hin, seenRpc, ProtoRpc.getInputParam, typeName_seen]
      rfl
    · rw [hout, seenRpc, ProtoRpc.getOutputParam, typeName_seen]
      rfl
  · exact hname

/-- The parameter of `execute`, where a missing one is the unit type. -/
def executeParam (lexer : TokenLexer) : Option ParamType → Except Panic String
  | none => .ok "()"
  | some param => getNameFnParamTypeToken lexer param

/-- The value that `execute` makes the request of. -/
def executeInvoke : Option ParamType → String
  | none => "()"
  | some param => getInputParamInvoke param

/-- The texts of an implementation that its header leaves out. -/
theorem texts_of_generated
    {implementation : Implementation}
    (himplementation : generateInterfaceImplementation lexer cases rpc =
      .ok implementation) :
    executeParam lexer rpc.getInputParam = .ok implementation.inputData ∧
      implementation.resultType =
        getOutputParamType (kindOf rpc.getOutputParam) ∧
      implementation.inputInvoke = executeInvoke rpc.getInputParam := by
  unfold generateInterfaceImplementation at himplementation
  cases hinput : rpc.getInputParam with
  | some input =>
      cases houtput : rpc.getOutputParam with
      | some output =>
          rw [hinput, houtput] at himplementation
          rcases bind_eq_ok.mp himplementation with
              ⟨inputData, hdata, himplementation⟩
          rcases bind_eq_ok.mp himplementation with
              ⟨resultType, hresult, himplementation⟩
          rcases bind_eq_ok.mp himplementation with ⟨_, _, himplementation⟩
          rcases bind_eq_ok.mp himplementation with ⟨_, _, himplementation⟩
          rcases bind_eq_ok.mp himplementation with ⟨_, _, himplementation⟩
          rcases bind_eq_ok.mp himplementation with
              ⟨inputInvoke, hinvoke, himplementation⟩
          cases himplementation
          exact ⟨hdata, tokenStream_eq_ok hresult, tokenStream_eq_ok hinvoke⟩
      | none =>
          rw [hinput, houtput] at himplementation
          rcases bind_eq_ok.mp himplementation with
              ⟨inputData, hdata, himplementation⟩
          rcases bind_eq_ok.mp himplementation with ⟨_, _, himplementation⟩
          rcases bind_eq_ok.mp himplementation with ⟨_, _, himplementation⟩
          rcases bind_eq_ok.mp himplementation with
              ⟨inputInvoke, hinvoke, himplementation⟩
          cases himplementation
          exact ⟨hdata, rfl, tokenStream_eq_ok hinvoke⟩
  | none =>
      cases houtput : rpc.getOutputParam with
      | some output =>
          rw [hinput, houtput] at himplementation
          rcases bind_eq_ok.mp himplementation with
              ⟨resultType, hresult, himplementation⟩
          rcases bind_eq_ok.mp himplementation with ⟨_, _, himplementation⟩
          rcases bind_eq_ok.mp himplementation with ⟨_, _, himplementation⟩
          cases himplementation
          exact ⟨rfl, tokenStream_eq_ok hresult, rfl⟩
      | none =>
          rw [hinput, houtput] at himplementation
          contradiction

theorem interfaceName_eq (input output : ParamType) :
    getInterfaceName input output =
      executorTrait (isStream input) (isStream output) := by
  cases input <;> cases output <;> rfl

theorem outputParamType_eq (param : ParamType) :
    getOutputParamType param =
      if isStream param then "tonic::Streaming<" ++ getName param ++ ">"
      else getName param := by
  cases param <;> rfl

theorem implementation_agrees
    {implementation : Implementation}
    (himplementation : generateInterfaceImplementation lexer cases rpc =
      .ok implementation) :
    ImplementationAgrees cases (seenRpc rpc) implementation := by
  rcases ExecutorImplementations.header_of_generated himplementation with
      ⟨hheader, hname⟩
  rcases texts_of_generated himplementation with ⟨hdata, hresult, hinvoke⟩
  have hdata := dataType_eq (executeParam lexer) rfl (fun _ => rfl)
    (fun _ => rfl) hdata
  have hinterface := congrArg ExecutorImplementations.Header.interfaceName
    hheader
  have hinputType := congrArg ExecutorImplementations.Header.inputType hheader
  have houtputType := congrArg ExecutorImplementations.Header.outputType
    hheader
  have hfits : ImplementationFits (seenRpc rpc) { implementation with
      inputInvoke := getInputParamInvoke (kindOf rpc.getInputParam) } := by
    constructor
    · exact hinterface.trans (interfaceName_eq _ _)
    · rw [seenRpc, ProtoRpc.getInputParam, typeName_seen]
      exact hinputType
    · rw [seenRpc, ProtoRpc.getOutputParam, typeName_seen]
      exact houtputType
    · rw [seenRpc, ProtoRpc.getInputParam, typeName_seen]
      exact hdata
    · rw [seenRpc, ProtoRpc.getOutputParam, typeName_seen]
      exact hresult.trans (outputParamType_eq _)
    · unfold seenRpc seen
      dsimp only
      cases kindOf rpc.getInputParam <;> rfl
  constructor
  · cases hinput : rpc.getInputParam with
    | none =>
        rw [hinput] at hdata hinvoke hfits
        exact Or.inr ⟨hinvoke, hdata, hfits⟩
    | some input =>
        rw [hinput] at hinvoke hfits
        apply Or.inl
        have hsame : { implementation with
            inputInvoke := getInputParamInvoke (kindOf (some input)) } =
              implementation := by
          cases implementation
          simp only [Implementation.mk.injEq, true_and, and_true]
          exact hinvoke.symm
        rwa [hsame] at hfits
  · exact hname

theorem generateFunction_eq_ok
    {withTelemetry : Bool} {function : ServerMacros.Function}
    (hfunction : generateFunction lexer cases withTelemetry rpc =
      .ok function) :
    function.fnName = intoSnakeCase cases rpc.name ∧
      ServerMacros.generateInputParam lexer rpc.getInputParam =
        .ok function.inputParam ∧
      ServerMacros.generateOutput lexer rpc =
        .ok (function.streamDescription, function.outType,
          function.resultConversion) := by
  unfold generateFunction at hfunction
  rcases bind_eq_ok.mp hfunction with ⟨fnName, hname, hfunction⟩
  rcases bind_eq_ok.mp hfunction with ⟨inputParam, hinput, hfunction⟩
  rcases bind_eq_ok.mp hfunction with
      ⟨⟨description, outType, conversion⟩, houtput, hfunction⟩
  cases hfunction
  exact ⟨tokenStream_eq_ok hname, hinput, houtput⟩

theorem inputParam_eq
    {param : Option ParamType} {inputParam : String}
    (hinput : ServerMacros.generateInputParam lexer param = .ok inputParam) :
    inputParam = if isStream (kindOf param) then
        "tonic::Request<tonic::Streaming<" ++ getName (kindOf param) ++ ">>"
      else "tonic::Request<" ++ getName (kindOf param) ++ ">" := by
  rcases param with _ | ⟨name | name⟩
  · cases hinput
    decide
  · rcases bind_eq_ok.mp hinput with ⟨text, htext, hinput⟩
    cases hinput
    rw [tokenStream_eq_ok htext]
    rfl
  · rcases bind_eq_ok.mp hinput with ⟨text, htext, hinput⟩
    cases hinput
    rw [tokenStream_eq_ok htext]
    rfl

theorem output_eq
    {description : Option ServerMacros.StreamDescription}
    {outType conversion : String}
    (houtput : ServerMacros.generateOutput lexer rpc =
      .ok (description, outType, conversion)) :
    description = (if isStream (kindOf rpc.getOutputParam) then
        some ⟨rpc.name ++ "Stream", getName (kindOf rpc.getOutputParam)⟩
      else none) ∧
    outType = (if isStream (kindOf rpc.getOutputParam) then
        "tonic::Response<Self::" ++ (rpc.name ++ "Stream") ++ ">"
      else "tonic::Response<" ++ getName (kindOf rpc.getOutputParam) ++
        ">") ∧
    conversion = if isStream (kindOf rpc.getOutputParam) then
        "result.get_result()" else "Ok(result.into())" := by
  unfold ServerMacros.generateOutput at houtput
  rcases hparam : rpc.getOutputParam with _ | ⟨name | name⟩
  · rw [hparam] at houtput
    have hunit : "tonic::Response<()>" =
        "tonic::Response<" ++ "()" ++ ">" := by
      decide
    cases houtput
    exact ⟨rfl, hunit, rfl⟩
  · rw [hparam] at houtput
    rcases bind_eq_ok.mp houtput with ⟨text, htext, houtput⟩
    cases houtput
    rw [tokenStream_eq_ok htext]
    exact ⟨rfl, rfl, rfl⟩
  · rw [hparam] at houtput
    rcases bind_eq_ok.mp houtput with ⟨text, htext, houtput⟩
    rcases bind_eq_ok.mp houtput with ⟨streamed, hstreamed, houtput⟩
    cases houtput
    rw [tokenStream_eq_ok htext, tokenStream_eq_ok hstreamed]
    exact ⟨rfl, rfl, rfl⟩

theorem function_agrees
    {withTelemetry : Bool} {function : ServerMacros.Function}
    (hfunction : generateFunction lexer cases withTelemetry rpc =
      .ok function) :
    FunctionAgrees cases (seenRpc rpc) function := by
  rcases generateFunction_eq_ok hfunction with ⟨hname, hinput, houtput⟩
  rcases output_eq houtput with ⟨hdescription, houtType, hconversion⟩
  constructor
  · constructor
    · rw [seenRpc, ProtoRpc.getInputParam, typeName_seen]
      exact inputParam_eq hinput
    · rw [seenRpc, ProtoRpc.getOutputParam, typeName_seen]
      exact houtType
    · rw [seenRpc, ProtoRpc.getOutputParam, typeName_seen]
      exact hdescription
  · exact hconversion
  · exact hname

/-- There is one list of declarations that everything generated fits: what
the client sends is what the server takes, and the other way. -/
theorem generated_ends_agree
    {protoFile : ProtoServiceDescription} {clientNs serverNs : String}
    {retries : ℕ} {overrides : Option (List OverrideParam)}
    {grpcStructName : Option String} {withTelemetry serverTelemetry : Bool}
    {client : Client} {server : ServerMacros.Server}
    (hclient : ClientMacros.generate lexer cases clientNs protoFile retries
      overrides withTelemetry = .ok client)
    (hserver : ServerMacros.generate lexer cases serverTelemetry serverNs
      grpcStructName protoFile = .ok server) :
    ∃ decls : List RpcDecl,
      decls.map RpcDecl.name = protoFile.rpc.map ProtoRpc.name ∧
      List.Forall₂ (MethodAgrees cases) decls client.methods ∧
      List.Forall₂ (ImplementationAgrees cases) decls client.interfaces ∧
      List.Forall₂ (FunctionAgrees cases) decls server.functions := by
  rcases generate_eq_ok hclient with ⟨_, _, hinterfaces, hmethods⟩
  rcases ServerMacros.generate_eq_ok hserver with ⟨hfunctions, _⟩
  refine ⟨protoFile.rpc.map seenRpc, by simp [seenRpc], ?_, ?_, ?_⟩
  · rw [List.forall₂_map_left_iff]
    exact hmethods.imp fun _ _ hmethod => method_agrees hmethod
  · rw [List.forall₂_map_left_iff]
    exact hinterfaces.imp fun _ _ hmade => implementation_agrees hmade
  · rw [List.forall₂_map_left_iff]
    exact (forall₂_of_mapM hfunctions).imp
      fun _ _ hfunction => function_agrees hfunction

def watchAndFill : ProtoServiceDescription where
  serviceName := "Flows"
  rpc := [⟨"Watch", "stream google.protobuf.Empty", "stream flows.Item"⟩,
    ⟨"Fill", "stream Item", ""⟩]

/-- The stream of `Watch` is lost at both ends. -/
theorem generated_ends_agree_watchAndFill :
    ∃ client server,
      ClientMacros.generate anyTokens asciiCase "crate::flows" watchAndFill 3
        none false = .ok client ∧
      ServerMacros.generate anyTokens asciiCase true "crate::flows" none
        watchAndFill = .ok server ∧
      ∃ decls : List RpcDecl,
        decls.map RpcDecl.name = ["Watch", "Fill"] ∧
        List.Forall₂ (MethodAgrees asciiCase) decls client.methods ∧
        List.Forall₂ (ImplementationAgrees asciiCase) decls
          client.interfaces ∧
        List.Forall₂ (FunctionAgrees asciiCase) decls server.functions := by
  have hmethods : ∃ methods, generateGrpcMethods anyTokens asciiCase 3 ∅
      watchAndFill false = .ok methods := by
    unfold generateGrpcMethods watchAndFill generateGrpcMethod
    simp only [List.mapM_cons, List.mapM_nil, retriesOf_empty]
    exact ⟨_, rfl⟩
  rcases hmethods with ⟨methods, hmethods⟩
  have hclient := generate_without_overrides "crate::flows" rfl hmethods
  have hserver : ServerMacros.generate anyTokens asciiCase true "crate::flows"
      none watchAndFill = .ok _ := rfl
  exact ⟨_, _, hclient, hserver, generated_ends_agree hclient hserver⟩

end Agreement

end GeneratedEnds
end GrpcExtensions
