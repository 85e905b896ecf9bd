import GrpcExtensions.DeclaredStreams
import Mathlib.Data.List.Nodup

/-!
# The executor implementations of a client

Each rpc makes the client implement an executor trait, whose only arguments
are the names of the two types.  Two rpcs of one signature implement the same
trait twice, and the client does not compile.  Otherwise the call in a method
is resolved to the implementation of its own rpc.
-/

namespace GrpcExtensions
namespace ExecutorImplementations

open ClientMacros
open ProtoFileReader

section Resolution

/-- The executor trait with the types `TRequest` and `TResponse` for which
the client implements it. -/
structure Header where
  interfaceName : ExecutorTrait
  inputType : String
  outputType : String
  deriving DecidableEq

def header (implementation : Implementation) : Header where
  interfaceName := implementation.interfaceName
  inputType := implementation.inputType
  outputType := implementation.outputType

/-- The trait that the response function of a builder asks for, with retries
and without. -/
def executorBound : RequestFn → ResponseFn → ExecutorTrait
  | .startRequest, .getResponse => .requestResponse
  | .startRequest, .getStreamedResponse => .requestWithResponseAsStream
  | .startRequestWithInputPramsAsStream, .getResponse =>
      .requestWithInputAsStream
  | .startRequestWithInputPramsAsStream, .getStreamedResponse =>
      .requestWithInputAsStreamWithResponseAsStream

/-- The type of the argument from which a request function has its
`TRequest`. -/
def argumentType : RequestFn → String → String
  | .startRequest, request => request
  | .startRequestWithInputPramsAsStream, request =>
      "impl Into<my_grpc_extensions::StreamedRequest<" ++ request ++ ">>"

/-- The type that a response function returns for its `TResponse`. -/
def returnType : ResponseFn → String → String
  | .getResponse, response => response
  | .getStreamedResponse, response =>
      "my_grpc_extensions::StreamedResponse<" ++ response ++ ">"

/-- The call in this method asks for an implementation with this header. -/
structure Calls (method : Method) (h : Header) : Prop where
  interfaceName :
    h.interfaceName = executorBound method.requestFn method.responseFn
  inputDataType :
    method.inputDataType = argumentType method.requestFn h.inputType
  outputDataType :
    method.outputDataType = returnType method.responseFn h.outputType

/-- This is the only implementation that the call in the method may mean. -/
structure Resolves (client : Client) (method : Method)
    (implementation : Implementation) : Prop where
  mem : implementation ∈ client.interfaces
  calls : Calls method (header implementation)
  unique : ∀ other ∈ client.interfaces, Calls method (header other) →
    other = implementation

/-- No trait is implemented twice, and each method calls the service method
of its own rpc. -/
structure NeverConflict (cases : CharCase) (rpcs : List ProtoRpc)
    (client : Client) : Prop where
  distinct : (client.interfaces.map header).Nodup
  resolves : List.Forall₂
    (fun rpc method => ∃ implementation,
      Resolves client method implementation ∧
        implementation.fnName = intoSnakeCase cases rpc.name)
    rpcs client.methods

theorem wrapped_inj
    {opening closing text other : String}
    (heq : opening ++ text ++ closing = opening ++ other ++ closing) :
    text = other := by
  rw [String.append_left_inj, String.append_right_inj] at heq
  exact heq

theorem argumentType_inj
    (requestFn : RequestFn) {request other : String}
    (heq : argumentType requestFn request = argumentType requestFn other) :
    request = other := by
  unfold argumentType at heq
  cases requestFn with
  | startRequest => exact heq
  | startRequestWithInputPramsAsStream => exact wrapped_inj heq

theorem returnType_inj
    (responseFn : ResponseFn) {response other : String}
    (heq : returnType responseFn response = returnType responseFn other) :
    response = other := by
  unfold returnType at heq
  cases responseFn with
  | getResponse => exact heq
  | getStreamedResponse => exact wrapped_inj heq

end Resolution

section Signatures

/-- A parameter that is missing is used like one without data. -/
def kindOf (param : Option ParamType) : ParamType :=
  param.getD (.single "()")

/-- The inputs of the two rpcs are alike, and so are their outputs. -/
def SameSignature (rpc other : ProtoRpc) : Prop :=
  kindOf rpc.getInputParam = kindOf other.getInputParam ∧
    kindOf rpc.getOutputParam = kindOf other.getOutputParam

instance (rpc other : ProtoRpc) : Decidable (SameSignature rpc other) :=
  inferInstanceAs (Decidable (_ ∧ _))

/-- The header that two parameters make. -/
def headerOf (input output : ParamType) : Header where
  interfaceName := getInterfaceName input output
  inputType := getName input
  outputType := getName output

def rpcHeader (rpc : ProtoRpc) : Header :=
  headerOf (kindOf rpc.getInputParam) (kindOf rpc.getOutputParam)

theorem headerOf_inj
    {input output otherInput otherOutput : ParamType}
    (heq : headerOf input output = headerOf otherInput otherOutput) :
    input = otherInput ∧ output = otherOutput := by
  cases input <;> cases output <;> cases otherInput <;> cases otherOutput <;>
    simp_all [headerOf, getInterfaceName, isStream, getName]

theorem rpcHeader_eq_iff (rpc other : ProtoRpc) :
    rpcHeader rpc = rpcHeader other ↔ SameSignature rpc other := by
  constructor
  · exact headerOf_inj
  · intro ⟨hinput, houtput⟩
    rw [rpcHeader, rpcHeader, hinput, houtput]

end Signatures

section Generation

variable {lexer : TokenLexer} {cases : CharCase} {rpc : ProtoRpc}

theorem header_of_generated
    {implementation : Implementation}
    (himplementation : generateInterfaceImplementation lexer cases rpc =
      .ok implementation) :
    header implementation = rpcHeader rpc ∧
      implementation.fnName = intoSnakeCase cases rpc.name := by
  unfold generateInterfaceImplementation at himplementation
  unfold rpcHeader
  cases hinput : rpc.getInputParam with
  | some input =>
      cases houtput : rpc.getOutputParam with
      | some output =>
          rw [hinput, houtput] at himplementation
          rcases bind_eq_ok.mp himplementation with ⟨_, _, himplementation⟩
          rcases bind_eq_ok.mp himplementation with ⟨_, _, himplementation⟩
          rcases bind_eq_ok.mp himplementation with
              ⟨inputType, hinputType, himplementation⟩
          rcases bind_eq_ok.mp himplementation with
              ⟨outputType, houtputType, himplementation⟩
          rcases bind_eq_ok.mp himplementation with
              ⟨fnName, hname, himplementation⟩
          rcases bind_eq_ok.mp himplementation with ⟨_, _, himplementation⟩
          cases himplementation
          rw [tokenStream_eq_ok hinputType, tokenStream_eq_ok houtputType,
            tokenStream_eq_ok hname]
          exact ⟨rfl, rfl⟩
      | none =>
          rw [hinput, houtput] at himplementation
          rcases bind_eq_ok.mp himplementation with ⟨_, _, himplementation⟩
          rcases bind_eq_ok.mp himplementation with
              ⟨inputType, hinputType, himplementation⟩
          rcases bind_eq_ok.mp himplementation with
              ⟨fnName, hname, himplementation⟩
          rcases bind_eq_ok.mp himplementation with ⟨_, _, himplementation⟩
          cases himplementation
          rw [tokenStream_eq_ok hinputType, tokenStream_eq_ok hname]
          cases input <;> exact ⟨rfl, rfl⟩
  | none =>
      cases houtput : rpc.getOutputParam with
      | some output =>
          rw [hinput, houtput] at himplementation
          rcases bind_eq_ok.mp himplementation with ⟨_, _, himplementation⟩
          rcases bind_eq_ok.mp himplementation with
              ⟨outputType, houtputType, himplementation⟩
          rcases bind_eq_ok.mp himplementation with
              ⟨fnName, hname, himplementation⟩
          cases himplementation
          rw [tokenStream_eq_ok houtputType, tokenStream_eq_ok hname]
          cases output <;> exact ⟨rfl, rfl⟩
      | none =>
          rw [hinput, houtput] at himplementation
          contradiction

theorem executorBound_eq (input output : Option ParamType) :
    executorBound (getRequestFnName input) (getResponseFnName output) =
      getInterfaceName (kindOf input) (kindOf output) := by
  rcases input with _ | ⟨_ | _⟩ <;> rcases output with _ | ⟨_ | _⟩ <;> rfl

/-- A selector that wraps the type of a stream, and takes a parameter that is
missing for one without data. -/
theorem dataType_eq
    (select : Option ParamType → Except Panic String)
    {opening closing : String} (hnone : select none = .ok "()")
    (hsingle : ∀ name, select (some (.single name)) = tokenStream lexer name)
    (hstream : ∀ name, select (some (.stream name)) = do
      let name ← tokenStream lexer name
      return opening ++ name ++ closing)
    {param : Option ParamType} {dataType : String}
    (hdata : select param = .ok dataType) :
    dataType = if isStream (kindOf param) then
        opening ++ getName (kindOf param) ++ closing
      else getName (kindOf param) := by
  rcases param with _ | ⟨name | name⟩
  · rw [hnone] at hdata
    exact (Except.ok.inj hdata).symm
  · rw [hsingle] at hdata
    exact tokenStream_eq_ok hdata
  · rw [hstream] at hdata
    rcases bind_eq_ok.mp hdata with ⟨text, htext, hresult⟩
    cases hresult
    rw [tokenStream_eq_ok htext]
    rfl

theorem inputDataType_eq
    {input : Option ParamType} {dataType : String}
    (hdata : getFuncInDataType lexer input = .ok dataType) :
    dataType = argumentType (getRequestFnName input)
      (getName (kindOf input)) := by
  rw [dataType_eq (getFuncInDataType lexer) rfl (fun _ => rfl) (fun _ => rfl)
    hdata]
  rcases input with _ | ⟨_ | _⟩ <;> rfl

theorem outputDataType_eq
    {output : Option ParamType} {dataType : String}
    (hdata : getFuncOutDataType lexer output = .ok dataType) :
    dataType = returnType (getResponseFnName output)
      (getName (kindOf output)) := by
  rw [dataType_eq (getFuncOutDataType lexer) rfl (fun _ => rfl) (fun _ => rfl)
    hdata]
  rcases output with _ | ⟨_ | _⟩ <;> rfl

theorem calls_iff
    {retriesAmount : ℕ} {overrides : Std.HashMap String FnOverride}
    {withTelemetry : Bool} {method : Method}
    (hmethod : generateGrpcMethod lexer cases retriesAmount overrides
      withTelemetry rpc = .ok method) (h : Header) :
    Calls method h ↔ h = rpcHeader rpc := by
  rcases generateGrpcMethod_eq_ok hmethod with
      ⟨_, hinput, houtput, hrequest, hresponse, _⟩
  have hin := inputDataType_eq hinput
  have hout := outputDataType_eq houtput
  rw [← hrequest] at hin
  rw [← hresponse] at hout
  have hbound := executorBound_eq rpc.getInputParam rpc.getOutputParam
  rw [← hrequest, ← hresponse] at hbound
  constructor
  · intro hcalls
    rcases h with ⟨interfaceName, inputType, outputType⟩
    have hinputType := argumentType_inj _ (hcalls.inputDataType.symm.trans hin)
    have houtputType := returnType_inj _ (hcalls.outputDataType.symm.trans hout)
    have hinterface := hcalls.interfaceName.trans hbound
    dsimp only at hinputType houtputType hinterface
    rw [hinputType, houtputType, hinterface]
    rfl
  · intro heq
    rw [heq]
    exact ⟨hbound.symm, hin, hout⟩

end Generation

section Conflicts

variable {lexer : TokenLexer} {cases : CharCase} {rpcs : List ProtoRpc}

theorem distinct_iff (rpcs : List ProtoRpc) :
    (rpcs.map rpcHeader).Nodup ↔
      rpcs.Pairwise fun rpc other => ¬ SameSignature rpc other := by
  rw [List.Nodup, List.pairwise_map]
  simp only [ne_eq, rpcHeader_eq_iff]

/-- Implementations with different headers are found by their headers. -/
theorem resolves_of_distinct
    {client : Client} (hdistinct : (client.interfaces.map header).Nodup)
    {rpc : ProtoRpc} {method : Method}
    (hcalls : ∀ h, Calls method h ↔ h = rpcHeader rpc)
    {implementation : Implementation}
    (hmem : implementation ∈ client.interfaces)
    (hheader : header implementation = rpcHeader rpc) :
    Resolves client method implementation where
  mem := hmem
  calls := (hcalls _).mpr hheader
  unique := by
    intro other hother hcalled
    have hsame := ((hcalls _).mp hcalled).trans hheader.symm
    exact List.inj_on_of_nodup_map hdistinct hother hmem hsame

variable {crateNs : String} {protoFile : ProtoServiceDescription}
  {retries : ℕ} {overrides : Option (List OverrideParam)}
  {withTelemetry : Bool} {client : Client}

theorem headers_of_generated
    (hgenerate : generate lexer cases crateNs protoFile retries overrides
      withTelemetry = .ok client) :
    client.interfaces.map header = protoFile.rpc.map rpcHeader := by
  rcases generate_eq_ok hgenerate with ⟨_, _, hinterfaces, _⟩
  exact map_eq_of_forall₂ (hinterfaces.imp fun _ _ himplementation =>
    (header_of_generated himplementation).1)

/-- If no trait is implemented twice, the methods find what they call. -/
theorem neverConflict_iff_distinct
    (hgenerate : generate lexer cases crateNs protoFile retries overrides
      withTelemetry = .ok client) :
    NeverConflict cases protoFile.rpc client ↔
      (client.interfaces.map header).Nodup := by
  constructor
  · exact NeverConflict.distinct
  · intro hdistinct
    rcases generate_eq_ok hgenerate with ⟨result, _, hinterfaces, hmethods⟩
    have hown := exists_of_forall₂ hinterfaces
    refine ⟨hdistinct, ?_⟩
    apply ((List.forall₂_and_left _ _).mpr ⟨hown, hmethods⟩).imp
    intro rpc method hboth
    rcases hboth with ⟨⟨implementation, hmem, hmade⟩, hmethod⟩
    rcases header_of_generated hmade with ⟨hheader, hname⟩
    exact ⟨implementation, resolves_of_distinct hdistinct
      (calls_iff hmethod) hmem hheader, hname⟩

/-- A generated client compiles, and its methods call the service methods of
their own rpcs, if and only if no two rpcs have the same signature. -/
theorem neverConflict_iff
    (hgenerate : generate lexer cases crateNs protoFile retries overrides
      withTelemetry = .ok client) :
    NeverConflict cases protoFile.rpc client ↔
      protoFile.rpc.Pairwise fun rpc other => ¬ SameSignature rpc other := by
  rw [neverConflict_iff_distinct hgenerate, headers_of_generated hgenerate,
    distinct_iff]

def createAndList : ProtoServiceDescription where
  serviceName := "Items"
  rpc := [⟨"Create", "Item", "Reply"⟩, ⟨"List", "Item", "stream Reply"⟩]

def createAndUpdate : ProtoServiceDescription where
  serviceName := "Items"
  rpc := [⟨"Create", "Item", "Reply"⟩, ⟨"Update", "Item", "Reply"⟩]

theorem neverConflict_iff_createAndList :
    ∃ client, generate anyTokens asciiCase "crate::items" createAndList 3 none
        false = .ok client ∧
      (NeverConflict asciiCase createAndList.rpc client ↔
        createAndList.rpc.Pairwise fun rpc other =>
          ¬ SameSignature rpc other) := by
  have hmethods : ∃ methods, generateGrpcMethods anyTokens asciiCase 3 ∅
      createAndList false = .ok methods := by
    unfold generateGrpcMethods createAndList generateGrpcMethod
    simp only [List.mapM_cons, List.mapM_nil, retriesOf_empty]
    exact ⟨_, rfl⟩
  rcases hmethods with ⟨methods, hmethods⟩
  have hgenerate := generate_without_overrides "crate::items" rfl hmethods
  exact ⟨_, hgenerate, neverConflict_iff hgenerate⟩

/-- Two rpcs from an item to a reply implement the same trait. -/
theorem two_rpcs_of_one_signature_conflict :
    readProtoFile "items.proto" (.ok (asBytes
        "service Items\x7b
  rpc Create(Item) returns (Reply);
  rpc Update(Item) returns (Reply);\x7d".toList)) = .ok createAndUpdate ∧
      (createAndUpdate.rpc.map ProtoRpc.name).Nodup ∧
      ∃ client, generate anyTokens asciiCase "crate::items" createAndUpdate 3
          none false = .ok client ∧
        client.interfaces.map header =
          [⟨.requestResponse, "Item", "Reply"⟩,
            ⟨.requestResponse, "Item", "Reply"⟩] ∧
        ¬ NeverConflict asciiCase createAndUpdate.rpc client := by
  have htext : RendersFile (serviceTokens "Items"
      [⟨"Create", ⟨false, "Item"⟩, ⟨false, "Reply"⟩⟩,
        ⟨"Update", ⟨false, "Item"⟩, ⟨false, "Reply"⟩⟩])
      "service Items\x7b
  rpc Create(Item) returns (Reply);
  rpc Update(Item) returns (Reply);\x7d".toList :=
    rendersFile_iff.mpr (by decide +kernel)
  have hmethods : ∃ methods, generateGrpcMethods anyTokens asciiCase 3 ∅
      createAndUpdate false = .ok methods := by
    unfold generateGrpcMethods createAndUpdate generateGrpcMethod
    simp only [List.mapM_cons, List.mapM_nil, retriesOf_empty]
    exact ⟨_, rfl⟩
  rcases hmethods with ⟨methods, hmethods⟩
  have hgenerate := generate_without_overrides "crate::items" rfl hmethods
  have hheaders := headers_of_generated hgenerate
  refine ⟨readProtoFile_of_tokens htext rfl "items.proto", by decide, _,
    hgenerate, hheaders, ?_⟩
  intro hnever
  have hdistinct := hnever.distinct
  rw [hheaders] at hdistinct
  exact absurd hdistinct (by decide)

end Conflicts

section Declarations

open DeclaredStreams (IsTypeName Named named_of_legal outputText
  readProtoFile_of_declarations rpcsOf stored)

/-- Types of which the reader and the parser leave nothing in an input. -/
def lostInputs : List String := ["google.protobuf.Empty", "stream"]

def lostOutputs : List String := lostInputs ++ ["returns"]

/-- Both parameters are lost, or both are kept with the same kind and the
same name behind the packages. -/
def Alike (lost : List String) (param other : ParamDecl) : Prop :=
  (param.type ∈ lost ∧ other.type ∈ lost) ∨
    (param.type ∉ lost ∧ other.type ∉ lost ∧ param.stream = other.stream ∧
      lastSegment param.type = lastSegment other.type)

def keptKind (lost : List String) (param : ParamDecl) : ParamType :=
  if param.type ∈ lost then .single "()"
  else if param.stream then .stream (lastSegment param.type)
  else .single (lastSegment param.type)

variable {param other : ParamDecl}

theorem lastSegment_ne_unit (hname : IsTypeName param.type) :
    lastSegment param.type ≠ "()" := by
  intro hunit
  exact absurd (hunit ▸ hname.last) (by decide)

theorem keptKind_eq_iff
    (lost : List String) (hname : IsTypeName param.type)
    (hother : IsTypeName other.type) :
    keptKind lost param = keptKind lost other ↔ Alike lost param other := by
  have hunit := lastSegment_ne_unit hname
  have hunitOther := (lastSegment_ne_unit hother).symm
  unfold keptKind Alike
  by_cases hlost : param.type ∈ lost <;>
    by_cases hlostOther : other.type ∈ lost <;>
    cases param.stream <;> cases other.stream <;>
    simp [hlost, hlostOther, hunit, hunitOther]

theorem kindOf_text (hname : IsTypeName param.type) :
    kindOf (ParamType.parse param.text) = keptKind lostInputs param := by
  by_cases hstream : param.type = "stream"
  · unfold ParamDecl.text keptKind
    rw [hstream, if_pos (by decide : "stream" ∈ lostInputs)]
    cases param.stream <;> decide
  · unfold ParamType.parse keptKind
    rw [splitAsciiWhitespace_text hname.whole, takeName_words hstream]
    by_cases hempty : param.type = "google.protobuf.Empty" <;>
      cases param.stream <;>
      simp [lostInputs, hempty, hstream, kindOf]

theorem kindOf_outputText (hname : IsTypeName param.type) :
    kindOf (ParamType.parse (outputText param)) =
      keptKind lostOutputs param := by
  by_cases hreturns : param.type = "returns"
  · unfold outputText keptKind
    rw [hreturns, if_pos rfl, if_pos (by decide : "returns" ∈ lostOutputs)]
    cases param.stream <;> decide
  · have hlost : param.type ∈ lostOutputs ↔ param.type ∈ lostInputs := by
      simp [lostOutputs, hreturns]
    rw [outputText, if_neg hreturns, kindOf_text hname]
    simp only [keptKind, hlost]

theorem sameSignature_stored_iff
    {d e : RpcDecl} (hd : Named d) (he : Named e) :
    SameSignature (stored d) (stored e) ↔
      Alike lostInputs d.input e.input ∧
        Alike lostOutputs d.output e.output := by
  rw [← keptKind_eq_iff lostInputs hd.input he.input,
    ← keptKind_eq_iff lostOutputs hd.output he.output,
    ← kindOf_text hd.input, ← kindOf_text he.input,
    ← kindOf_outputText hd.output, ← kindOf_outputText he.output]
  rfl

/-- In a file of declarations a client has no conflict if and only if no two
rpcs declare inputs that are alike and outputs that are alike. -/
theorem declared_neverConflict_iff
    (lexer : TokenLexer) (cases : CharCase)
    {file : List DeclaredStreams.Declaration} (hlegal : ∀ e ∈ file, e.Legal)
    {serviceName : String} (hservice : .service serviceName ∈ file)
    {text : List Char}
    (htext : RendersFile (file.flatMap DeclaredStreams.Declaration.tokens) text)
    (fileName : String) :
    ∃ description,
      readProtoFile fileName (.ok (asBytes text)) = .ok description ∧
      ∀ crateNs retries overrides withTelemetry client,
        generate lexer cases crateNs description retries overrides
          withTelemetry = .ok client →
        (NeverConflict cases description.rpc client ↔
          (rpcsOf file).Pairwise fun d e =>
            ¬ (Alike lostInputs d.input e.input ∧
              Alike lostOutputs d.output e.output)) := by
  rcases readProtoFile_of_declarations hlegal hservice htext
    fileName with ⟨name, _, hread⟩
  refine ⟨_, hread, ?_⟩
  intro crateNs retries overrides withTelemetry client hgenerate
  rw [neverConflict_iff_distinct hgenerate, headers_of_generated hgenerate,
    distinct_iff, List.pairwise_map]
  apply List.Pairwise.iff_of_mem
  intro d e hd he
  have hnamed := named_of_legal hlegal
  rw [sameSignature_stored_iff (hnamed d (List.mem_of_mem_filter hd))
    (hnamed e (List.mem_of_mem_filter he))]

end Declarations

end ExecutorImplementations
end GrpcExtensions
