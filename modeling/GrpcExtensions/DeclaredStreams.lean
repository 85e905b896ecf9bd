import GrpcExtensions.ProtoFileRoundTrip
import GrpcExtensions.ServerMacros
import GrpcExtensions.SnakeCase

/-!
# The streaming kind of a declared rpc

From the text of a file to everything that the macros generate for one of its
rpcs.  All of it is derived from the two parsed parameters, and these forget a
stream of `google.protobuf.Empty` and the types whose names the parser takes
for words of its own.
-/

namespace GrpcExtensions
namespace DeclaredStreams

open ClientMacros
open ProtoFileReader
open ServerMacros (StreamDescription generateFunction)
open SnakeCase (ascii_of_isAlphanum isAlpha_toLower isAlphanum_bounds)

section Names

/-- The name of a message type, with its packages. -/
structure IsTypeName (name : String) : Prop where
  chars : ∀ c ∈ name.toList, c.isAlphanum = true ∨ c = '_' ∨ c = '.'
  last : IsWord (lastSegment name)

instance (name : String) : Decidable (IsTypeName name) :=
  decidable_of_iff
    ((name.toList.all fun c => c.isAlphanum || c == '_' || c == '.') = true ∧
      IsWord (lastSegment name))
    (by
      simp only [List.all_eq_true, Bool.or_eq_true, beq_iff_eq, or_assoc]
      exact ⟨fun h => ⟨h.1, h.2⟩, fun h => ⟨h.chars, h.last⟩⟩)

theorem IsTypeName.whole {name : String} (hname : IsTypeName name) :
    Whole name := by
  constructor
  · intro hempty
    have hlast := hname.last
    rw [hempty] at hlast
    exact absurd hlast (by decide)
  · intro c hc
    rcases hname.chars c hc with halphanum | rfl | rfl
    · have hbounds := isAlphanum_bounds halphanum
      omega
    · decide
    · decide

theorem IsTypeName.ne_delimiter
    {name token : String} (hname : IsTypeName name)
    {c : Char} (hc : c ∈ delimiters) (htoken : token.toList = [c]) :
    name ≠ token := by
  intro heq
  have hmem : c ∈ name.toList := by
    rw [heq, htoken]
    exact List.mem_singleton_self c
  have hall : (delimiters.all fun d =>
      !(d.isAlphanum || d == '_' || d == '.')) = true := by
    decide
  have hnot := List.all_eq_true.mp hall c hc
  simp only [Bool.not_eq_true', Bool.or_eq_false_iff, beq_eq_false_iff_ne]
    at hnot
  rcases hname.chars c hmem with halphanum | hunderscore | hdot
  · exact Bool.false_ne_true (hnot.1.1.symm.trans halphanum)
  · exact hnot.1.2 hunderscore
  · exact hnot.2 hdot

end Names

section Words

def WordChar (c : Char) : Prop :=
  c.isAlphanum = true ∨ c = '_'

theorem isWord_ofList_iff (first : Char) (rest : List Char) :
    IsWord (String.ofList (first :: rest)) ↔
      (first.isAlpha = true ∨ first = '_') ∧ ∀ c ∈ rest, WordChar c := by
  simp [IsWord, WordChar]

theorem exists_of_isWord {word : String} (hword : IsWord word) :
    ∃ first rest, word = String.ofList (first :: rest) ∧
      (first.isAlpha = true ∨ first = '_') ∧ ∀ c ∈ rest, WordChar c := by
  cases htext : word.toList with
  | nil => simp [IsWord, htext] at hword
  | cons first rest =>
      refine ⟨first, rest, ?_, ?_⟩
      · rw [← htext, String.ofList_toList]
      · simpa [IsWord, htext, WordChar] using hword

theorem WordChar.ascii {c : Char} (hc : WordChar c) : c.toNat < 128 := by
  rcases hc with halphanum | rfl
  · exact ascii_of_isAlphanum halphanum
  · decide

theorem wordChar_of_isAlpha {c : Char} (hc : c.isAlpha = true) :
    WordChar c :=
  Or.inl (by simp [Char.isAlphanum, hc])

theorem wordChar_snakeCaseFrom
    (cases : CharCase) (index : ℕ) {text : List Char}
    (htext : ∀ c ∈ text, WordChar c) :
    ∀ c ∈ snakeCaseFrom cases index text, WordChar c := by
  induction text generalizing index with
  | nil => simp [snakeCaseFrom]
  | cons ch rest ih =>
      rw [List.forall_mem_cons] at htext
      rcases htext with ⟨hch, hrest⟩
      have htail := ih (index + 1) hrest
      unfold snakeCaseFrom
      split
      · next hupper =>
          rw [cases.isUppercase_ascii ch hch.ascii] at hupper
          have hlower : WordChar (cases.toLowercase ch) := by
            rw [cases.toLowercase_ascii ch hch.ascii]
            exact wordChar_of_isAlpha (isAlpha_toLower hch.ascii hupper)
          rw [List.forall_mem_append, List.forall_mem_cons]
          refine ⟨?_, hlower, htail⟩
          split <;> simp [WordChar]
      · exact List.forall_mem_cons.mpr ⟨hch, htail⟩

/-- The name of a method is an identifier again. -/
theorem isWord_intoSnakeCase
    (cases : CharCase) {name : String} (hname : IsWord name) :
    IsWord (intoSnakeCase cases name) := by
  rcases exists_of_isWord hname with ⟨first, rest, htext, hfirst, hrest⟩
  have hword : WordChar first := by
    rcases hfirst with halpha | rfl
    · exact wordChar_of_isAlpha halpha
    · exact Or.inr rfl
  have htail := wordChar_snakeCaseFrom cases 1 hrest
  rw [htext, intoSnakeCase, String.toList_ofList, snakeCaseFrom]
  split
  · next hupper =>
      rw [cases.isUppercase_ascii first hword.ascii] at hupper
      simp only [ne_eq, not_true_eq_false, if_false, List.nil_append]
      rw [isWord_ofList_iff, cases.toLowercase_ascii first hword.ascii]
      exact ⟨Or.inl (isAlpha_toLower hword.ascii hupper), htail⟩
  · exact (isWord_ofList_iff _ _).mpr ⟨hfirst, htail⟩

/-- A tail of letters, digits and underscores leaves an identifier one. -/
theorem isWord_append
    {name : String} (hname : IsWord name) {tail : String}
    (htail : (tail.toList.all fun c => c.isAlphanum || c == '_') = true) :
    IsWord (name ++ tail) := by
  rcases exists_of_isWord hname with ⟨first, rest, rfl, hfirst, hrest⟩
  have htext : String.ofList (first :: rest) ++ tail =
      String.ofList (first :: (rest ++ tail.toList)) := by
    apply String.toList_inj.mp
    simp
  have hword : ∀ c ∈ tail.toList, WordChar c := by
    simpa [WordChar] using htail
  rw [htext, isWord_ofList_iff]
  exact ⟨hfirst, List.forall_mem_append.mpr ⟨hrest, hword⟩⟩

theorem isWord_append_stream {name : String} (hname : IsWord name) :
    IsWord (name ++ "Stream") :=
  isWord_append hname (by decide)

theorem tokenStream_of_isWord
    (lexer : TokenLexer) {word : String} (hword : IsWord word) :
    tokenStream lexer word = .ok word :=
  if_pos (lexer.path word (.word hword))

end Words

section Parameters

/-- The type as the macros write it. -/
def typeName (param : ParamDecl) : String :=
  if param.type = "google.protobuf.Empty" then "()"
  else lastSegment param.type

/-- The parameter with its declared kind. -/
def declaredType (param : ParamDecl) : ParamType :=
  if param.stream then .stream (typeName param)
  else .single (typeName param)

/-- The parser keeps the kind and the type. -/
def Kept (param : ParamDecl) : Prop :=
  ¬ (param.stream = true ∧ param.type = "google.protobuf.Empty") ∧
    param.type ≠ "stream"

/-- What the reader keeps of an output: it passes over the word `returns`. -/
def outputText (param : ParamDecl) : String :=
  if param.type = "returns" then (if param.stream then "stream" else "")
  else param.text

theorem parse_text_iff
    {param : ParamDecl} (hname : IsTypeName param.type) :
    ParamType.parse param.text = some (declaredType param) ↔ Kept param := by
  by_cases hstream : param.type = "stream"
  · have hnone : ParamType.parse param.text = none := by
      unfold ParamDecl.text
      rw [hstream]
      cases param.stream <;> decide
    simp [hnone, Kept, hstream]
  · unfold ParamType.parse declaredType typeName Kept
    rw [splitAsciiWhitespace_text hname.whole, takeName_words hstream]
    by_cases hempty : param.type = "google.protobuf.Empty" <;>
      cases param.stream <;> simp [hempty, hstream]

theorem parse_outputText_iff
    {param : ParamDecl} (hname : IsTypeName param.type) :
    ParamType.parse (outputText param) = some (declaredType param) ↔
      Kept param ∧ param.type ≠ "returns" := by
  by_cases hreturns : param.type = "returns"
  · have hnone : ParamType.parse (outputText param) = none := by
      unfold outputText
      rw [if_pos hreturns]
      cases param.stream <;> decide
    simp [hnone, hreturns]
  · rw [outputText, if_neg hreturns, parse_text_iff hname]
    simp [hreturns]

end Parameters

section Reading

structure Named (d : RpcDecl) : Prop where
  name : IsWord d.name
  input : IsTypeName d.input.type
  output : IsTypeName d.output.type

instance (d : RpcDecl) : Decidable (Named d) :=
  decidable_of_iff
    (IsWord d.name ∧ IsTypeName d.input.type ∧ IsTypeName d.output.type)
    ⟨fun h => ⟨h.1, h.2.1, h.2.2⟩, fun h => ⟨h.name, h.input, h.output⟩⟩

/-- A file is made of rpcs, of names of services, and of tokens that are
neither `service` nor `rpc`. -/
inductive Declaration where
  | rpc (d : RpcDecl)
  | service (name : String)
  | other (token : String)
  deriving DecidableEq

namespace Declaration

def tokens : Declaration → List String
  | .rpc d => d.tokens
  | .service name => ["service", name]
  | .other token => [token]

def Legal : Declaration → Prop
  | .rpc d => Named d
  | .service _ => True
  | .other token => Quiet token

instance : DecidablePred Legal
  | .rpc d => inferInstanceAs (Decidable (Named d))
  | .service _ => inferInstanceAs (Decidable True)
  | .other token => inferInstanceAs (Decidable (Quiet token))

def rpc? : Declaration → Option RpcDecl
  | .rpc d => some d
  | .service _ => none
  | .other _ => none

def service? : Declaration → Option String
  | .rpc _ => none
  | .service name => some name
  | .other _ => none

end Declaration

def allRpcs (file : List Declaration) : List RpcDecl :=
  file.filterMap Declaration.rpc?

/-- The names behind the word `service`; the reader keeps the last one. -/
def services (file : List Declaration) : List String :=
  file.filterMap Declaration.service?

/-- The rpcs that the reader keeps. -/
def rpcsOf (file : List Declaration) : List RpcDecl :=
  (allRpcs file).filter fun d => d.name ≠ "Ping"

def stored (d : RpcDecl) : ProtoRpc :=
  ⟨d.name, d.input.text, outputText d.output⟩

variable {r : Reader}

theorem readTokens_output
    (htoken : r.currentToken = .rpcExpectingOutputParameter)
    (hempty : r.outParamName = "")
    {param : ParamDecl} (hname : IsTypeName param.type) :
    r.readTokens param.words =
      .ok { r with outParamName := outputText param } := by
  by_cases hreturns : param.type = "returns"
  · unfold ParamDecl.words outputText
    rw [if_pos hreturns, hreturns]
    cases param.stream with
    | false =>
        have hskip : r.readToken "returns" = .ok r :=
          (Reader.Reads.outputSkipped htoken (Or.inl rfl)).readToken_eq
        rw [if_neg Bool.false_ne_true, Reader.readTokens_cons_of_ok hskip,
          if_neg Bool.false_ne_true, ← hempty]
        rfl
    | true =>
        have hstream := readToken_output htoken
          (by decide : "stream" ≠ "returns") (by decide) (by decide)
          (by decide)
        rw [hempty, pushParam_empty] at hstream
        let streamed : Reader := { r with outParamName := "stream" }
        have hstill :
            streamed.currentToken = .rpcExpectingOutputParameter := htoken
        have hskip : streamed.readToken "returns" = .ok streamed :=
          (Reader.Reads.outputSkipped hstill (Or.inl rfl)).readToken_eq
        rw [if_pos rfl, Reader.readTokens_cons_of_ok hstream,
          Reader.readTokens_cons_of_ok hskip]
        rfl
  · rw [outputText, if_neg hreturns]
    exact readTokens_outputWords htoken hempty hreturns
      (hname.ne_delimiter (c := '(') (by decide) rfl)
      (hname.ne_delimiter (c := ')') (by decide) rfl)
      (hname.ne_delimiter (c := ';') (by decide) rfl)

theorem readTokens_declared
    (hrest : r.currentToken = .none)
    {d : RpcDecl} (hnamed : Named d) :
    ∃ after, r.readTokens d.tokens = .ok after ∧
      after.currentToken = .none ∧
      after.serviceName = r.serviceName ∧
      after.rpc = r.rpc ++ (rpcsOf [.rpc d]).map stored := by
  have hopening := readTokens_opening hrest d.name
    (hnamed.input.ne_delimiter (c := '(') (by decide) rfl)
    (hnamed.input.ne_delimiter (c := ')') (by decide) rfl)
  rw [RpcDecl.tokens, RpcDecl.head, List.append_assoc, List.append_assoc,
    Reader.readTokens_append_of_ok hopening,
    Reader.readTokens_append_of_ok
      (readTokens_output rfl rfl hnamed.output)]
  refine ⟨_, rfl, rfl, rfl, ?_⟩
  by_cases hping : d.name = "Ping"
  · simp [rpcsOf, allRpcs, Declaration.rpc?, hping]
  · simp [rpcsOf, allRpcs, Declaration.rpc?, hping, stored]

/-- The reader stands between two declarations. -/
structure ReadSoFar (r : Reader) (file : List Declaration) : Prop where
  currentToken : r.currentToken = .none
  rpc : r.rpc = (rpcsOf file).map stored
  serviceName : r.serviceName = (services file).getLast?

theorem readSoFar_start : ReadSoFar Reader.start [] where
  currentToken := rfl
  rpc := rfl
  serviceName := rfl

theorem rpcsOf_append (file more : List Declaration) :
    rpcsOf (file ++ more) = rpcsOf file ++ rpcsOf more := by
  simp [rpcsOf, allRpcs]

theorem rpcsOf_append_of_none
    (file : List Declaration) {declaration : Declaration}
    (hnone : declaration.rpc? = none) :
    rpcsOf (file ++ [declaration]) = rpcsOf file := by
  rw [rpcsOf_append]
  simp [rpcsOf, allRpcs, hnone]

theorem services_append_of_none
    (file : List Declaration) {declaration : Declaration}
    (hnone : declaration.service? = none) :
    services (file ++ [declaration]) = services file := by
  simp [services, hnone]

theorem readTokens_declaration
    {file : List Declaration} (hsofar : ReadSoFar r file)
    {declaration : Declaration} (hlegal : declaration.Legal) :
    ∃ after, r.readTokens declaration.tokens = .ok after ∧
      ReadSoFar after (file ++ [declaration]) := by
  have hrest := hsofar.currentToken
  cases declaration with
  | rpc d =>
      rcases readTokens_declared hrest hlegal with
          ⟨after, hread, hnone, hservice, hrpc⟩
      refine ⟨after, hread, hnone, ?_, ?_⟩
      · rw [hrpc, hsofar.rpc, rpcsOf_append, List.map_append]
      · rw [hservice, services_append_of_none file rfl]
        exact hsofar.serviceName
  | service name =>
      have hkeyword := (Reader.Reads.service hrest).readToken_eq
      refine ⟨{ r with serviceName := some name, currentToken := .none },
        ?_, rfl, ?_, ?_⟩
      · rw [Declaration.tokens, Reader.readTokens_cons_of_ok hkeyword]
        rfl
      · rw [rpcsOf_append_of_none file rfl]
        exact hsofar.rpc
      · simp [services, Declaration.service?]
  | other token =>
      have hquiet := readToken_quiet hrest hlegal
      refine ⟨r, ?_, hrest, ?_, ?_⟩
      · rw [Declaration.tokens, Reader.readTokens_cons_of_ok hquiet]
        rfl
      · rw [rpcsOf_append_of_none file rfl]
        exact hsofar.rpc
      · rw [services_append_of_none file rfl]
        exact hsofar.serviceName

theorem readTokens_declarations
    {file : List Declaration} (hsofar : ReadSoFar r file)
    {more : List Declaration} (hlegal : ∀ e ∈ more, e.Legal) :
    ∃ after, r.readTokens (more.flatMap Declaration.tokens) = .ok after ∧
      ReadSoFar after (file ++ more) := by
  induction more generalizing r file with
  | nil => exact ⟨r, rfl, by simpa using hsofar⟩
  | cons declaration more ih =>
      rw [List.forall_mem_cons] at hlegal
      rcases readTokens_declaration hsofar hlegal.1 with
          ⟨middle, hfirst, hmiddle⟩
      rcases ih hmiddle hlegal.2 with ⟨after, hrest, hafter⟩
      refine ⟨after, ?_, ?_⟩
      · rw [List.flatMap_cons, Reader.readTokens_append_of_ok hfirst, hrest]
      · simpa using hafter

theorem named_of_legal
    {file : List Declaration} (hlegal : ∀ e ∈ file, e.Legal) :
    ∀ d ∈ allRpcs file, Named d := by
  intro d hd
  rcases List.mem_filterMap.mp hd with ⟨declaration, hmem, hrpc⟩
  cases declaration with
  | rpc e =>
      cases hrpc
      exact hlegal _ hmem
  | service name => cases hrpc
  | other token => cases hrpc

theorem readProtoFile_of_declarations
    {file : List Declaration} (hlegal : ∀ e ∈ file, e.Legal)
    {serviceName : String} (hservice : .service serviceName ∈ file)
    {text : List Char}
    (htext : RendersFile (file.flatMap Declaration.tokens) text)
    (fileName : String) :
    ∃ name, (services file).getLast? = some name ∧
      readProtoFile fileName (.ok (asBytes text)) =
        .ok ⟨name, (rpcsOf file).map stored⟩ := by
  rcases readTokens_declarations readSoFar_start hlegal with ⟨r, hread, hsofar⟩
  rw [List.nil_append] at hsofar
  have hmem : serviceName ∈ services file :=
    List.mem_filterMap.mpr ⟨_, hservice, rfl⟩
  have hlast := List.getLast?_eq_some_getLast (List.ne_nil_of_mem hmem)
  refine ⟨_, hlast, ?_⟩
  rw [readProtoFile_of_tokens htext hread, Reader.finish, hsofar.serviceName,
    hlast, hsofar.rpc]

end Reading

section Generation

variable (lexer : TokenLexer) (cases : CharCase)

structure MethodFits (d : RpcDecl) (method : Method) : Prop where
  requestFn : method.requestFn =
    if d.input.stream then .startRequestWithInputPramsAsStream
    else .startRequest
  responseFn : method.responseFn =
    if d.output.stream then .getStreamedResponse else .getResponse
  inputDataType : method.inputDataType =
    if d.input.stream then
      "impl Into<my_grpc_extensions::StreamedRequest<" ++
        typeName d.input ++ ">>"
    else typeName d.input
  outputDataType : method.outputDataType =
    if d.output.stream then
      "my_grpc_extensions::StreamedResponse<" ++ typeName d.output ++ ">"
    else typeName d.output

/-- The executor trait of two stream flags. -/
def executorTrait : Bool → Bool → ExecutorTrait
  | false, false => .requestResponse
  | false, true => .requestWithResponseAsStream
  | true, false => .requestWithInputAsStream
  | true, true => .requestWithInputAsStreamWithResponseAsStream

structure ImplementationFits
    (d : RpcDecl) (implementation : Implementation) : Prop where
  interfaceName : implementation.interfaceName =
    executorTrait d.input.stream d.output.stream
  inputType : implementation.inputType = typeName d.input
  outputType : implementation.outputType = typeName d.output
  inputData : implementation.inputData =
    if d.input.stream then
      "&my_grpc_extensions::StreamedRequest<" ++ typeName d.input ++ ">"
    else typeName d.input
  resultType : implementation.resultType =
    if d.output.stream then
      "tonic::Streaming<" ++ typeName d.output ++ ">"
    else typeName d.output
  inputInvoke : implementation.inputInvoke =
    if d.input.stream then "input_data.get_consumer()" else "input_data"

structure FunctionFits
    (d : RpcDecl) (function : ServerMacros.Function) : Prop where
  inputParam : function.inputParam =
    if d.input.stream then
      "tonic::Request<tonic::Streaming<" ++ typeName d.input ++ ">>"
    else "tonic::Request<" ++ typeName d.input ++ ">"
  outType : function.outType =
    if d.output.stream then
      "tonic::Response<Self::" ++ (d.name ++ "Stream") ++ ">"
    else "tonic::Response<" ++ typeName d.output ++ ">"
  streamDescription : function.streamDescription =
    if d.output.stream then some ⟨d.name ++ "Stream", typeName d.output⟩
    else none

/-- Everything that is derived from the stored rpc is what its declaration
asks for. -/
structure Honoured (d : RpcDecl) (rpc : ProtoRpc) : Prop where
  input : rpc.getInputParam = some (declaredType d.input)
  output : rpc.getOutputParam = some (declaredType d.output)
  method : ∀ retriesAmount overrides withTelemetry, ∃ method,
    generateGrpcMethod lexer cases retriesAmount overrides withTelemetry rpc =
      .ok method ∧ MethodFits d method
  implementation : ∃ implementation,
    generateInterfaceImplementation lexer cases rpc = .ok implementation ∧
      ImplementationFits d implementation
  function : ∀ withTelemetry, ∃ function,
    generateFunction lexer cases withTelemetry rpc = .ok function ∧
      FunctionFits d function

variable {param : ParamDecl} {d : RpcDecl}

theorem isStream_declaredType (param : ParamDecl) :
    isStream (declaredType param) = param.stream := by
  unfold declaredType
  cases param.stream <;> rfl

theorem getName_declaredType (param : ParamDecl) :
    getName (declaredType param) = typeName param := by
  unfold declaredType
  cases param.stream <;> rfl

theorem tokenStream_typeName (hname : IsTypeName param.type) :
    tokenStream lexer (typeName param) = .ok (typeName param) := by
  unfold typeName
  split
  · exact if_pos lexer.unit
  · exact tokenStream_of_isWord lexer hname.last

/-- A selector that wraps the type of a stream. -/
theorem wrapped_declared
    (select : ParamType → Except Panic String) {opening closing : String}
    (hsingle : ∀ name, select (.single name) = tokenStream lexer name)
    (hstream : ∀ name, select (.stream name) = do
      let name ← tokenStream lexer name
      return opening ++ name ++ closing)
    (hname : IsTypeName param.type) :
    select (declaredType param) = .ok
      (if param.stream then opening ++ typeName param ++ closing
      else typeName param) := by
  have htokens := tokenStream_typeName lexer hname
  unfold declaredType
  cases param.stream with
  | false => exact (hsingle _).trans htokens
  | true =>
      rw [if_pos rfl, if_pos rfl, hstream, htokens]
      rfl

theorem tokenStream_inputParamInvoke (param : ParamDecl) :
    tokenStream lexer (getInputParamInvoke (declaredType param)) = .ok
      (if param.stream then "input_data.get_consumer()"
      else "input_data") := by
  have hword : IsWord "input_data" := by decide
  unfold declaredType
  cases param.stream with
  | false => exact tokenStream_of_isWord lexer hword
  | true => exact if_pos lexer.consumer

theorem getFuncInDataType_declared (hname : IsTypeName param.type) :
    getFuncInDataType lexer (some (declaredType param)) = .ok
      (if param.stream then
        "impl Into<my_grpc_extensions::StreamedRequest<" ++
          typeName param ++ ">>"
      else typeName param) :=
  wrapped_declared lexer
    (fun declared => getFuncInDataType lexer (some declared))
    (fun _ => rfl) (fun _ => rfl) hname

theorem getFuncOutDataType_declared (hname : IsTypeName param.type) :
    getFuncOutDataType lexer (some (declaredType param)) = .ok
      (if param.stream then
        "my_grpc_extensions::StreamedResponse<" ++ typeName param ++ ">"
      else typeName param) :=
  wrapped_declared lexer
    (fun declared => getFuncOutDataType lexer (some declared))
    (fun _ => rfl) (fun _ => rfl) hname

theorem getNameFnParamTypeToken_declared (hname : IsTypeName param.type) :
    getNameFnParamTypeToken lexer (declaredType param) = .ok
      (if param.stream then
        "&my_grpc_extensions::StreamedRequest<" ++ typeName param ++ ">"
      else typeName param) :=
  wrapped_declared lexer (getNameFnParamTypeToken lexer)
    (fun _ => rfl) (fun _ => rfl) hname

theorem tokenStream_outputParamType
    (hname : IsTypeName param.type) (hkept : Kept param) :
    tokenStream lexer (getOutputParamType (declaredType param)) = .ok
      (if param.stream then "tonic::Streaming<" ++ typeName param ++ ">"
      else typeName param) := by
  have htokens := tokenStream_typeName lexer hname
  unfold declaredType getOutputParamType
  cases hstream : param.stream with
  | false => exact htokens
  | true =>
      have htype : typeName param = lastSegment param.type := by
        unfold typeName
        exact if_neg fun hempty => hkept.1 ⟨hstream, hempty⟩
      rw [htype]
      exact if_pos (lexer.streaming _ hname.last)

theorem generateInputParam_declared (hname : IsTypeName param.type) :
    ServerMacros.generateInputParam lexer (some (declaredType param)) = .ok
      (if param.stream then
        "tonic::Request<tonic::Streaming<" ++ typeName param ++ ">>"
      else "tonic::Request<" ++ typeName param ++ ">") := by
  have htokens := tokenStream_typeName lexer hname
  unfold declaredType ServerMacros.generateInputParam
  cases param.stream <;>
    · simp only [if_true, Bool.false_eq_true, if_false, htokens]
      rfl

theorem generateOutput_declared
    {rpc : ProtoRpc} (hword : IsWord rpc.name)
    (houtput : rpc.getOutputParam = some (declaredType param))
    (hname : IsTypeName param.type) :
    ∃ result, ServerMacros.generateOutput lexer rpc = .ok result ∧
      result.1 = (if param.stream then
        some ⟨rpc.name ++ "Stream", typeName param⟩ else none) ∧
      result.2.1 = (if param.stream then
        "tonic::Response<Self::" ++ (rpc.name ++ "Stream") ++ ">"
        else "tonic::Response<" ++ typeName param ++ ">") := by
  have htokens := tokenStream_typeName lexer hname
  have hstreamed := tokenStream_of_isWord lexer (isWord_append_stream hword)
  unfold ServerMacros.generateOutput
  rw [houtput]
  unfold declaredType
  cases param.stream with
  | false =>
      simp only [Bool.false_eq_true, if_false, htokens]
      exact ⟨_, rfl, rfl, rfl⟩
  | true =>
      simp only [if_true, htokens, hstreamed]
      exact ⟨_, rfl, rfl, rfl⟩

variable {rpc : ProtoRpc}
  (hrpc : rpc.name = d.name) (hnamed : Named d)
  (hinput : rpc.getInputParam = some (declaredType d.input))
  (houtput : rpc.getOutputParam = some (declaredType d.output))

include hrpc hnamed in
theorem tokenStream_fnName :
    tokenStream lexer (intoSnakeCase cases rpc.name) =
      .ok (intoSnakeCase cases rpc.name) := by
  apply tokenStream_of_isWord lexer
  rw [hrpc]
  exact isWord_intoSnakeCase cases hnamed.name

include hrpc hnamed hinput houtput

theorem method_fits
    (retriesAmount : ℕ) (overrides : Std.HashMap String FnOverride)
    (withTelemetry : Bool) :
    ∃ method, generateGrpcMethod lexer cases retriesAmount overrides
        withTelemetry rpc = .ok method ∧ MethodFits d method := by
  have hfn := tokenStream_fnName lexer cases hrpc hnamed
  unfold generateGrpcMethod
  rw [hfn, hinput, houtput, getFuncInDataType_declared lexer hnamed.input,
    getFuncOutDataType_declared lexer hnamed.output]
  refine ⟨_, rfl, ?_, ?_, rfl, rfl⟩
  · simp only [getRequestFnName, isStream_declaredType]
  · simp only [getResponseFnName, isStream_declaredType]

theorem implementation_fits
    (hkeptOutput : Kept d.output) :
    ∃ implementation,
      generateInterfaceImplementation lexer cases rpc = .ok implementation ∧
        ImplementationFits d implementation := by
  have hfn := tokenStream_fnName lexer cases hrpc hnamed
  have hinputName := tokenStream_typeName lexer hnamed.input
  have houtputName := tokenStream_typeName lexer hnamed.output
  have hresult :=
    tokenStream_outputParamType lexer hnamed.output hkeptOutput
  unfold generateInterfaceImplementation
  simp only [hinput, houtput, getName_declaredType]
  rw [getNameFnParamTypeToken_declared lexer hnamed.input, hresult,
    hinputName, houtputName, hfn, tokenStream_inputParamInvoke lexer d.input]
  refine ⟨_, rfl, ?_, rfl, rfl, rfl, rfl, rfl⟩
  simp only [getInterfaceName, isStream_declaredType]
  cases d.input.stream <;> cases d.output.stream <;> rfl

theorem function_fits (withTelemetry : Bool) :
    ∃ function, generateFunction lexer cases withTelemetry rpc =
        .ok function ∧ FunctionFits d function := by
  have hfn := tokenStream_fnName lexer cases hrpc hnamed
  have hword : IsWord rpc.name := hrpc ▸ hnamed.name
  rcases generateOutput_declared lexer hword houtput hnamed.output with
      ⟨⟨description, outType, conversion⟩, hresult, hfirst, hsecond⟩
  unfold generateFunction
  rw [hfn, hinput, generateInputParam_declared lexer hnamed.input, hresult]
  rw [hrpc] at hfirst hsecond
  exact ⟨_, rfl, rfl, hsecond, hfirst⟩

end Generation

section Files

variable (lexer : TokenLexer) (cases : CharCase) {d : RpcDecl}

/-- The parser keeps both parameters. -/
def KeptRpc (d : RpcDecl) : Prop :=
  Kept d.input ∧ Kept d.output ∧ d.output.type ≠ "returns"

theorem honoured_stored_iff (hnamed : Named d) :
    Honoured lexer cases d (stored d) ↔ KeptRpc d := by
  have hinput : (stored d).getInputParam = some (declaredType d.input) ↔
      Kept d.input :=
    parse_text_iff hnamed.input
  have houtput : (stored d).getOutputParam = some (declaredType d.output) ↔
      Kept d.output ∧ d.output.type ≠ "returns" :=
    parse_outputText_iff hnamed.output
  constructor
  · intro h
    exact ⟨hinput.mp h.input, houtput.mp h.output⟩
  · intro hkept
    have hin := hinput.mpr hkept.1
    have hout := houtput.mpr hkept.2
    exact {
      input := hin
      output := hout
      method := method_fits lexer cases rfl hnamed hin hout
      implementation :=
        implementation_fits lexer cases rfl hnamed hin hout hkept.2.1
      function := function_fits lexer cases rfl hnamed hin hout }

/-- A parameter `( google.protobuf.Empty )`. -/
def emptyParam : ParamDecl :=
  ⟨false, "google.protobuf.Empty"⟩

theorem typeName_eq_unit_iff
    {param : ParamDecl} (hname : IsTypeName param.type) :
    typeName param = "()" ↔ param.type = "google.protobuf.Empty" := by
  unfold typeName
  split
  next hempty => simp [hempty]
  next hempty =>
    simp only [hempty, iff_false]
    intro hunit
    exact absurd (hunit ▸ hname.last) (by decide)

theorem wrapped_unit_iff
    (opening : String) {param : ParamDecl} (hname : IsTypeName param.type) :
    opening ++ "()" ++ ">" = opening ++ typeName param ++ ">" ↔
      param.type = "google.protobuf.Empty" := by
  rw [String.append_left_inj, String.append_right_inj, eq_comm]
  exact typeName_eq_unit_iff hname

/-- The request of `ping` is no request of a stream. -/
theorem unitRequest_ne_streaming (name : String) :
    "tonic::Request<()>" ≠
      "tonic::Request<tonic::Streaming<" ++ name ++ ">>" := by
  intro heq
  have hchars := congrArg String.toList heq
  simp at hchars

theorem eq_emptyParam_iff {param : ParamDecl} :
    param = emptyParam ↔
      param.stream = false ∧ param.type = "google.protobuf.Empty" := by
  cases param
  simp [emptyParam]

/-- The function `ping` fits an rpc that has no data in either direction. -/
theorem ping_fits_iff (hnamed : Named d) :
    FunctionFits d ServerMacros.ping ↔
      d.input = emptyParam ∧ d.output = emptyParam := by
  have hinput := wrapped_unit_iff "tonic::Request<" hnamed.input
  have houtput := wrapped_unit_iff "tonic::Response<" hnamed.output
  rw [eq_emptyParam_iff, eq_emptyParam_iff]
  constructor
  · intro hfits
    have hin := hfits.inputParam
    have hout := hfits.outType
    have hdescription := hfits.streamDescription
    cases hinputStream : d.input.stream with
    | true =>
        rw [hinputStream, if_pos rfl] at hin
        exact absurd hin (unitRequest_ne_streaming _)
    | false =>
        cases houtputStream : d.output.stream with
        | true => simp [houtputStream, ServerMacros.ping] at hdescription
        | false =>
            rw [hinputStream, if_neg Bool.false_ne_true] at hin
            rw [houtputStream, if_neg Bool.false_ne_true] at hout
            exact ⟨⟨rfl, hinput.mp hin⟩, rfl, houtput.mp hout⟩
  · rintro ⟨⟨hinputStream, hinputType⟩, houtputStream, houtputType⟩
    constructor
    · rw [hinputStream, if_neg Bool.false_ne_true]
      exact hinput.mpr hinputType
    · rw [houtputStream, if_neg Bool.false_ne_true]
      exact houtput.mpr houtputType
    · rw [houtputStream]
      rfl

/-- Of a file whose rpcs are all of the form `rpc A ( [stream] X ) returns
( [stream] Y ) ;`, each rpc but `Ping` is honoured exactly if the parser keeps
its parameters, and `Ping` exactly if it is declared without data. -/
theorem honoured_iff_kept
    {file : List Declaration} (hlegal : ∀ e ∈ file, e.Legal)
    {serviceName : String} (hservice : .service serviceName ∈ file)
    {text : List Char}
    (htext : RendersFile (file.flatMap Declaration.tokens) text)
    (fileName : String) :
    ∃ description,
      readProtoFile fileName (.ok (asBytes text)) = .ok description ∧
      List.Forall₂
        (fun d rpc => Honoured lexer cases d rpc ↔ KeptRpc d)
        (rpcsOf file) description.rpc ∧
      ∀ withTelemetry crateNs grpcStructName server,
        ServerMacros.generate lexer cases withTelemetry crateNs grpcStructName
          description = .ok server →
        ∀ d ∈ allRpcs file, d.name = "Ping" →
          (FunctionFits d server.ping ↔
            d.input = emptyParam ∧ d.output = emptyParam) := by
  have hnamed := named_of_legal hlegal
  rcases readProtoFile_of_declarations hlegal hservice htext fileName with
      ⟨name, _, hread⟩
  refine ⟨_, hread, ?_, ?_⟩
  · rw [List.forall₂_map_right_iff, List.forall₂_same]
    intro d hd
    exact honoured_stored_iff lexer cases (hnamed d (List.mem_of_mem_filter hd))
  · intro withTelemetry crateNs grpcStructName server hserver d hd _
    rw [(ServerMacros.generate_eq_ok hserver).2]
    exact ping_fits_iff (hnamed d hd)

def flowsText : List Char :=
  "service Flows\x7b
rpc Watch(stream google.protobuf.Empty) returns (flows.Item);
rpc Fill(stream Item)returns(stream .flows.Ack);\x7d".toList

def watch : RpcDecl :=
  ⟨"Watch", ⟨true, "google.protobuf.Empty"⟩, ⟨false, "flows.Item"⟩⟩

def flowsFile : List Declaration :=
  [.service "Flows", .other openBrace, .rpc watch,
    .rpc ⟨"Fill", ⟨true, "Item"⟩, ⟨true, ".flows.Ack"⟩⟩, .other closeBrace]

theorem legal_flowsFile : ∀ e ∈ flowsFile, e.Legal := by
  have hall : (flowsFile.all fun e => decide e.Legal) = true := by decide
  simpa only [List.all_eq_true, decide_eq_true_eq] using hall

theorem rendersFile_flows :
    RendersFile (flowsFile.flatMap Declaration.tokens) flowsText :=
  rendersFile_iff.mpr (by decide +kernel)

theorem honoured_iff_kept_flows :
    ∃ description,
      readProtoFile "flows.proto" (.ok (asBytes flowsText)) =
        .ok description ∧
      List.Forall₂
        (fun d rpc => Honoured anyTokens asciiCase d rpc ↔ KeptRpc d)
        (rpcsOf flowsFile) description.rpc := by
  obtain ⟨description, hread, hrpcs, _⟩ :=
    honoured_iff_kept anyTokens asciiCase legal_flowsFile
      (by decide : .service "Flows" ∈ flowsFile) rendersFile_flows "flows.proto"
  exact ⟨description, hread, hrpcs⟩

/-- A client stream of `google.protobuf.Empty` is called like a unary rpc. -/
theorem stream_of_empty_is_unary :
    ∃ description rpc,
      readProtoFile "flows.proto" (.ok (asBytes flowsText)) =
        .ok description ∧
      description.rpc[0]? = some rpc ∧ rpc.name = watch.name ∧
      watch.input.stream = true ∧
      rpc.getInputParam = some (.single "()") ∧
      (generateGrpcMethod anyTokens asciiCase 0 ∅ false rpc).map
        Method.requestFn = .ok .startRequest ∧
      ¬ Honoured anyTokens asciiCase watch rpc := by
  have hread : Reader.start.readTokens
      (flowsFile.flatMap Declaration.tokens) = .ok {
        Reader.start with
        serviceName := some "Flows"
        rpcName := some "Fill"
        inputParamName := "stream Item"
        outParamName := "stream .flows.Ack ;"
        rpc := [⟨"Watch", "stream google.protobuf.Empty", "flows.Item"⟩,
          ⟨"Fill", "stream Item", "stream .flows.Ack"⟩] } := by
    decide +kernel
  refine ⟨_, _, readProtoFile_of_tokens rendersFile_flows hread _, rfl, rfl,
    rfl, by decide +kernel, by decide +kernel, ?_⟩
  intro honoured
  exact absurd honoured.input (by decide +kernel)

end Files

end DeclaredStreams
end GrpcExtensions
