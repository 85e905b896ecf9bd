import GrpcExtensions.DeclaredStreams
import GrpcExtensions.ProtoStrayWords

/-!
# What the macros answer to a file of declarations

Both macros panic on a name that is no text of tokens, and the reader takes
any word behind the last `service` for a name.  Apart from that the server is
always generated.  The client is refused for three reasons, in this order: an
rpc of whose two parameters nothing is left, a list of overrides that is
empty, and an override of a method that the file does not have, which may be
the method `Ping`.
-/

namespace GrpcExtensions
namespace MacroOutcomes

open ClientMacros
open ProtoFileReader
open DeclaredStreams
open ServerMacros (generateFunction)

section Parameters

/-- The tokens of such a parameter can be written down. -/
def Lexable : Option ParamType → Prop
  | none => True
  | some (.single name) => name = "()" ∨ IsWord name
  | some (.stream name) => IsWord name

/-- The rpc has a name and parameters that can be written down. -/
structure LexableRpc (rpc : ProtoRpc) : Prop where
  name : IsWord rpc.name
  input : Lexable rpc.getInputParam
  output : Lexable rpc.getOutputParam

theorem parse_text
    {param : ParamDecl} (hname : IsTypeName param.type) :
    ParamType.parse param.text =
      if param.type = "stream" then none
      else if param.type = "google.protobuf.Empty" then some (.single "()")
      else if param.stream then some (.stream (lastSegment param.type))
      else some (.single (lastSegment param.type)) := by
  by_cases hstream : param.type = "stream"
  · rw [if_pos hstream]
    unfold ParamDecl.text
    rw [hstream]
    cases param.stream <;> decide
  · unfold ParamType.parse
    rw [splitAsciiWhitespace_text hname.whole, takeName_words hstream,
      if_neg hstream]

theorem parse_outputText (param : ParamDecl) :
    ParamType.parse (outputText param) =
      if param.type = "returns" then none
      else ParamType.parse param.text := by
  unfold outputText
  by_cases hreturns : param.type = "returns"
  · rw [if_pos hreturns, if_pos hreturns]
    cases param.stream <;> decide
  · rw [if_neg hreturns, if_neg hreturns]

theorem lexable_text
    {param : ParamDecl} (hname : IsTypeName param.type) :
    Lexable (ParamType.parse param.text) := by
  rw [parse_text hname]
  split
  · trivial
  · split
    · exact Or.inl rfl
    · split
      · exact hname.last
      · exact Or.inr hname.last

theorem lexableRpc_stored {d : RpcDecl} (hnamed : Named d) :
    LexableRpc (stored d) := by
  constructor
  · exact hnamed.name
  · exact lexable_text hnamed.input
  · unfold ProtoRpc.getOutputParam stored
    rw [parse_outputText]
    split
    · trivial
    · exact lexable_text hnamed.output

/-- Nothing is left of either parameter. -/
def Unsupported (d : RpcDecl) : Prop :=
  d.input.type = "stream" ∧
    (d.output.type = "stream" ∨ d.output.type = "returns")

theorem unsupported_iff {d : RpcDecl} (hnamed : Named d) :
    Unsupported d ↔
      (stored d).getInputParam = none ∧ (stored d).getOutputParam = none := by
  unfold ProtoRpc.getInputParam ProtoRpc.getOutputParam stored
  rw [parse_outputText, parse_text hnamed.input, parse_text hnamed.output]
  unfold Unsupported
  by_cases hinput : d.input.type = "stream"
  · by_cases hreturns : d.output.type = "returns"
    · simp [hinput, hreturns]
    · by_cases hstream : d.output.type = "stream"
      · simp [hinput, hstream]
      · simp only [hinput, hreturns, hstream, if_true, if_false, true_and,
          or_self, false_iff]
        split
        · simp
        · split <;> simp
  · simp only [hinput, if_false, false_and, false_iff, not_and]
    intro hnone
    split at hnone
    · contradiction
    · split at hnone <;> contradiction

end Parameters

section Generation

variable (lexer : TokenLexer) (cases : CharCase)

theorem tokenStream_of_lexable
    {param : ParamType} (hlexable : Lexable (some param)) :
    tokenStream lexer (getName param) = .ok (getName param) := by
  cases param with
  | single name =>
      cases hlexable with
      | inl hunit =>
          subst hunit
          exact if_pos lexer.unit
      | inr hword => exact tokenStream_of_isWord lexer hword
  | stream name => exact tokenStream_of_isWord lexer hlexable

/-- A selector that wraps the type of a stream. -/
theorem exists_wrapped
    (select : ParamType → Except Panic String) {opening closing : String}
    (hsingle : ∀ name, select (.single name) = tokenStream lexer name)
    (hstream : ∀ name, select (.stream name) = do
      let name ← tokenStream lexer name
      return opening ++ name ++ closing)
    {param : ParamType} (hlexable : Lexable (some param)) :
    ∃ text, select param = .ok text := by
  have htokens := tokenStream_of_lexable lexer hlexable
  cases param with
  | single name => exact ⟨_, (hsingle name).trans htokens⟩
  | stream name =>
      refine ⟨opening ++ name ++ closing, ?_⟩
      simp only [getName] at htokens
      rw [hstream, htokens]
      rfl

theorem exists_outputParamType
    {param : ParamType} (hlexable : Lexable (some param)) :
    ∃ text, tokenStream lexer (getOutputParamType param) = .ok text := by
  cases param with
  | single name => exact ⟨_, tokenStream_of_lexable lexer hlexable⟩
  | stream name => exact ⟨_, if_pos (lexer.streaming name hlexable)⟩

theorem exists_inputParamInvoke (param : ParamType) :
    ∃ text, tokenStream lexer (getInputParamInvoke param) = .ok text := by
  have hword : IsWord "input_data" := by
    decide
  cases param with
  | single name => exact ⟨_, tokenStream_of_isWord lexer hword⟩
  | stream name => exact ⟨_, if_pos lexer.consumer⟩

theorem exists_funcInDataType
    {param : Option ParamType} (hlexable : Lexable param) :
    ∃ text, getFuncInDataType lexer param = .ok text := by
  cases param with
  | none => exact ⟨"()", rfl⟩
  | some param =>
      exact exists_wrapped lexer (fun param => getFuncInDataType lexer param)
        (fun _ => rfl) (fun _ => rfl) hlexable

theorem exists_funcOutDataType
    {param : Option ParamType} (hlexable : Lexable param) :
    ∃ text, getFuncOutDataType lexer param = .ok text := by
  cases param with
  | none => exact ⟨"()", rfl⟩
  | some param =>
      exact exists_wrapped lexer (fun param => getFuncOutDataType lexer param)
        (fun _ => rfl) (fun _ => rfl) hlexable

theorem exists_inputParam
    {param : Option ParamType} (hlexable : Lexable param) :
    ∃ text, ServerMacros.generateInputParam lexer param = .ok text := by
  cases param with
  | none => exact ⟨_, rfl⟩
  | some param =>
      have htokens := tokenStream_of_lexable lexer hlexable
      unfold ServerMacros.generateInputParam
      cases param with
      | single name =>
          simp only [getName] at htokens
          simp only [htokens]
          exact ⟨_, rfl⟩
      | stream name =>
          simp only [getName] at htokens
          simp only [htokens]
          exact ⟨_, rfl⟩

variable {rpc : ProtoRpc} (hrpc : LexableRpc rpc)
include hrpc

theorem exists_output :
    ∃ result, ServerMacros.generateOutput lexer rpc = .ok result := by
  have houtput := hrpc.output
  unfold ServerMacros.generateOutput
  cases hparam : rpc.getOutputParam with
  | none => exact ⟨_, rfl⟩
  | some param =>
      rw [hparam] at houtput
      have htokens := tokenStream_of_lexable lexer houtput
      cases param with
      | single name =>
          simp only [getName] at htokens
          simp only [htokens]
          exact ⟨_, rfl⟩
      | stream name =>
          have hstreamed :=
            tokenStream_of_isWord lexer (isWord_append_stream hrpc.name)
          simp only [getName] at htokens
          simp only [htokens, hstreamed]
          exact ⟨_, rfl⟩

theorem fnName_lexes :
    tokenStream lexer (intoSnakeCase cases rpc.name) =
      .ok (intoSnakeCase cases rpc.name) :=
  tokenStream_of_isWord lexer (isWord_intoSnakeCase cases hrpc.name)

theorem exists_function (withTelemetry : Bool) :
    ∃ function, generateFunction lexer cases withTelemetry rpc =
      .ok function := by
  rcases exists_inputParam lexer hrpc.input with ⟨inputParam, hinput⟩
  rcases exists_output lexer hrpc with ⟨result, hresult⟩
  unfold generateFunction
  rw [fnName_lexes lexer cases hrpc, hinput, hresult]
  exact ⟨_, rfl⟩

theorem exists_method
    (retriesAmount : ℕ) (overrides : Std.HashMap String FnOverride)
    (withTelemetry : Bool) :
    ∃ method, generateGrpcMethod lexer cases retriesAmount overrides
      withTelemetry rpc = .ok method := by
  rcases exists_funcInDataType lexer hrpc.input with ⟨input, hinput⟩
  rcases exists_funcOutDataType lexer hrpc.output with ⟨output, houtput⟩
  unfold generateGrpcMethod
  rw [fnName_lexes lexer cases hrpc, hinput, houtput]
  exact ⟨_, rfl⟩

theorem exists_implementation
    (hsome : ¬ (rpc.getInputParam = none ∧ rpc.getOutputParam = none)) :
    ∃ implementation,
      generateInterfaceImplementation lexer cases rpc =
        .ok implementation := by
  have hfn := fnName_lexes lexer cases hrpc
  have hin := hrpc.input
  have hout := hrpc.output
  unfold generateInterfaceImplementation
  cases hinput : rpc.getInputParam with
  | some input =>
      rw [hinput] at hin
      have hname := tokenStream_of_lexable lexer hin
      rcases exists_wrapped lexer (getNameFnParamTypeToken lexer)
          (fun _ => rfl) (fun _ => rfl) hin with ⟨data, hdata⟩
      rcases exists_inputParamInvoke lexer input with ⟨invoke, hinvoke⟩
      cases houtput : rpc.getOutputParam with
      | some output =>
          rw [houtput] at hout
          have hresultName := tokenStream_of_lexable lexer hout
          rcases exists_outputParamType lexer hout with ⟨result, hresult⟩
          simp only [hdata, hresult, hname, hresultName, hfn, hinvoke]
          exact ⟨_, rfl⟩
      | none =>
          simp only [hdata, hname, hfn, hinvoke]
          exact ⟨_, rfl⟩
  | none =>
      cases houtput : rpc.getOutputParam with
      | some output =>
          rw [houtput] at hout
          have hresultName := tokenStream_of_lexable lexer hout
          rcases exists_outputParamType lexer hout with ⟨result, hresult⟩
          simp only [hresult, hresultName, hfn]
          exact ⟨_, rfl⟩
      | none => exact absurd ⟨hinput, houtput⟩ hsome

end Generation

section Names

variable (lexer : TokenLexer) (cases : CharCase)

/-- All of these texts can be written down. -/
def AllLex (texts : List String) : Prop :=
  ∀ text ∈ texts, lexer.lexes text = true

theorem mapM_tokenStream (texts : List String) :
    (AllLex lexer texts ∧ texts.mapM (tokenStream lexer) = .ok texts) ∨
      (¬ AllLex lexer texts ∧
        texts.mapM (tokenStream lexer) = .error .unwrap) := by
  by_cases hall : AllLex lexer texts
  · apply Or.inl
    refine ⟨hall, ?_⟩
    induction texts with
    | nil => rfl
    | cons text texts ih =>
        have hboth : lexer.lexes text = true ∧ AllLex lexer texts :=
          List.forall_mem_cons.mp hall
        rw [List.mapM_cons, tokenStream, if_pos hboth.1, ih hboth.2]
        rfl
  · apply Or.inr
    refine ⟨hall, ?_⟩
    rcases exists_first_not (fun text => lexer.lexes text = true) hall with
        ⟨front, text, back, rfl, hfront, htext⟩
    apply mapM_eq_error
    · intro other hother
      exact ⟨other, if_pos (hfront other hother)⟩
    · exact if_neg htext

/-- The texts that the macro of the server reads beside those of the rpcs. -/
def serverTexts (crateNs : String) (grpcStructName : Option String)
    (serviceName : String) : List String :=
  serviceName :: grpcStructName.toList ++
    [ServerMacros.serverNs cases crateNs serviceName, crateNs]

theorem isPath_append
    {crateNs first second : String} (hcrate : IsPath crateNs)
    (hfirst : IsWord first) (hsecond : IsWord second) :
    IsPath (crateNs ++ "::" ++ first ++ "::" ++ second) :=
  .segment (.segment hcrate hfirst) hsecond

/-- Identifiers and paths of identifiers can be written down. -/
theorem names_lex
    {crateNs serviceName : String} (hcrate : IsPath crateNs)
    (hservice : IsWord serviceName) :
    lexer.lexes (serviceClient serviceName) = true ∧
      AllLex lexer (nameSpaces cases crateNs serviceName) ∧
      ∀ grpcStructName : Option String,
        (∀ name ∈ grpcStructName, IsPath name) →
          AllLex lexer
            (serverTexts cases crateNs grpcStructName serviceName) := by
  have hsnake := isWord_intoSnakeCase cases hservice
  have hclient : IsWord (serviceClient serviceName) :=
    isWord_append hservice (by decide)
  refine ⟨lexer.path _ (.word hclient), ?_, ?_⟩
  · intro text htext
    have htexts : text = "use " ++ crateNs ++ "::*" ∨
        text = "use " ++ (crateNs ++ "::" ++
          (intoSnakeCase cases serviceName ++ "_client") ++ "::" ++
          serviceClient serviceName) := by
      simpa [nameSpaces, serviceClient, String.append_assoc] using htext
    rcases htexts with rfl | rfl
    · exact lexer.useGlob _ hcrate
    · exact lexer.usePath _
        (isPath_append hcrate (isWord_append hsnake (by decide)) hclient)
  · intro grpcStructName hstruct text htext
    have htexts : text = serviceName ∨ text ∈ grpcStructName ∨
        text = crateNs ++ "::" ++
          (intoSnakeCase cases serviceName ++ "_server") ++ "::*" ∨
        text = crateNs := by
      simpa [serverTexts, ServerMacros.serverNs, String.append_assoc] using
        htext
    rcases htexts with rfl | hname | rfl | rfl
    · exact lexer.path _ (.word hservice)
    · exact lexer.path _ (hstruct text hname)
    · exact lexer.glob _
        (.segment hcrate (isWord_append hsnake (by decide)))
    · exact lexer.path _ hcrate

end Names

section Overrides

def unsupportedMessage (name : String) : String :=
  "RPC " ++ name ++
    " Not supported if input_param and output_param are both empty"

/-- The answers of the macro of the server. -/
inductive ServerOutcome
    (lexer : TokenLexer) (cases : CharCase) (crateNs : String)
    (grpcStructName : Option String) (serviceName : String) :
    Except Panic ServerMacros.Server → Prop
  | unlexed :
      ¬ AllLex lexer (serverTexts cases crateNs grpcStructName serviceName) →
      ServerOutcome lexer cases crateNs grpcStructName serviceName
        (.error .unwrap)
  | generated {server : ServerMacros.Server} :
      AllLex lexer (serverTexts cases crateNs grpcStructName serviceName) →
      ServerOutcome lexer cases crateNs grpcStructName serviceName
        (.ok server)

/-- The answers of the macro of the client. -/
inductive ClientOutcome
    (lexer : TokenLexer) (cases : CharCase) (crateNs : String)
    (file : List DeclaredStreams.Declaration) (serviceName : String)
    (overrides : Option (List OverrideParam)) :
    Except Failure Client → Prop
  | unlexedService :
      lexer.lexes (serviceClient serviceName) = false →
      ClientOutcome lexer cases crateNs file serviceName overrides
        (.error (.panic .unwrap))
  | unsupported {front back : List RpcDecl} {d : RpcDecl} :
      lexer.lexes (serviceClient serviceName) = true →
      rpcsOf file = front ++ d :: back →
      (∀ e ∈ front, ¬ Unsupported e) → Unsupported d →
      ClientOutcome lexer cases crateNs file serviceName overrides
        (.error (.panic (.message (unsupportedMessage d.name))))
  | noOverrides :
      lexer.lexes (serviceClient serviceName) = true →
      (∀ d ∈ rpcsOf file, ¬ Unsupported d) → overrides = some [] →
      ClientOutcome lexer cases crateNs file serviceName overrides
        (.error (.synError ("Overrides list can not be empty. Just remove " ++
          "field if you do not want to override any function")))
  | unlexedNameSpace :
      lexer.lexes (serviceClient serviceName) = true →
      (∀ d ∈ rpcsOf file, ¬ Unsupported d) → overrides ≠ some [] →
      ¬ AllLex lexer (nameSpaces cases crateNs serviceName) →
      ClientOutcome lexer cases crateNs file serviceName overrides
        (.error (.panic .unwrap))
  | unknownMethod {item : OverrideParam} :
      lexer.lexes (serviceClient serviceName) = true →
      (∀ d ∈ rpcsOf file, ¬ Unsupported d) →
      AllLex lexer (nameSpaces cases crateNs serviceName) →
      item ∈ overrides.getD [] →
      (∀ d ∈ rpcsOf file, d.name ≠ item.fnName) →
      ClientOutcome lexer cases crateNs file serviceName overrides
        (.error (.synError ("Method " ++ item.fnName ++
          " is not found in proto file for service " ++ serviceName)))
  | generated {client : Client} :
      lexer.lexes (serviceClient serviceName) = true →
      (∀ d ∈ rpcsOf file, ¬ Unsupported d) → overrides ≠ some [] →
      AllLex lexer (nameSpaces cases crateNs serviceName) →
      (∀ item ∈ overrides.getD [], ∃ d ∈ rpcsOf file, d.name = item.fnName) →
      ClientOutcome lexer cases crateNs file serviceName overrides
        (.ok client)

def insertAll (items : List OverrideParam) : Std.HashMap String FnOverride :=
  items.foldl (fun result item => result.insert item.fnName ⟨item.retries⟩) ∅

theorem mem_foldl_insert
    (items : List OverrideParam) (m : Std.HashMap String FnOverride)
    (name : String) :
    name ∈ items.foldl
        (fun result item => result.insert item.fnName ⟨item.retries⟩) m ↔
      name ∈ m ∨ ∃ item ∈ items, item.fnName = name := by
  induction items generalizing m with
  | nil => simp
  | cons item items ih =>
      rw [List.foldl_cons, ih, Std.HashMap.mem_insert, beq_iff_eq]
      simp only [List.mem_cons, exists_eq_or_imp]
      tauto

theorem mem_insertAll (items : List OverrideParam) (name : String) :
    name ∈ insertAll items ↔ ∃ item ∈ items, item.fnName = name := by
  unfold insertAll
  rw [mem_foldl_insert]
  simp

theorem size_insertAll (items : List OverrideParam) :
    (insertAll items).size = 0 ↔ items = [] := by
  constructor
  · intro hsize
    cases items with
    | nil => rfl
    | cons item items =>
        have hmem : item.fnName ∈ insertAll (item :: items) :=
          (mem_insertAll _ _).mpr ⟨item, List.mem_cons_self, rfl⟩
        have hempty : (insertAll (item :: items)).isEmpty = true := by
          rw [Std.HashMap.isEmpty_eq_size_eq_zero, hsize]
          rfl
        rw [Std.HashMap.isEmpty_iff_forall_not_mem] at hempty
        exact absurd hmem (hempty _)
  · rintro rfl
    rfl

theorem checkOverrides_cases
    (protoFile : ProtoServiceDescription) (items : List OverrideParam) :
    (checkOverrides protoFile (insertAll items) = .ok () ∧
      ∀ item ∈ items, hasMethod protoFile item.fnName = true) ∨
    ∃ item ∈ items, hasMethod protoFile item.fnName = false ∧
      checkOverrides protoFile (insertAll items) = .error (.synError
        ("Method " ++ item.fnName ++
          " is not found in proto file for service " ++
          protoFile.serviceName)) := by
  unfold checkOverrides
  cases hfind : (insertAll items).toList.find? fun item =>
      !hasMethod protoFile item.1 with
  | none =>
      apply Or.inl
      constructor
      · rfl
      · intro item hitem
        have hmem : item.fnName ∈ insertAll items :=
          (mem_insertAll _ _).mpr ⟨item, hitem, rfl⟩
        have hentry : (item.fnName, (insertAll items)[item.fnName]) ∈
            (insertAll items).toList :=
          Std.HashMap.mem_toList_iff_getElem?_eq_some.mpr
            (Std.HashMap.getElem?_eq_some_getElem hmem)
        simpa using List.find?_eq_none.mp hfind _ hentry
  | some entry =>
      rcases entry with ⟨name, value⟩
      have hentry : (insertAll items)[name]? = some value :=
        Std.HashMap.mem_toList_iff_getElem?_eq_some.mp
          (List.mem_of_find?_eq_some hfind)
      have hmem : name ∈ insertAll items := by
        rw [Std.HashMap.mem_iff_isSome_getElem?, hentry]
        rfl
      rcases (mem_insertAll _ _).mp hmem with ⟨item, hitem, hname⟩
      have hunknown := List.find?_some hfind
      apply Or.inr
      refine ⟨item, hitem, ?_, by rw [hname]⟩
      rw [hname]
      simpa using hunknown

end Overrides

section Outcomes

variable (lexer : TokenLexer) (cases : CharCase)

theorem hasMethod_stored
    (serviceName : String) (decls : List RpcDecl) (name : String) :
    hasMethod ⟨serviceName, decls.map stored⟩ name = true ↔
      ∃ d ∈ decls, d.name = name := by
  unfold hasMethod
  simp [stored]

theorem interfaces_cases
    {decls : List RpcDecl} (hnamed : ∀ d ∈ decls, Named d) :
    ((∀ d ∈ decls, ¬ Unsupported d) ∧
      ∃ interfaces, (decls.map stored).mapM
        (generateInterfaceImplementation lexer cases) = .ok interfaces) ∨
    ∃ front d back, decls = front ++ d :: back ∧
      (∀ e ∈ front, ¬ Unsupported e) ∧ Unsupported d ∧
      (decls.map stored).mapM
        (generateInterfaceImplementation lexer cases) =
          .error (.message (unsupportedMessage d.name)) := by
  have hmade : ∀ d ∈ decls, ¬ Unsupported d → ∃ implementation,
      generateInterfaceImplementation lexer cases (stored d) =
        .ok implementation := by
    intro d hd hsupported
    rw [unsupported_iff (hnamed d hd)] at hsupported
    exact exists_implementation lexer cases (lexableRpc_stored (hnamed d hd))
      hsupported
  by_cases hall : ∀ d ∈ decls, ¬ Unsupported d
  · apply Or.inl
    refine ⟨hall, exists_mapM_ok ?_⟩
    intro rpc hrpc
    rcases List.mem_map.mp hrpc with ⟨d, hd, rfl⟩
    exact hmade d hd (hall d hd)
  · rcases exists_first_not (fun d => ¬ Unsupported d) hall with
        ⟨front, d, back, hdecls, hfront, hd⟩
    have hunsupported : Unsupported d := not_not.mp hd
    have hmem : d ∈ decls := by
      rw [hdecls]
      simp
    rcases (unsupported_iff (hnamed d hmem)).mp hunsupported with
        ⟨hinput, houtput⟩
    have hpanic : generateInterfaceImplementation lexer cases (stored d) =
        .error (.message (unsupportedMessage d.name)) := by
      unfold generateInterfaceImplementation
      rw [hinput, houtput]
      rfl
    refine Or.inr ⟨front, d, back, hdecls, hfront, hunsupported, ?_⟩
    rw [hdecls, List.map_append, List.map_cons]
    apply mapM_eq_error _ hpanic
    intro rpc hrpc
    rcases List.mem_map.mp hrpc with ⟨e, he, rfl⟩
    exact hmade e (by simp [hdecls, he]) (hfront e he)

theorem new_cases (overrides : Option (List OverrideParam)) :
    (overrides = some [] ∧
      FnOverride.new overrides = .error (.synError
        ("Overrides list can not be empty. Just remove field if you do not " ++
          "want to override any function"))) ∨
    (overrides ≠ some [] ∧
      FnOverride.new overrides = .ok (insertAll (overrides.getD []))) := by
  cases overrides with
  | none => exact Or.inr ⟨by simp, rfl⟩
  | some items =>
      by_cases hitems : items = []
      · subst hitems
        exact Or.inl ⟨rfl, rfl⟩
      · have hsize : ¬ (insertAll items).size = 0 := by
          rwa [size_insertAll]
        exact Or.inr ⟨by simpa using hitems, if_neg hsize⟩

theorem exists_functions
    {decls : List RpcDecl} (hnamed : ∀ d ∈ decls, Named d)
    (withTelemetry : Bool) :
    ∃ functions, (decls.map stored).mapM
      (generateFunction lexer cases withTelemetry) = .ok functions := by
  apply exists_mapM_ok
  intro rpc hrpc
  rcases List.mem_map.mp hrpc with ⟨d, hd, rfl⟩
  exact exists_function lexer cases (lexableRpc_stored (hnamed d hd))
    withTelemetry

theorem tokenStream_cases (text : String) :
    (lexer.lexes text = true ∧ tokenStream lexer text = .ok text) ∨
      (lexer.lexes text = false ∧
        tokenStream lexer text = .error .unwrap) := by
  unfold tokenStream
  cases lexer.lexes text with
  | true => exact Or.inl ⟨rfl, rfl⟩
  | false => exact Or.inr ⟨rfl, rfl⟩

theorem structName_cases (grpcStructName : Option String) :
    (AllLex lexer grpcStructName.toList ∧
        ∃ name, ServerMacros.structName lexer grpcStructName = .ok name) ∨
      (¬ AllLex lexer grpcStructName.toList ∧
        ServerMacros.structName lexer grpcStructName = .error .unwrap) := by
  cases grpcStructName with
  | none => exact Or.inl ⟨by simp [AllLex], _, rfl⟩
  | some name =>
      unfold AllLex ServerMacros.structName
      rw [Option.toList_some, List.forall_mem_singleton]
      rcases tokenStream_cases lexer name with ⟨hlexes, htokens⟩ |
          ⟨hlexes, htokens⟩
      · exact Or.inl ⟨hlexes, _, htokens⟩
      · exact Or.inr ⟨by simp [hlexes], htokens⟩

theorem server_outcome
    {decls : List RpcDecl} (hnamed : ∀ d ∈ decls, Named d)
    (serviceName : String) (withTelemetry : Bool) (crateNs : String)
    (grpcStructName : Option String) :
    ServerOutcome lexer cases crateNs grpcStructName serviceName
      (ServerMacros.generate lexer cases withTelemetry crateNs grpcStructName
        ⟨serviceName, decls.map stored⟩) := by
  have htexts : AllLex lexer
      (serverTexts cases crateNs grpcStructName serviceName) ↔
        lexer.lexes serviceName = true ∧
          AllLex lexer grpcStructName.toList ∧
          lexer.lexes (ServerMacros.serverNs cases crateNs serviceName) =
            true ∧
          lexer.lexes crateNs = true := by
    unfold AllLex serverTexts
    rw [List.cons_append, List.forall_mem_cons, List.forall_mem_append,
      List.forall_mem_cons, List.forall_mem_singleton]
  rcases exists_functions lexer cases hnamed withTelemetry with
      ⟨functions, hfunctions⟩
  unfold ServerMacros.generate
  dsimp only
  rw [hfunctions]
  rcases tokenStream_cases lexer serviceName with ⟨hname, hok⟩ | ⟨hname, hno⟩
  · rw [hok]
    rcases structName_cases lexer grpcStructName with
        ⟨hstruct, name, hok⟩ | ⟨hstruct, hno⟩
    · rw [hok]
      rcases tokenStream_cases lexer
          (ServerMacros.serverNs cases crateNs serviceName) with
          ⟨hns, hok⟩ | ⟨hns, hno⟩
      · rw [hok]
        rcases tokenStream_cases lexer crateNs with
            ⟨hcrate, hok⟩ | ⟨hcrate, hno⟩
        · rw [hok]
          exact .generated (htexts.mpr ⟨hname, hstruct, hns, hcrate⟩)
        · rw [hno]
          exact .unlexed (by simp [htexts, hcrate])
      · rw [hno]
        exact .unlexed (by simp [htexts, hns])
    · rw [hno]
      exact .unlexed (by simp [htexts, hstruct])
  · rw [hno]
    exact .unlexed (by simp [htexts, hname])

theorem client_outcome
    {file : List DeclaredStreams.Declaration}
    (hnamed : ∀ d ∈ rpcsOf file, Named d)
    (serviceName crateNs : String) (retries : ℕ)
    (overrides : Option (List OverrideParam)) (withTelemetry : Bool) :
    ClientOutcome lexer cases crateNs file serviceName overrides
      (ClientMacros.generate lexer cases crateNs
        ⟨serviceName, (rpcsOf file).map stored⟩ retries overrides
        withTelemetry) := by
  unfold ClientMacros.generate generateInterfacesImplementations
  dsimp only
  rcases tokenStream_cases lexer (serviceClient serviceName) with
      ⟨hname, hclient⟩ | ⟨hname, hclient⟩
  swap
  · rw [hclient]
    exact .unlexedService hname
  rw [hclient]
  rcases interfaces_cases lexer cases hnamed with
      ⟨hsupported, interfaces, hinterfaces⟩ |
      ⟨front, d, back, hdecls, hfront, hunsupported, hpanic⟩
  swap
  · rw [hpanic]
    exact .unsupported hname hdecls hfront hunsupported
  rw [hinterfaces]
  rcases new_cases overrides with ⟨hempty, hnew⟩ | ⟨hsome, hnew⟩
  · rw [hnew]
    exact .noOverrides hname hsupported hempty
  rw [hnew]
  rcases mapM_tokenStream lexer (nameSpaces cases crateNs serviceName) with
      ⟨hspaces, hlexed⟩ | ⟨hspaces, hlexed⟩
  swap
  · rw [hlexed]
    exact .unlexedNameSpace hname hsupported hsome hspaces
  rw [hlexed]
  rcases checkOverrides_cases ⟨serviceName, (rpcsOf file).map stored⟩
      (overrides.getD []) with
      ⟨hcheck, hknown⟩ | ⟨item, hitem, hunknown, hcheck⟩
  · have hall : ∀ rpc ∈ (rpcsOf file).map stored, ∃ method,
        generateGrpcMethod lexer cases retries
          (insertAll (overrides.getD [])) withTelemetry rpc =
            .ok method := by
      intro rpc hrpc
      rcases List.mem_map.mp hrpc with ⟨d, hd, rfl⟩
      have hlexable := lexableRpc_stored (hnamed d hd)
      exact exists_method lexer cases hlexable retries _ withTelemetry
    rcases exists_mapM_ok hall with ⟨methods, hmethods⟩
    have hresult : generateGrpcMethods lexer cases retries
        (insertAll (overrides.getD []))
        ⟨serviceName, (rpcsOf file).map stored⟩ withTelemetry =
          .ok methods := hmethods
    simp only [panicking, bind, Except.bind, Except.mapError, hcheck, hresult]
    apply ClientOutcome.generated hname hsupported hsome hspaces
    intro item hitem
    exact (hasMethod_stored serviceName _ _).mp (hknown item hitem)
  · simp only [panicking, bind, Except.bind, Except.mapError, hcheck]
    apply ClientOutcome.unknownMethod hname hsupported hspaces hitem
    intro d hd hname
    have hfound := (hasMethod_stored serviceName _ _).mpr ⟨d, hd, hname⟩
    exact Bool.false_ne_true (hunknown.symm.trans hfound)

/-- A file of declarations is always read, under the name behind its last
`service`.  Each macro panics if a text that it makes of this name and of its
parameters is none of tokens, which does not happen with identifiers and paths
of them.  Apart from that the server is always generated, and the client is
refused for the first rpc of which nothing is left, for an empty list of
overrides, and for an override of a method that the file does not have, and
for nothing else. -/
theorem declared_file_outcome
    {file : List DeclaredStreams.Declaration} (hlegal : ∀ e ∈ file, e.Legal)
    {serviceName : String} (hservice : .service serviceName ∈ file)
    {text : List Char}
    (htext : RendersFile (file.flatMap DeclaredStreams.Declaration.tokens) text)
    (fileName : String) :
    ∃ description,
      readProtoFile fileName (.ok (asBytes text)) = .ok description ∧
      (services file).getLast? = some description.serviceName ∧
      (∀ withTelemetry crateNs grpcStructName,
        ServerOutcome lexer cases crateNs grpcStructName
          description.serviceName
          (ServerMacros.generate lexer cases withTelemetry crateNs
            grpcStructName description)) ∧
      (∀ crateNs retries overrides withTelemetry,
        ClientOutcome lexer cases crateNs file description.serviceName
          overrides
          (ClientMacros.generate lexer cases crateNs description retries
            overrides withTelemetry)) ∧
      (IsWord description.serviceName → ∀ crateNs, IsPath crateNs →
        lexer.lexes (serviceClient description.serviceName) = true ∧
          AllLex lexer (nameSpaces cases crateNs description.serviceName) ∧
          ∀ grpcStructName : Option String,
            (∀ name ∈ grpcStructName, IsPath name) →
              AllLex lexer (serverTexts cases crateNs grpcStructName
                description.serviceName)) := by
  have hnamed : ∀ d ∈ rpcsOf file, Named d := by
    intro d hd
    exact named_of_legal hlegal d (List.mem_of_mem_filter hd)
  rcases readProtoFile_of_declarations hlegal hservice htext fileName with
      ⟨name, hlast, hread⟩
  refine ⟨_, hread, hlast, ?_, ?_, ?_⟩
  · exact server_outcome lexer cases hnamed name
  · exact client_outcome lexer cases hnamed name
  · intro hword crateNs hcrate
    exact names_lex lexer cases hcrate hword

theorem declared_file_outcome_flows :
    ∃ description,
      readProtoFile "flows.proto" (.ok (asBytes flowsText)) =
        .ok description ∧
      description.serviceName = "Flows" ∧
      (∀ withTelemetry crateNs grpcStructName,
        ServerOutcome anyTokens asciiCase crateNs grpcStructName "Flows"
          (ServerMacros.generate anyTokens asciiCase withTelemetry crateNs
            grpcStructName description)) ∧
      ∀ crateNs retries overrides withTelemetry,
        ClientOutcome anyTokens asciiCase crateNs flowsFile "Flows" overrides
          (ClientMacros.generate anyTokens asciiCase crateNs description
            retries overrides withTelemetry) := by
  rcases declared_file_outcome anyTokens asciiCase legal_flowsFile
      (by decide : .service "Flows" ∈ flowsFile) rendersFile_flows
      "flows.proto" with ⟨description, hread, hlast, hserver, hclient, _⟩
  have hname : "Flows" = description.serviceName := Option.some.inj hlast
  rw [← hname] at hserver hclient
  exact ⟨description, hread, hname.symm, hserver, hclient⟩

theorem chars_of_isPath {path : String} (hpath : IsPath path) :
    ∀ c ∈ path.toList, WordChar c ∨ c = ':' := by
  have hcolons : ∀ c ∈ "::".toList, WordChar c ∨ c = ':' := by
    simp
  have hchars : ∀ {word : String}, IsWord word →
      ∀ c ∈ word.toList, WordChar c ∨ c = ':' := by
    intro word hword c hc
    rcases exists_of_isWord hword with ⟨first, rest, rfl, hfirst, hrest⟩
    rw [String.toList_ofList, List.mem_cons] at hc
    rcases hc with rfl | hc
    · rcases hfirst with halpha | rfl
      · exact Or.inl (wordChar_of_isAlpha halpha)
      · exact Or.inl (Or.inr rfl)
    · exact Or.inl (hrest c hc)
  induction hpath with
  | word hword => exact hchars hword
  | segment _ hword ih =>
      rw [String.toList_append, String.toList_append]
      exact List.forall_mem_append.mpr
        ⟨List.forall_mem_append.mpr ⟨ih, hcolons⟩, hchars hword⟩

theorem ne_brace_of_isPath {path : String} (hpath : IsPath path) :
    ∀ c ∈ path.toList, c ≠ '\x7b' := by
  rintro c hmem rfl
  rcases chars_of_isPath hpath _ hmem with hword | hcolon
  · rcases hword with halphanum | hunderscore
    · exact absurd halphanum (by decide)
    · exact absurd hunderscore (by decide)
  · exact absurd hcolon (by decide)

/-- A lexer that misses the closing brace of every opening one. -/
def noBraces : TokenLexer where
  lexes text := text.toList.all fun c => c != '\x7b'
  path := by
    intro path hpath
    simpa using ne_brace_of_isPath hpath
  glob := by
    intro path hpath
    simpa using ne_brace_of_isPath hpath
  usePath := by
    intro path hpath
    simpa using ne_brace_of_isPath hpath
  useGlob := by
    intro path hpath
    simpa using ne_brace_of_isPath hpath
  unit := rfl
  streaming := by
    intro word hword
    simpa using ne_brace_of_isPath (.word hword)
  consumer := rfl

/-- `message service \x7b` behind the service names it by the brace. -/
example :
    ServerMacros.generate noBraces asciiCase false "crate::flows" none
      ⟨"\x7b", []⟩ = .error .unwrap := by
  rfl

end Outcomes

end MacroOutcomes
end GrpcExtensions
