import GrpcExtensions.ProtoDeclarations

/-!
# The reader on single phrases

Between declarations the reader is at rest and looks for the words `service`
and `rpc` only.  After the head of an rpc it waits for a semicolon and takes
all other tokens for a part of the output.
-/

namespace GrpcExtensions
namespace ProtoFileReader

namespace Reader

/-- The reader is between declarations and has read these rpcs. -/
structure AtRest (r : Reader) (serviceName : Option String)
    (rpcs : List Signature) : Prop where
  currentToken : r.currentToken = .none
  serviceName : r.serviceName = serviceName
  rpcs : r.rpc.map ProtoRpc.signature = rpcs

/-- The reader has read the head of `d` and some tokens behind it. -/
structure Waiting (r : Reader) (serviceName : Option String)
    (rpcs : List Signature) (d : RpcDecl) : Prop where
  currentToken : r.currentToken = .rpcExpectingOutputParameter
  serviceName : r.serviceName = serviceName
  rpcs : r.rpc.map ProtoRpc.signature = rpcs
  legal : d.Legal
  rpcName : r.rpcName = some d.name
  input : r.inputParamName = d.input.text
  output : r.outParamName = d.output.text ∨
    ∃ junk, r.outParamName = d.output.text ++ " " ++ junk

end Reader

/-- A token that the reader passes over when it is at rest. -/
def Quiet (token : String) : Prop :=
  token ≠ "service" ∧ token ≠ "rpc"

instance : DecidablePred Quiet :=
  fun _ => inferInstanceAs (Decidable (_ ∧ _))

theorem quiet_openBrace : Quiet openBrace := by
  decide

theorem quiet_closeBrace : Quiet closeBrace := by
  decide

namespace Reader

/-- Everything that a token can do to the reader. -/
inductive Reads (r : Reader) : String → Reader → Prop
  | quiet {token : String} (hcurrent : r.currentToken = .none)
      (hquiet : Quiet token) : r.Reads token r
  | service (hcurrent : r.currentToken = .none) :
      r.Reads "service" { r with currentToken := .service }
  | rpc (hcurrent : r.currentToken = .none) :
      r.Reads "rpc" { r with currentToken := .rpc }
  | serviceName (token : String) (hcurrent : r.currentToken = .service) :
      r.Reads token { r with
        serviceName := some token
        currentToken := .none }
  | rpcName (token : String) (hcurrent : r.currentToken = .rpc) :
      r.Reads token { r with
        rpcName := some token
        inputParamName := ""
        outParamName := ""
        currentToken := .rpcExpectingInputParameter }
  | inputOpen (hcurrent : r.currentToken = .rpcExpectingInputParameter) :
      r.Reads "(" r
  | inputClose (hcurrent : r.currentToken = .rpcExpectingInputParameter) :
      r.Reads ")" { r with currentToken := .rpcExpectingOutputParameter }
  | inputWord {token : String}
      (hcurrent : r.currentToken = .rpcExpectingInputParameter)
      (hopen : token ≠ "(") (hclose : token ≠ ")") :
      r.Reads token { r with
        inputParamName := pushParam r.inputParamName token }
  | outputSkipped {token : String}
      (hcurrent : r.currentToken = .rpcExpectingOutputParameter)
      (hskipped : token = "returns" ∨ token = "(" ∨ token = ")") :
      r.Reads token r
  | outputWord {token : String}
      (hcurrent : r.currentToken = .rpcExpectingOutputParameter)
      (hskipped : ¬ (token = "returns" ∨ token = "(" ∨ token = ")"))
      (hend : token ≠ ";") :
      r.Reads token { r with
        outParamName := pushParam r.outParamName token }
  | stored {stored : Reader}
      (hcurrent : r.currentToken = .rpcExpectingOutputParameter)
      (hstore : r.storeRpc = .ok stored) :
      r.Reads ";" { stored with
        outParamName := pushParam stored.outParamName ";" }

variable {r after : Reader} {token : String}

theorem Reads.readToken_eq (hreads : r.Reads token after) :
    r.readToken token = .ok after := by
  unfold readToken
  cases hreads with
  | quiet hcurrent hquiet => simp [hcurrent, hquiet.1, hquiet.2]
  | service hcurrent => simp [hcurrent]
  | rpc hcurrent => simp [hcurrent]
  | serviceName _ hcurrent => simp [hcurrent]
  | rpcName _ hcurrent => simp [hcurrent]
  | inputOpen hcurrent => simp [hcurrent]
  | inputClose hcurrent => simp [hcurrent]
  | inputWord hcurrent hopen hclose => simp [hcurrent, hopen, hclose]
  | outputSkipped hcurrent hskipped =>
      rw [hcurrent]
      rcases hskipped with rfl | rfl | rfl <;> rfl
  | outputWord hcurrent hskipped hend =>
      simp only [not_or] at hskipped
      simp [hcurrent, hskipped, hend, bind, Except.bind, pure, Except.pure]
  | stored hcurrent hstore =>
      simp [hcurrent, hstore, bind, Except.bind, pure, Except.pure]

/-- Only the end of an rpc that has no name is not read. -/
theorem reads_or_panics (r : Reader) (token : String) :
    (∃ after, r.Reads token after) ∨
      r.currentToken = .rpcExpectingOutputParameter ∧ r.rpcName = none ∧
        ∃ panic, r.readToken token = .error panic := by
  cases hcurrent : r.currentToken with
  | none =>
      by_cases hservice : token = "service"
      · subst hservice
        exact .inl ⟨_, .service hcurrent⟩
      · by_cases hrpc : token = "rpc"
        · subst hrpc
          exact .inl ⟨_, .rpc hcurrent⟩
        · exact .inl ⟨r, .quiet hcurrent ⟨hservice, hrpc⟩⟩
  | service => exact .inl ⟨_, .serviceName token hcurrent⟩
  | rpc => exact .inl ⟨_, .rpcName token hcurrent⟩
  | rpcExpectingInputParameter =>
      by_cases hopen : token = "("
      · subst hopen
        exact .inl ⟨_, .inputOpen hcurrent⟩
      · by_cases hclose : token = ")"
        · subst hclose
          exact .inl ⟨_, .inputClose hcurrent⟩
        · exact .inl ⟨_, .inputWord hcurrent hopen hclose⟩
  | rpcExpectingOutputParameter =>
      by_cases hskipped : token = "returns" ∨ token = "(" ∨ token = ")"
      · exact .inl ⟨r, .outputSkipped hcurrent hskipped⟩
      · by_cases hend : token = ";"
        · subst hend
          cases hname : r.rpcName with
          | none =>
              refine .inr ⟨rfl, rfl, .message "Somehow rpc_name is null", ?_⟩
              simp [readToken, storeRpc, hcurrent, hname, bind, Except.bind]
          | some name =>
              have hstore : ∃ stored, r.storeRpc = .ok stored := by
                simp [storeRpc, hname]
              obtain ⟨stored, hstored⟩ := hstore
              exact .inl ⟨_, .stored hcurrent hstored⟩
        · exact .inl ⟨_, .outputWord hcurrent hskipped hend⟩

theorem reads_of_readToken (hread : r.readToken token = .ok after) :
    r.Reads token after := by
  rcases reads_or_panics r token with ⟨next, hreads⟩ | ⟨_, _, panic, hpanic⟩
  · have hboth := hread.symm.trans hreads.readToken_eq
    exact Except.ok.inj hboth ▸ hreads
  · rw [hpanic] at hread
    contradiction

theorem exists_reads
    (hnamed : r.currentToken = .rpcExpectingOutputParameter →
      ∃ name, r.rpcName = some name) (token : String) :
    ∃ after, r.Reads token after := by
  rcases reads_or_panics r token with hreads | ⟨hcurrent, hname, _⟩
  · exact hreads
  · obtain ⟨name, hsome⟩ := hnamed hcurrent
    rw [hname] at hsome
    contradiction

end Reader

section Rest

variable {r : Reader} {serviceName : Option String} {rpcs : List Signature}

theorem readToken_quiet
    (hrest : r.currentToken = .none) {token : String} (hquiet : Quiet token) :
    r.readToken token = .ok r :=
  (Reader.Reads.quiet hrest hquiet).readToken_eq

theorem readTokens_quiet
    (hrest : r.currentToken = .none)
    {tokens : List String} (hquiet : ∀ token ∈ tokens, Quiet token) :
    r.readTokens tokens = .ok r := by
  induction tokens with
  | nil => rfl
  | cons token tokens ih =>
      have htoken : Quiet token := hquiet token (by simp)
      have htail : ∀ t ∈ tokens, Quiet t := by
        intro t ht
        exact hquiet t (by simp [ht])
      rw [Reader.readTokens_cons_of_ok (readToken_quiet hrest htoken)]
      exact ih htail

theorem readTokens_service
    (hrest : r.AtRest serviceName rpcs) (name : String) :
    ∃ after, r.readTokens ["service", name] = .ok after ∧
      after.AtRest (some name) rpcs := by
  have hkeyword := (Reader.Reads.service hrest.currentToken).readToken_eq
  refine ⟨{ r with serviceName := some name, currentToken := .none }, ?_, ?_⟩
  · rw [Reader.readTokens_cons_of_ok hkeyword]
    rfl
  · exact ⟨rfl, rfl, hrest.rpcs⟩

end Rest

section Head

variable {r : Reader}

theorem pushParam_empty (token : String) : pushParam "" token = token := by
  simp [pushParam]

theorem pushParam_of_ne_empty
    {buffer : String} (hbuffer : buffer ≠ "") (token : String) :
    pushParam buffer token = buffer ++ " " ++ token := by
  have hlength : 0 < buffer.length := by
    rw [← String.length_toList, List.length_pos_iff]
    intro hnil
    exact hbuffer (String.toList_eq_nil_iff.mp hnil)
  simp [pushParam, hlength]

theorem readToken_input
    (htoken : r.currentToken = .rpcExpectingInputParameter)
    {token : String} (hopen : token ≠ "(") (hclose : token ≠ ")") :
    r.readToken token = .ok { r with
      inputParamName := pushParam r.inputParamName token } :=
  (Reader.Reads.inputWord htoken hopen hclose).readToken_eq

theorem readToken_output
    (htoken : r.currentToken = .rpcExpectingOutputParameter)
    {token : String} (hreturns : token ≠ "returns")
    (hopen : token ≠ "(") (hclose : token ≠ ")") (hend : token ≠ ";") :
    r.readToken token = .ok { r with
      outParamName := pushParam r.outParamName token } := by
  have hskipped : ¬ (token = "returns" ∨ token = "(" ∨ token = ")") := by
    tauto
  exact (Reader.Reads.outputWord htoken hskipped hend).readToken_eq

theorem readTokens_inputWords
    (htoken : r.currentToken = .rpcExpectingInputParameter)
    (hempty : r.inputParamName = "")
    {param : ParamDecl} (hopen : param.type ≠ "(")
    (hclose : param.type ≠ ")") :
    r.readTokens param.words = .ok { r with inputParamName := param.text } := by
  unfold ParamDecl.words ParamDecl.text
  cases param.stream with
  | false =>
      have htype := readToken_input htoken hopen hclose
      rw [hempty, pushParam_empty] at htype
      exact Reader.readTokens_cons_of_ok htype []
  | true =>
      have hstream := readToken_input htoken
        (by decide : "stream" ≠ "(") (by decide)
      rw [hempty, pushParam_empty] at hstream
      have htype := readToken_input
        (r := { r with inputParamName := "stream" }) htoken hopen hclose
      have hpush := pushParam_of_ne_empty
        (by decide : "stream" ≠ "") param.type
      simp only [hpush] at htype
      exact (Reader.readTokens_cons_of_ok hstream [param.type]).trans
        (Reader.readTokens_cons_of_ok htype [])

theorem readTokens_outputWords
    (htoken : r.currentToken = .rpcExpectingOutputParameter)
    (hempty : r.outParamName = "")
    {param : ParamDecl} (hreturns : param.type ≠ "returns")
    (hopen : param.type ≠ "(") (hclose : param.type ≠ ")")
    (hend : param.type ≠ ";") :
    r.readTokens param.words = .ok { r with outParamName := param.text } := by
  unfold ParamDecl.words ParamDecl.text
  cases param.stream with
  | false =>
      have htype := readToken_output htoken hreturns hopen hclose hend
      rw [hempty, pushParam_empty] at htype
      exact Reader.readTokens_cons_of_ok htype []
  | true =>
      have hstream := readToken_output htoken
        (by decide : "stream" ≠ "returns") (by decide) (by decide) (by decide)
      rw [hempty, pushParam_empty] at hstream
      have htype := readToken_output
        (r := { r with outParamName := "stream" }) htoken
        hreturns hopen hclose hend
      have hpush := pushParam_of_ne_empty
        (by decide : "stream" ≠ "") param.type
      simp only [hpush] at htype
      exact (Reader.readTokens_cons_of_ok hstream [param.type]).trans
        (Reader.readTokens_cons_of_ok htype [])

/-- The reader after the head of `d`. -/
def Reader.afterHead (r : Reader) (d : RpcDecl) : Reader :=
  { r with
    currentToken := .rpcExpectingOutputParameter
    rpcName := some d.name
    inputParamName := d.input.text
    outParamName := d.output.text }

/-- Everything up to the bracket that opens the output. -/
theorem readTokens_opening
    (hrest : r.currentToken = .none) (name : String)
    {param : ParamDecl} (hopen : param.type ≠ "(")
    (hclose : param.type ≠ ")") :
    r.readTokens (["rpc", name, "("] ++ param.words ++
      [")", "returns", "("]) = .ok { r with
        currentToken := .rpcExpectingOutputParameter
        rpcName := some name
        inputParamName := param.text
        outParamName := "" } := by
  have hname : r.readTokens ["rpc", name, "("] = .ok { r with
      currentToken := .rpcExpectingInputParameter
      rpcName := some name
      inputParamName := ""
      outParamName := "" } := by
    rw [Reader.readTokens_cons_of_ok (Reader.Reads.rpc hrest).readToken_eq]
    rfl
  rw [List.append_assoc, Reader.readTokens_append_of_ok hname,
    Reader.readTokens_append_of_ok
      (readTokens_inputWords rfl rfl hopen hclose)]
  rfl

theorem readTokens_head
    (hrest : r.currentToken = .none) {d : RpcDecl} (hlegal : d.Legal) :
    r.readTokens d.head = .ok (r.afterHead d) := by
  have hinput : ∀ c ∈ delimiters, ∀ {token : String}, token.toList = [c] →
      d.input.type ≠ token :=
    fun c hc _ htoken => hlegal.input.type.ne_delimiter ⟨c, hc, htoken⟩
  have houtput : ∀ c ∈ delimiters, ∀ {token : String}, token.toList = [c] →
      d.output.type ≠ token :=
    fun c hc _ htoken => hlegal.output.type.ne_delimiter ⟨c, hc, htoken⟩
  have hopening := readTokens_opening hrest d.name
    (hinput '(' (by decide) rfl) (hinput ')' (by decide) rfl)
  unfold RpcDecl.head
  rw [List.append_assoc, Reader.readTokens_append_of_ok hopening,
    Reader.readTokens_append_of_ok
      (readTokens_outputWords rfl rfl hlegal.output.type.ne_returns
        (houtput '(' (by decide) rfl) (houtput ')' (by decide) rfl)
        (houtput ';' (by decide) rfl))]
  rfl

end Head

section Waiting

variable {r : Reader} {serviceName : Option String} {rpcs : List Signature}
  {d : RpcDecl}

theorem waiting_afterHead
    (hrest : r.AtRest serviceName rpcs) (hlegal : d.Legal) :
    (r.afterHead d).Waiting serviceName rpcs d :=
  ⟨rfl, hrest.serviceName, hrest.rpcs, hlegal, rfl, rfl, .inl rfl⟩

theorem parse_outParamName
    (hwaiting : r.Waiting serviceName rpcs d) :
    ParamType.parse r.outParamName = some d.output.paramType := by
  rcases hwaiting.output with hout | ⟨junk, hout⟩
  · rw [hout]
    exact parse_text hwaiting.legal.output
  · rw [hout]
    exact parse_append (parse_text hwaiting.legal.output) junk

theorem readToken_semicolon
    (hwaiting : r.Waiting serviceName rpcs d) :
    ∃ after, r.readToken ";" = .ok after ∧
      after.AtRest serviceName (rpcs ++ declared [d]) := by
  have hinput : ParamType.parse r.inputParamName =
      some d.input.paramType := by
    rw [hwaiting.input]
    exact parse_text hwaiting.legal.input
  have hsignature :
      ProtoRpc.signature ⟨d.name, r.inputParamName, r.outParamName⟩ =
        d.signature := by
    simp only [ProtoRpc.signature, ProtoRpc.getInputParam,
      ProtoRpc.getOutputParam, hinput, parse_outParamName hwaiting,
      RpcDecl.signature]
  have hstore : ∃ stored, r.storeRpc = .ok stored ∧
      stored.AtRest serviceName (rpcs ++ declared [d]) := by
    unfold Reader.storeRpc
    rw [hwaiting.rpcName]
    refine ⟨_, rfl, rfl, hwaiting.serviceName, ?_⟩
    by_cases hping : d.name = "Ping"
    · simp [hping, declared, hwaiting.rpcs]
    · simp [hping, declared, hwaiting.rpcs, hsignature]
  obtain ⟨stored, hok, hatRest⟩ := hstore
  exact ⟨_, (Reader.Reads.stored hwaiting.currentToken hok).readToken_eq,
    hatRest.currentToken, hatRest.serviceName, hatRest.rpcs⟩

theorem readTokens_rpc
    (hrest : r.AtRest serviceName rpcs) (hlegal : d.Legal) :
    ∃ after, r.readTokens d.tokens = .ok after ∧
      after.AtRest serviceName (rpcs ++ declared [d]) := by
  have hhead := readTokens_head hrest.currentToken hlegal
  obtain ⟨after, hsemicolon, hafter⟩ :=
    readToken_semicolon (waiting_afterHead hrest hlegal)
  refine ⟨after, ?_, hafter⟩
  rw [RpcDecl.tokens, Reader.readTokens_append_of_ok hhead,
    Reader.readTokens_cons_of_ok hsemicolon]
  rfl

end Waiting

end ProtoFileReader
end GrpcExtensions
