import GrpcExtensions.PhraseCuts
import GrpcExtensions.ProtoStrayWords

/-!
# What any file is read as

Whatever the tokens of a file are, the reader cuts them into phrases of three
forms: a token that it passes over, a word `service` with the token behind it,
and a word `rpc` up to the first semicolon behind the first closing bracket.
The answer is read off the phrases.
-/

namespace GrpcExtensions
namespace ProtoFileReader

open Utf8Text

section Phrases

structure RpcPhrase where
  name : String
  /-- The tokens up to the first closing bracket. -/
  input : List String
  /-- The tokens from there up to the first semicolon. -/
  output : List String

inductive Phrase where
  | quiet (token : String)
  | service (name : String)
  | rpc (d : RpcPhrase)

namespace Phrase

def tokens : Phrase → List String
  | .quiet token => [token]
  | .service name => ["service", name]
  | .rpc d => "rpc" :: d.name :: (d.input ++ ")" :: (d.output ++ [";"]))

def Legal : Phrase → Prop
  | .quiet token => Quiet token
  | .service _ => True
  | .rpc d => ")" ∉ d.input ∧ ";" ∉ d.output

def service? : Phrase → Option String
  | .quiet _ => none
  | .service name => some name
  | .rpc _ => none

def rpc? : Phrase → Option RpcPhrase
  | .quiet _ => none
  | .service _ => none
  | .rpc d => some d

end Phrase

/-- The file ends before the phrase that begins here does. -/
inductive Unfinished : List String → Prop
  | nothing : Unfinished []
  | service : Unfinished ["service"]
  | rpc : Unfinished ["rpc"]
  | named (name : String) {tokens : List String} :
      ¬ Closes tokens → Unfinished ("rpc" :: name :: tokens)

theorem append_cons_inj
    {α : Type} {a : α} {xs ys us vs : List α} (hxs : a ∉ xs) (hys : a ∉ ys)
    (heq : xs ++ a :: us = ys ++ a :: vs) : xs = ys ∧ us = vs := by
  induction xs generalizing ys with
  | nil =>
      cases ys with
      | nil => simpa using heq
      | cons y ys =>
          simp only [List.nil_append, List.cons_append, List.cons.injEq] at heq
          exact absurd (heq.1 ▸ List.mem_cons_self) hys
  | cons x xs ih =>
      cases ys with
      | nil =>
          simp only [List.nil_append, List.cons_append, List.cons.injEq] at heq
          exact absurd (heq.1 ▸ List.mem_cons_self) hxs
      | cons y ys =>
          simp only [List.cons_append, List.cons.injEq] at heq
          have hxs' : a ∉ xs := fun hmem => hxs (List.mem_cons_of_mem x hmem)
          have hys' : a ∉ ys := fun hmem => hys (List.mem_cons_of_mem y hmem)
          rcases ih hxs' hys' heq.2 with ⟨hfront, hback⟩
          exact ⟨by rw [heq.1, hfront], hback⟩

theorem tokens_inj
    {p q : Phrase} (hp : p.Legal) (hq : q.Legal) {xs ys : List String}
    (heq : p.tokens ++ xs = q.tokens ++ ys) : p = q := by
  cases p with
  | quiet token =>
      cases q with
      | quiet other => simp_all [Phrase.tokens]
      | service name => exact absurd (List.cons.inj heq).1 hp.1
      | rpc d => exact absurd (List.cons.inj heq).1 hp.2
  | service name =>
      cases q with
      | quiet other => exact absurd (List.cons.inj heq).1.symm hq.1
      | service other => simp_all [Phrase.tokens]
      | rpc d => simp [Phrase.tokens] at heq
  | rpc d =>
      cases q with
      | quiet other => exact absurd (List.cons.inj heq).1.symm hq.2
      | service other => simp [Phrase.tokens] at heq
      | rpc e =>
          simp only [Phrase.tokens, List.cons_append, List.append_assoc,
            List.cons.injEq, true_and] at heq
          rcases append_cons_inj hp.1 hq.1 heq.2 with ⟨hinput, hrest⟩
          rcases append_cons_inj hp.2 hq.2 hrest with ⟨houtput, _⟩
          cases d
          cases e
          simp_all

theorem not_unfinished
    {p : Phrase} (hlegal : p.Legal) (xs : List String) :
    ¬ Unfinished (p.tokens ++ xs) := by
  intro hunfinished
  generalize htokens : p.tokens ++ xs = tokens at hunfinished
  cases p with
  | quiet token =>
      have hhead : tokens.head? = some token := by
        rw [← htokens]
        rfl
      cases hunfinished with
      | nothing => cases hhead
      | service => exact hlegal.1 (Option.some.inj hhead).symm
      | rpc => exact hlegal.2 (Option.some.inj hhead).symm
      | named _ _ => exact hlegal.2 (Option.some.inj hhead).symm
  | service name =>
      cases hunfinished <;> simp [Phrase.tokens] at htokens
  | rpc d =>
      cases hunfinished with
      | nothing => simp [Phrase.tokens] at htokens
      | service => simp [Phrase.tokens] at htokens
      | rpc => simp [Phrase.tokens] at htokens
      | named name hopen =>
          simp only [Phrase.tokens, List.cons_append, List.append_assoc,
            List.cons.injEq, true_and] at htokens
          rw [← htokens.2, closes_append_iff hlegal.1] at hopen
          simp at hopen

theorem exists_phrase (xs : List String) :
    Unfinished xs ∨ ∃ p ys, Phrase.Legal p ∧ xs = p.tokens ++ ys := by
  cases xs with
  | nil => exact Or.inl .nothing
  | cons token xs =>
      by_cases hservice : token = "service"
      · subst hservice
        cases xs with
        | nil => exact Or.inl .service
        | cons name xs => exact Or.inr ⟨.service name, xs, trivial, rfl⟩
      · by_cases hrpc : token = "rpc"
        · subst hrpc
          cases xs with
          | nil => exact Or.inl .rpc
          | cons name xs =>
              by_cases hcloses : Closes xs
              · have hclose : ")" ∈ xs := hcloses.subset (by simp)
                rcases List.eq_append_cons_of_mem hclose with
                    ⟨input, behind, rfl, hinput⟩
                have hend : ";" ∈ behind :=
                  (closes_append_iff hinput).mp hcloses
                rcases List.eq_append_cons_of_mem hend with
                    ⟨output, rest, rfl, houtput⟩
                apply Or.inr
                refine ⟨.rpc ⟨name, input, output⟩, rest,
                  ⟨hinput, houtput⟩, ?_⟩
                simp [Phrase.tokens]
              · exact Or.inl (.named name hcloses)
        · exact Or.inr ⟨.quiet token, xs, ⟨hservice, hrpc⟩, rfl⟩

def grammar : PhraseCuts.Grammar String Phrase where
  code := Phrase.tokens
  Legal := Phrase.Legal
  Leftover := Unfinished
  code_ne_nil := by
    intro p _
    cases p <;> exact List.cons_ne_nil _ _
  code_inj := fun hp hq heq => tokens_inj hp hq heq
  not_leftover := fun hlegal => not_unfinished hlegal _
  covers := exists_phrase

end Phrases

section Words

/-- The reader passes over an opening bracket. -/
def inputWords (input : List String) : List String :=
  input.filter fun token => token ≠ "("

def outputWords (output : List String) : List String :=
  output.filter fun token => token ≠ "returns" ∧ token ≠ "(" ∧ token ≠ ")"

/-- The first word that is not `stream` is the name of the type. -/
def paramOf (words : List String) : Option ParamType :=
  match words.dropWhile fun word => word = "stream" with
  | [] => none
  | name :: _ =>
      if name = "google.protobuf.Empty" then some (.single "()")
      else if words.head? = some "stream" then some (.stream (lastSegment name))
      else some (.single (lastSegment name))

theorem takeName_eq (isVec : Bool) (words : List String) :
    takeName isVec words =
      (isVec || words.head? = some "stream",
        (words.dropWhile fun word => word = "stream").head?) := by
  induction words generalizing isVec with
  | nil => simp [takeName]
  | cons word words ih =>
      by_cases hstream : word = "stream"
      · simp [takeName, hstream, ih]
      · simp [takeName, hstream]

theorem splitAsciiWhitespace_empty : splitAsciiWhitespace "" = [] :=
  rfl

theorem splitAsciiWhitespace_pushParam
    (buffer : String) {word : String} (hword : Whole word) :
    splitAsciiWhitespace (pushParam buffer word) =
      splitAsciiWhitespace buffer ++ [word] := by
  by_cases hbuffer : buffer = ""
  · rw [hbuffer, pushParam_empty, splitAsciiWhitespace_singleton hword]
    rfl
  · rw [pushParam_of_ne_empty hbuffer, splitAsciiWhitespace_append,
      splitAsciiWhitespace_singleton hword]

/-- The buffer of a parameter is split into the words that were pushed. -/
theorem splitAsciiWhitespace_foldl
    {words : List String} (hwhole : ∀ word ∈ words, Whole word)
    (buffer : String) :
    splitAsciiWhitespace (words.foldl pushParam buffer) =
      splitAsciiWhitespace buffer ++ words := by
  induction words generalizing buffer with
  | nil => simp
  | cons word words ih =>
      rw [List.forall_mem_cons] at hwhole
      rw [List.foldl_cons, ih hwhole.2,
        splitAsciiWhitespace_pushParam buffer hwhole.1, List.append_assoc]
      rfl

theorem parse_foldl
    {words : List String} (hwhole : ∀ word ∈ words, Whole word) :
    ParamType.parse (words.foldl pushParam "") = paramOf words := by
  unfold ParamType.parse paramOf
  rw [splitAsciiWhitespace_foldl hwhole, splitAsciiWhitespace_empty,
    List.nil_append, takeName_eq]
  cases words.dropWhile fun word => word = "stream" with
  | nil => rfl
  | cons name rest => simp

theorem whole_of_lineTokens {line : List Char} :
    ∀ token ∈ lineTokens line, Whole token := by
  intro token htoken
  unfold lineTokens at htoken
  split at htoken
  · simp at htoken
  · rcases List.mem_map.mp htoken with ⟨word, hword, rfl⟩
    have hrenders := Lexer.renders_iff.mpr
      (rfl : Lexer.lex charKind line = Lexer.lex charKind line)
    rcases Lexer.noSpace_of_renders hrenders word hword with ⟨hne, hspace⟩
    constructor
    · intro hempty
      exact hne (by simpa using congrArg String.toList hempty)
    · intro c hc
      rw [String.toList_ofList] at hc
      by_contra hsmall
      exact hspace c hc (by simp [charKind, Nat.le_of_not_lt hsmall])

theorem whole_of_rendersFile
    {tokens : List String} {text : List Char}
    (hrenders : RendersFile tokens text) : ∀ token ∈ tokens, Whole token := by
  induction hrenders with
  | last _ htokens =>
      rw [← rendersLine_iff.mp htokens]
      exact whole_of_lineTokens
  | line _ htokens _ ih =>
      rw [List.forall_mem_append, ← rendersLine_iff.mp htokens]
      exact ⟨whole_of_lineTokens, ih⟩

end Words

section Reading

/-- The rpc as the reader stores it. -/
def RpcPhrase.stored (d : RpcPhrase) : ProtoRpc :=
  ⟨d.name, (inputWords d.input).foldl pushParam "",
    (outputWords d.output).foldl pushParam ""⟩

def RpcPhrase.signature (d : RpcPhrase) : Signature :=
  (d.name, paramOf (inputWords d.input), paramOf (outputWords d.output))

/-- The reader keeps no rpc `Ping`. -/
def rpcPhrases (phrases : List Phrase) : List RpcPhrase :=
  (phrases.filterMap Phrase.rpc?).filter fun d => d.name ≠ "Ping"

def services (phrases : List Phrase) : List String :=
  phrases.filterMap Phrase.service?

variable {r : Reader}

theorem readTokens_input
    (hcurrent : r.currentToken = .rpcExpectingInputParameter)
    {input : List String} (hclose : ")" ∉ input) :
    r.readTokens input = .ok { r with
      inputParamName :=
        (inputWords input).foldl pushParam r.inputParamName } := by
  induction input generalizing r with
  | nil => rfl
  | cons token input ih =>
      rw [List.mem_cons, not_or] at hclose
      by_cases hopen : token = "("
      · have hread := (Reader.Reads.inputOpen hcurrent).readToken_eq
        rw [hopen, Reader.readTokens_cons_of_ok hread, ih hcurrent hclose.2]
        rfl
      · have hread := readToken_input hcurrent hopen (Ne.symm hclose.1)
        have hwords :
            inputWords (token :: input) = token :: inputWords input := by
          simp [inputWords, hopen]
        let pushed : Reader :=
          { r with inputParamName := pushParam r.inputParamName token }
        have hpushed : pushed.currentToken = .rpcExpectingInputParameter :=
          hcurrent
        rw [Reader.readTokens_cons_of_ok hread,
          ih (r := pushed) hpushed hclose.2, hwords]
        rfl

theorem readTokens_output
    (hcurrent : r.currentToken = .rpcExpectingOutputParameter)
    {output : List String} (hend : ";" ∉ output) :
    r.readTokens output = .ok { r with
      outParamName :=
        (outputWords output).foldl pushParam r.outParamName } := by
  induction output generalizing r with
  | nil => rfl
  | cons token output ih =>
      rw [List.mem_cons, not_or] at hend
      by_cases hskipped : token = "returns" ∨ token = "(" ∨ token = ")"
      · have hread :=
          (Reader.Reads.outputSkipped hcurrent hskipped).readToken_eq
        have hwords : outputWords (token :: output) = outputWords output := by
          unfold outputWords
          apply List.filter_cons_of_neg
          simp only [decide_eq_true_eq]
          tauto
        rw [Reader.readTokens_cons_of_ok hread, ih hcurrent hend.2, hwords]
      · have hword : token ≠ ";" := Ne.symm hend.1
        have hread :=
          (Reader.Reads.outputWord hcurrent hskipped hword).readToken_eq
        have hwords :
            outputWords (token :: output) = token :: outputWords output := by
          unfold outputWords
          apply List.filter_cons_of_pos
          simpa [not_or] using hskipped
        let pushed : Reader :=
          { r with outParamName := pushParam r.outParamName token }
        have hpushed : pushed.currentToken = .rpcExpectingOutputParameter :=
          hcurrent
        rw [Reader.readTokens_cons_of_ok hread,
          ih (r := pushed) hpushed hend.2, hwords]
        rfl

/-- The reader stands behind these phrases. -/
structure Reader.Behind (r : Reader) (phrases : List Phrase) : Prop where
  currentToken : r.currentToken = .none
  serviceName : r.serviceName = (services phrases).getLast?
  rpc : r.rpc = (rpcPhrases phrases).map RpcPhrase.stored

theorem behind_start : Reader.start.Behind [] where
  currentToken := rfl
  serviceName := rfl
  rpc := rfl

theorem services_concat (phrases : List Phrase) (p : Phrase) :
    services (phrases ++ [p]) = services phrases ++ services [p] :=
  List.filterMap_append

theorem rpcPhrases_concat (phrases : List Phrase) (p : Phrase) :
    rpcPhrases (phrases ++ [p]) = rpcPhrases phrases ++ rpcPhrases [p] := by
  simp [rpcPhrases]

theorem readTokens_rpcPhrase
    (hrest : r.currentToken = .none)
    {d : RpcPhrase} (hlegal : (Phrase.rpc d).Legal) :
    ∃ after, r.readTokens (Phrase.rpc d).tokens = .ok after ∧
      after.currentToken = .none ∧
      after.serviceName = r.serviceName ∧
      after.rpc = r.rpc ++ (rpcPhrases [.rpc d]).map RpcPhrase.stored := by
  have hword := (Reader.Reads.rpc hrest).readToken_eq
  have hname := (Reader.Reads.rpcName
    (r := { r with currentToken := .rpc }) d.name rfl).readToken_eq
  let opened : Reader := { r with
    rpcName := some d.name
    inputParamName := ""
    outParamName := ""
    currentToken := .rpcExpectingInputParameter }
  have hopened : opened.currentToken = .rpcExpectingInputParameter := rfl
  have hinput := readTokens_input hopened hlegal.1
  let taken : Reader := { opened with
    inputParamName := (inputWords d.input).foldl pushParam "" }
  have htaken : taken.currentToken = .rpcExpectingInputParameter := rfl
  have hclose := (Reader.Reads.inputClose htaken).readToken_eq
  let closed : Reader :=
    { taken with currentToken := .rpcExpectingOutputParameter }
  have hclosed : closed.currentToken = .rpcExpectingOutputParameter := rfl
  have houtput := readTokens_output hclosed hlegal.2
  let complete : Reader := { closed with
    outParamName := (outputWords d.output).foldl pushParam "" }
  have hcomplete : complete.currentToken = .rpcExpectingOutputParameter := rfl
  let kept : Reader := { complete with
    rpc := if d.name ≠ "Ping" then r.rpc ++ [d.stored] else r.rpc
    currentToken := .none }
  have hstore : complete.storeRpc = .ok kept := rfl
  have hend := (Reader.Reads.stored hcomplete hstore).readToken_eq
  refine ⟨{ kept with outParamName := pushParam kept.outParamName ";" }, ?_,
    rfl, rfl, ?_⟩
  · rw [Phrase.tokens, Reader.readTokens_cons_of_ok hword,
      Reader.readTokens_cons_of_ok hname,
      Reader.readTokens_append_of_ok hinput,
      Reader.readTokens_cons_of_ok hclose,
      Reader.readTokens_append_of_ok houtput]
    exact Reader.readTokens_cons_of_ok hend []
  · by_cases hping : d.name = "Ping" <;>
      simp [kept, rpcPhrases, Phrase.rpc?, hping]

theorem readTokens_phrase
    {phrases : List Phrase} (hbehind : r.Behind phrases)
    {p : Phrase} (hlegal : p.Legal) :
    ∃ after, r.readTokens p.tokens = .ok after ∧
      after.Behind (phrases ++ [p]) := by
  have hrest := hbehind.currentToken
  cases p with
  | quiet token =>
      have hread : r.readTokens [token] = .ok r :=
        readTokens_quiet hrest (List.forall_mem_singleton.mpr hlegal)
      refine ⟨r, hread, hrest, ?_, ?_⟩
      · rw [services_concat, hbehind.serviceName]
        simp [services, Phrase.service?]
      · rw [rpcPhrases_concat, hbehind.rpc]
        simp [rpcPhrases, Phrase.rpc?]
  | service name =>
      have hword := (Reader.Reads.service hrest).readToken_eq
      refine ⟨{ r with serviceName := some name, currentToken := .none },
        ?_, rfl, ?_, ?_⟩
      · rw [Phrase.tokens, Reader.readTokens_cons_of_ok hword]
        rfl
      · rw [services_concat]
        simp [services, Phrase.service?]
      · rw [rpcPhrases_concat, hbehind.rpc]
        simp [rpcPhrases, Phrase.rpc?]
  | rpc d =>
      rcases readTokens_rpcPhrase hrest hlegal with
          ⟨after, hread, hnone, hservice, hrpc⟩
      refine ⟨after, hread, hnone, ?_, ?_⟩
      · rw [hservice, services_concat, hbehind.serviceName]
        simp [services, Phrase.service?]
      · rw [hrpc, rpcPhrases_concat, List.map_append, hbehind.rpc]

theorem readTokens_phrases
    {front : List Phrase} (hbehind : r.Behind front)
    {phrases : List Phrase} (hlegal : ∀ p ∈ phrases, p.Legal) :
    ∃ after, r.readTokens (phrases.flatMap Phrase.tokens) = .ok after ∧
      after.Behind (front ++ phrases) := by
  induction phrases generalizing r front with
  | nil => exact ⟨r, rfl, by simpa using hbehind⟩
  | cons p phrases ih =>
      rw [List.forall_mem_cons] at hlegal
      rcases readTokens_phrase hbehind hlegal.1 with ⟨middle, hfirst, hmiddle⟩
      rcases ih hmiddle hlegal.2 with ⟨after, hread, hafter⟩
      refine ⟨after, ?_, ?_⟩
      · rw [List.flatMap_cons, Reader.readTokens_append_of_ok hfirst, hread]
      · simpa using hafter

/-- An unfinished phrase changes nothing of the answer. -/
theorem readTokens_unfinished
    (hrest : r.currentToken = .none)
    {rest : List String} (hunfinished : Unfinished rest) :
    ∃ after, r.readTokens rest = .ok after ∧
      after.serviceName = r.serviceName ∧ after.rpc = r.rpc := by
  cases hunfinished with
  | nothing => exact ⟨r, rfl, rfl, rfl⟩
  | service =>
      have hword := (Reader.Reads.service hrest).readToken_eq
      exact ⟨_, Reader.readTokens_cons_of_ok hword [], rfl, rfl⟩
  | rpc =>
      have hword := (Reader.Reads.rpc hrest).readToken_eq
      exact ⟨_, Reader.readTokens_cons_of_ok hword [], rfl, rfl⟩
  | named name hopen =>
      rcases readTokens_begin hrest name with ⟨begun, hbegin, hbegun⟩
      rcases readTokens_of_not_closes hbegun hopen with
          ⟨after, hread, hservice, hrpc⟩
      refine ⟨after, ?_, hservice, hrpc⟩
      exact (Reader.readTokens_append_of_ok hbegin _).trans hread

theorem readTokens_of_cut
    {tokens : List String} {phrases : List Phrase} {rest : List String}
    (hcut : grammar.Cut tokens phrases rest) :
    ∃ after, Reader.start.readTokens tokens = .ok after ∧
      after.serviceName = (services phrases).getLast? ∧
      after.rpc = (rpcPhrases phrases).map RpcPhrase.stored := by
  rcases readTokens_phrases behind_start hcut.legal with
      ⟨middle, hread, hmiddle⟩
  rw [List.nil_append] at hmiddle
  rcases readTokens_unfinished hmiddle.currentToken hcut.leftover with
      ⟨after, hrest, hservice, hrpc⟩
  refine ⟨after, ?_, ?_, ?_⟩
  · rw [hcut.parts]
    exact (Reader.readTokens_append_of_ok hread rest).trans hrest
  · rw [hservice, hmiddle.serviceName]
  · rw [hrpc, hmiddle.rpc]

end Reading

section Bytes

def Decodes (bytes : List UInt8) : Prop :=
  ∃ text, bytes = asBytes text

theorem fromUtf8_cases (bytes : List UInt8) :
    (∃ text, bytes = asBytes text ∧
      fromUtf8 bytes = .ok (String.ofList text)) ∨
      fromUtf8 bytes = .error .unwrap := by
  by_cases hvalid : bytes.toByteArray.IsValidUTF8
  · rcases hvalid with ⟨text, htext⟩
    have hbytes : bytes = asBytes text := by
      have hlists := congrArg (fun array => array.data.toList) htext
      simpa [List.utf8Encode, asBytes] using hlists
    exact Or.inl ⟨text, hbytes, hbytes ▸ fromUtf8_asBytes text⟩
  · exact Or.inr (by simp [fromUtf8, String.fromUTF8?, hvalid])

theorem decodes_of_popCarriageReturn
    {line : List UInt8} (hdecodes : Decodes (popCarriageReturn line)) :
    Decodes line := by
  unfold popCarriageReturn at hdecodes
  split at hdecodes
  next hlast =>
    rcases hdecodes with ⟨text, htext⟩
    refine ⟨text ++ ['\r'], ?_⟩
    have hline := List.dropLast_append_getLast? 13 hlast
    rw [asBytes_append, ← htext, asBytes_singleton,
      utf8EncodeChar_ascii (by decide)]
    exact hline.symm
  next => exact hdecodes

/-- A file whose lines are all valid is valid. -/
theorem decodes_of_lines
    {buf content : List UInt8}
    (hlines : ∀ line ∈ linesFrom buf content, Decodes line) :
    Decodes (buf ++ content) := by
  induction content generalizing buf with
  | nil =>
      by_cases hempty : buf = []
      · exact ⟨[], by simp [hempty, asBytes]⟩
      · rw [List.append_nil]
        apply hlines
        simp [linesFrom, hempty]
  | cons b content ih =>
      by_cases hbreak : b = 10
      · rw [linesFrom, if_pos hbreak, List.forall_mem_cons] at hlines
        rcases decodes_of_popCarriageReturn hlines.1 with ⟨front, hfront⟩
        rcases ih hlines.2 with ⟨back, hback⟩
        refine ⟨front ++ '\n' :: back, ?_⟩
        rw [asBytes_append, asBytes_cons, utf8EncodeChar_ascii (by decide),
          ← hfront, ← hback, hbreak]
        rfl
      · rw [linesFrom, if_neg hbreak] at hlines
        rcases ih hlines with ⟨text, htext⟩
        exact ⟨text, by rw [← htext]; simp⟩

theorem tokensOfLine_of_decodes
    {line : List UInt8} (hdecodes : Decodes line) :
    ∃ tokens, tokensOfLine line = .ok tokens := by
  rcases hdecodes with ⟨text, rfl⟩
  unfold tokensOfLine
  rw [fromUtf8_asBytes]
  exact ⟨_, tokens_ok (String.ofList text)⟩

/-- A line that is not valid stops the reader, whatever is read before. -/
theorem foldlM_readLine_of_invalid
    {lines : List (List UInt8)} (hbad : ¬ ∀ line ∈ lines, Decodes line) :
    lines.foldlM Reader.readLine Reader.start = .error .unwrap := by
  rcases exists_first_not Decodes hbad with
      ⟨front, line, back, rfl, hfront, hline⟩
  have hlines : ∀ line ∈ front, ∃ tokens, tokensOfLine line = .ok tokens := by
    intro line hmem
    exact tokensOfLine_of_decodes (hfront line hmem)
  rcases exists_mapM_ok hlines with ⟨parts, hparts⟩
  rcases grammar.exists_cut parts.flatten with ⟨phrases, rest, hcut⟩
  rcases readTokens_of_cut hcut with ⟨after, hread, _⟩
  have hsofar : front.foldlM Reader.readLine Reader.start = .ok after :=
    (foldlM_readLine hparts Reader.start).trans hread
  have hstop : after.readLine line = .error .unwrap := by
    unfold Reader.readLine
    rcases fromUtf8_cases line with ⟨text, htext, _⟩ | herror
    · exact absurd ⟨text, htext⟩ hline
    · rw [herror]
      rfl
  rw [List.foldlM_append, hsofar]
  change (line :: back).foldlM Reader.readLine after = _
  rw [List.foldlM_cons, hstop]
  rfl

end Bytes

section Files

/-- The answer to a file of these phrases. -/
def Answers (fileName : String) (phrases : List Phrase)
    (result : Except Panic ProtoServiceDescription) : Prop :=
  match (services phrases).getLast? with
  | none =>
      result = .error (.message
        ("Can not find service name in proto file: " ++ fileName))
  | some name =>
      ∃ description, result = .ok description ∧
        description.serviceName = name ∧
        description.rpc.map ProtoRpc.signature =
          (rpcPhrases phrases).map RpcPhrase.signature

theorem mem_of_rpcPhrases
    {tokens : List String} {phrases : List Phrase} {rest : List String}
    (hcut : grammar.Cut tokens phrases rest)
    {d : RpcPhrase} (hd : d ∈ rpcPhrases phrases) :
    (∀ token ∈ d.input, token ∈ tokens) ∧
      ∀ token ∈ d.output, token ∈ tokens := by
  rcases List.mem_filterMap.mp (List.mem_of_mem_filter hd) with
      ⟨p, hp, hrpc⟩
  have htokens : ∀ token ∈ p.tokens, token ∈ tokens := by
    intro token htoken
    rw [hcut.parts, List.mem_append]
    exact Or.inl (List.mem_flatMap.mpr ⟨p, hp, htoken⟩)
  cases p with
  | quiet token => cases hrpc
  | service name => cases hrpc
  | rpc e =>
      cases hrpc
      constructor
      · intro token htoken
        exact htokens token (by simp [Phrase.tokens, htoken])
      · intro token htoken
        exact htokens token (by simp [Phrase.tokens, htoken])

theorem signature_stored
    {tokens : List String} (hwhole : ∀ token ∈ tokens, Whole token)
    {phrases : List Phrase} {rest : List String}
    (hcut : grammar.Cut tokens phrases rest)
    {d : RpcPhrase} (hd : d ∈ rpcPhrases phrases) :
    d.stored.signature = d.signature := by
  rcases mem_of_rpcPhrases hcut hd with ⟨hinput, houtput⟩
  have hin : ∀ word ∈ inputWords d.input, Whole word := by
    intro word hword
    exact hwhole word (hinput word (List.mem_of_mem_filter hword))
  have hout : ∀ word ∈ outputWords d.output, Whole word := by
    intro word hword
    exact hwhole word (houtput word (List.mem_of_mem_filter hword))
  unfold ProtoRpc.signature RpcPhrase.signature ProtoRpc.getInputParam
    ProtoRpc.getOutputParam RpcPhrase.stored
  rw [parse_foldl hin, parse_foldl hout]

theorem answers_of_cut
    (fileName : String) {tokens : List String} {text : List Char}
    (hrenders : RendersFile tokens text)
    {phrases : List Phrase} {rest : List String}
    (hcut : grammar.Cut tokens phrases rest) :
    Answers fileName phrases (readProtoFile fileName (.ok (asBytes text))) := by
  rcases readTokens_of_cut hcut with ⟨after, hread, hservice, hrpc⟩
  have hresult : readProtoFile fileName (.ok (asBytes text)) =
      after.finish fileName := by
    rw [readProtoFile_asBytes, rendersFile_iff.mp hrenders, hread]
    rfl
  rw [hresult]
  unfold Answers Reader.finish
  rw [hservice]
  cases (services phrases).getLast? with
  | none => rfl
  | some name =>
      refine ⟨_, rfl, rfl, ?_⟩
      rw [hrpc, List.map_map]
      apply List.map_congr_left
      intro d hd
      exact signature_stored (whole_of_rendersFile hrenders) hcut hd

/-- Bytes that are not UTF-8 are refused.  The tokens of any text are cut in
one way into phrases and a rest in which no phrase is complete, and the
answer is read off the phrases: the last service, and every rpc in the order
of the file. -/
theorem every_file_is_answered (fileName : String) (content : List UInt8) :
    (¬ Decodes content ∧
      readProtoFile fileName (.ok content) = .error .unwrap) ∨
    ∃ text tokens, content = asBytes text ∧ RendersFile tokens text ∧
      (∃! cut : List Phrase × List String, grammar.Cut tokens cut.1 cut.2) ∧
      ∀ phrases rest, grammar.Cut tokens phrases rest →
        Answers fileName phrases (readProtoFile fileName (.ok content)) := by
  by_cases hdecodes : Decodes content
  · rcases hdecodes with ⟨text, rfl⟩
    have hrenders : RendersFile (fileTokens text) text :=
      rendersFile_iff.mpr rfl
    exact Or.inr ⟨text, fileTokens text, rfl, hrenders,
      grammar.existsUnique_cut _,
      fun _ _ hcut => answers_of_cut fileName hrenders hcut⟩
  · have hbad : ¬ ∀ line ∈ lines content, Decodes line := by
      intro hlines
      exact hdecodes (decodes_of_lines hlines)
    apply Or.inl
    refine ⟨hdecodes, ?_⟩
    unfold readProtoFile
    simp only [foldlM_readLine_of_invalid hbad]
    rfl

end Files

end ProtoFileReader
end GrpcExtensions
