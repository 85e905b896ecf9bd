import GrpcExtensions.ProtoFileText
import GrpcExtensions.ProtoPhrases

/-!
# Comments behind the code of a line

`clean_up_comments` removes the lines that begin with `//`.  A comment behind
the code of a line stays and is read as more tokens of it.  Where the reader
passes over all of these tokens the comment changes nothing: between
declarations when it holds neither `service` nor `rpc`, and inside an rpc when
the parameter that is being read has its type and the comment does not end it.
-/

namespace GrpcExtensions
namespace ProtoFileReader

/-- A line without its line break, which is `\r\n` where `crlf` says so. -/
structure Line where
  chars : List Char
  crlf : Bool
  oneLine : '\n' ∉ chars

/-- Whitespace, `//` and any text on the same line. -/
structure TrailingComment where
  gap : List Char
  body : List Char
  blank : ∀ c ∈ gap, isWhitespace c = true
  oneLine : '\n' ∉ gap ++ body

namespace TrailingComment

def text (comment : TrailingComment) : List Char :=
  comment.gap ++ '/' :: '/' :: comment.body

/-- The comment as the reader sees it behind the code of a line. -/
def tokens (comment : TrailingComment) : List String :=
  (Lexer.lex charKind comment.text).map String.ofList

/-- The comment is no part of the last word of the line: a blank or a
delimiter stands between them. -/
def Separate (comment : TrailingComment) (line : List Char) : Prop :=
  Lexer.Apart charKind line comment.text

end TrailingComment

namespace Line

def text (line : Line) (comment : Option TrailingComment) : List Char :=
  line.chars ++ comment.elim [] TrailingComment.text ++
    if line.crlf then ['\r'] else []

def tokens (line : Line) : List String :=
  lineTokens line.chars

def IsComment (line : Line) : Prop :=
  IsCommentLine line.chars

def Blank (line : Line) : Prop :=
  ∀ c ∈ line.chars, isWhitespace c = true

end Line

/-- The file with these comments at the ends of its lines. -/
def commented (lines : List Line) (comments : ℕ → Option TrailingComment) :
    List Char :=
  ['\n'].intercalate (lines.mapIdx fun i line => line.text (comments i))

/-- The service name and the rpcs with their parameters. -/
def ProtoServiceDescription.outline
    (description : ProtoServiceDescription) : String × List Signature :=
  (description.serviceName, description.rpc.map ProtoRpc.signature)

/-- The comments leave the result as it is without them. -/
def Unchanged (fileName : String) (lines : List Line)
    (comments : ℕ → Option TrailingComment) : Prop :=
  (readProtoFile fileName (.ok (asBytes (commented lines comments)))).map
      ProtoServiceDescription.outline =
    (readProtoFile fileName
        (.ok (asBytes (commented lines fun _ => none)))).map
      ProtoServiceDescription.outline

section Tokens

theorem isCommentLine_of_blank
    {line : List Char} (hblank : ∀ c ∈ line, isWhitespace c = true)
    (comment : TrailingComment) : IsCommentLine (line ++ comment.text) := by
  refine ⟨line ++ comment.gap, comment.body, ?_, ?_⟩
  · intro c hc
    rcases List.mem_append.mp hc with hline | hgap
    · exact hblank c hline
    · exact comment.blank c hgap
  · simp [TrailingComment.text]

theorem IsCommentLine.append
    {line : List Char} (hcomment : IsCommentLine line) (more : List Char) :
    IsCommentLine (line ++ more) := by
  obtain ⟨gap, body, hgap, rfl⟩ := hcomment
  exact ⟨gap, body ++ more, hgap, by simp⟩

theorem charKind_slash : charKind '/' = .word := by
  decide

/-- Only a blank line becomes a comment by what follows its code. -/
theorem not_isCommentLine_append
    {line : List Char} (hcode : ¬ IsCommentLine line)
    (hblank : ¬ ∀ c ∈ line, isWhitespace c = true)
    {more : List Char} (hapart : Lexer.Apart charKind line more) :
    ¬ IsCommentLine (line ++ more) := by
  rintro ⟨gap, body, hgap, hline⟩
  rcases List.append_eq_append_iff.mp hline with
    ⟨rest, hrest, _⟩ | ⟨rest, hrest, hmore⟩
  · apply hblank
    intro c hc
    exact hgap c (by simp [hrest, hc])
  · match rest with
    | [] =>
        apply hblank
        rw [hrest, List.append_nil]
        exact hgap
    | [c] =>
        -- the two slashes stand on different sides, but they are one word
        simp only [List.singleton_append, List.cons.injEq] at hmore
        rcases hapart with hlast | hbreaks
        · have hslash := hlast '/' (by simp [hrest, ← hmore.1])
          exact hslash charKind_slash
        · have hslash := hbreaks '/' (by simp [← hmore.2])
          exact hslash charKind_slash
    | c :: d :: rest =>
        simp only [List.cons_append, List.cons.injEq] at hmore
        obtain ⟨rfl, rfl, _⟩ := hmore
        exact hcode ⟨gap, rest, hgap, hrest⟩

namespace Line

variable (line : Line) (comment : TrailingComment)

theorem lineTokens_text (comment : Option TrailingComment) :
    lineTokens (line.text comment) =
      lineTokens (line.chars ++ comment.elim [] TrailingComment.text) := by
  unfold text
  cases line.crlf with
  | false => simp
  | true => exact lineTokens_append_carriageReturn _

theorem lineTokens_text_none :
    lineTokens (line.text none) = line.tokens := by
  rw [lineTokens_text, Option.elim_none, List.append_nil, tokens]

theorem lineTokens_of_isComment (hcomment : line.IsComment) :
    line.tokens = [] ∧ lineTokens (line.text (some comment)) = [] := by
  rw [lineTokens_text]
  exact ⟨lineTokens_of_isCommentLine hcomment,
    lineTokens_of_isCommentLine (IsCommentLine.append hcomment _)⟩

/-- The comment takes what was a word of whitespace with it. -/
theorem lineTokens_of_blank (hblank : line.Blank) :
    lineTokens (line.text (some comment)) = [] := by
  rw [lineTokens_text]
  exact lineTokens_of_isCommentLine (isCommentLine_of_blank hblank comment)

theorem lineTokens_of_code
    (hcode : ¬ line.IsComment) (hblank : ¬ line.Blank)
    (hseparate : comment.Separate line.chars) :
    lineTokens (line.text (some comment)) =
      line.tokens ++ comment.tokens := by
  rw [lineTokens_text, Option.elim_some, tokens,
    lineTokens_of_not_isCommentLine hcode,
    lineTokens_of_not_isCommentLine
      (not_isCommentLine_append hcode hblank hseparate),
    Lexer.lex_append_of_apart hseparate, List.map_append]
  rfl

theorem newline_not_mem_text (comment : Option TrailingComment) :
    '\n' ∉ line.text comment := by
  have hline := line.oneLine
  cases comment with
  | none => cases hcrlf : line.crlf <;> simp [text, hcrlf, hline]
  | some comment =>
      have hcomment := comment.oneLine
      cases hcrlf : line.crlf <;>
        simp_all [text, TrailingComment.text]

end Line

theorem fileTokens_commented
    (lines : List Line) (comments : ℕ → Option TrailingComment) :
    fileTokens (commented lines comments) =
      (lines.mapIdx fun i line => line.text (comments i)).flatMap
        lineTokens := by
  apply fileTokens_intercalate
  intro text htext
  obtain ⟨i, hi, rfl⟩ := List.mem_mapIdx.mp htext
  exact Line.newline_not_mem_text _ _

end Tokens

def SameParam (buffer other : String) : Prop :=
  buffer = other ∨
    ∃ param, ParamType.parse buffer = some param ∧
      ParamType.parse other = some param

namespace SameParam

variable {buffer other : String}

theorem symm (hsame : SameParam buffer other) : SameParam other buffer := by
  rcases hsame with rfl | ⟨param, hbuffer, hother⟩
  · exact .inl rfl
  · exact .inr ⟨param, hother, hbuffer⟩

theorem trans
    {third : String} (hsame : SameParam buffer other)
    (hnext : SameParam other third) : SameParam buffer third := by
  rcases hsame with rfl | ⟨param, hbuffer, hother⟩
  · exact hnext
  · rcases hnext with rfl | ⟨same, hsecond, hthird⟩
    · exact .inr ⟨param, hbuffer, hother⟩
    · rw [hother] at hsecond
      cases hsecond
      exact .inr ⟨param, hbuffer, hthird⟩

theorem parse_eq (hsame : SameParam buffer other) :
    ParamType.parse buffer = ParamType.parse other := by
  rcases hsame with rfl | ⟨param, hbuffer, hother⟩
  · rfl
  · rw [hbuffer, hother]

theorem parse_pushParam
    {param : ParamType} (hparse : ParamType.parse buffer = some param)
    (token : String) :
    ParamType.parse (pushParam buffer token) = some param := by
  have hne : buffer ≠ "" := by
    rintro rfl
    simp [ParamType.parse, splitAsciiWhitespace, Lexer.lex, Lexer.lexFrom,
      Lexer.flush, takeName] at hparse
  rw [pushParam_of_ne_empty hne]
  exact parse_append hparse token

theorem push (hsame : SameParam buffer other) (token : String) :
    SameParam (pushParam buffer token) (pushParam other token) := by
  rcases hsame with rfl | ⟨param, hbuffer, hother⟩
  · exact .inl rfl
  · exact .inr ⟨param, parse_pushParam hbuffer token,
      parse_pushParam hother token⟩

theorem push_right
    (hsame : SameParam buffer other)
    (htyped : (ParamType.parse buffer).isSome = true) (token : String) :
    SameParam buffer (pushParam other token) := by
  obtain ⟨param, hbuffer⟩ := Option.isSome_iff_exists.mp htyped
  have hother : ParamType.parse other = some param := by
    rw [← hsame.parse_eq, hbuffer]
  exact .inr ⟨param, hbuffer, parse_pushParam hother token⟩

end SameParam

/-- What each token keeps between two readers holds after all of them, when
the first reader never has to store an rpc without a name. -/
theorem Reader.readTokens_related
    {R : Reader → Reader → Prop}
    (hnamed : ∀ r other, R r other →
      r.currentToken = .rpcExpectingOutputParameter →
        ∃ name, r.rpcName = some name)
    (hreads : ∀ r other token after, R r other → r.Reads token after →
      ∃ next, other.Reads token next ∧ R after next)
    {r other : Reader} (hrelated : R r other) (tokens : List String) :
    ∃ after next, r.readTokens tokens = .ok after ∧
      other.readTokens tokens = .ok next ∧ R after next := by
  induction tokens generalizing r other with
  | nil => exact ⟨r, other, rfl, rfl, hrelated⟩
  | cons token tokens ih =>
      obtain ⟨middle, hmiddle⟩ :=
        Reader.exists_reads (hnamed r other hrelated) token
      obtain ⟨between, hbetween, hfirst⟩ :=
        hreads r other token middle hrelated hmiddle
      rw [Reader.readTokens_cons_of_ok hmiddle.readToken_eq,
        Reader.readTokens_cons_of_ok hbetween.readToken_eq]
      exact ih hfirst

def Reader.Named (r : Reader) : Prop :=
  r.currentToken = .rpcExpectingInputParameter ∨
    r.currentToken = .rpcExpectingOutputParameter →
  ∃ name, r.rpcName = some name

/-- Two readers that will read the same rpcs from the same tokens. -/
structure Reader.Alike (r other : Reader) : Prop where
  named : r.Named
  serviceName : other.serviceName = r.serviceName
  currentToken : other.currentToken = r.currentToken
  rpcName : other.rpcName = r.rpcName
  rpcs : other.rpc.map ProtoRpc.signature = r.rpc.map ProtoRpc.signature
  input : SameParam r.inputParamName other.inputParamName
  output : SameParam r.outParamName other.outParamName

/-- A token that may stand in a comment at this place. -/
def Reader.Passes (r : Reader) (token : String) : Prop :=
  match r.currentToken with
  | .none => Quiet token
  | .service => False
  | .rpc => False
  | .rpcExpectingInputParameter =>
      token ≠ ")" ∧
        (token = "(" ∨ (ParamType.parse r.inputParamName).isSome = true)
  | .rpcExpectingOutputParameter =>
      token ≠ ";" ∧
        (token = "returns" ∨ token = "(" ∨ token = ")" ∨
          (ParamType.parse r.outParamName).isSome = true)

namespace Reader.Alike

variable {r other : Reader}

theorem refl (hnamed : r.Named) : r.Alike r :=
  ⟨hnamed, rfl, rfl, rfl, rfl, .inl rfl, .inl rfl⟩

theorem symm (halike : r.Alike other) : other.Alike r := by
  obtain ⟨hnamed, hservice, htoken, hname, hrpcs, hinput, houtput⟩ := halike
  refine ⟨?_, hservice.symm, htoken.symm, hname.symm, hrpcs.symm,
    hinput.symm, houtput.symm⟩
  unfold Reader.Named
  rw [htoken, hname]
  exact hnamed

theorem trans
    {third : Reader} (halike : r.Alike other) (hnext : other.Alike third) :
    r.Alike third :=
  ⟨halike.named, hnext.serviceName.trans halike.serviceName,
    hnext.currentToken.trans halike.currentToken,
    hnext.rpcName.trans halike.rpcName, hnext.rpcs.trans halike.rpcs,
    halike.input.trans hnext.input, halike.output.trans hnext.output⟩

theorem storeRpc
    (halike : r.Alike other)
    (hcurrent : r.currentToken = .rpcExpectingOutputParameter) :
    ∃ after next, r.storeRpc = .ok after ∧ other.storeRpc = .ok next ∧
      after.Alike next := by
  obtain ⟨hnamed, hservice, htoken, hrpcName, hrpcs, hinput, houtput⟩ :=
    halike
  obtain ⟨name, hname⟩ := hnamed (.inr hcurrent)
  have hother : other.rpcName = some name := hrpcName.trans hname
  unfold Reader.storeRpc
  rw [hname, hother]
  refine ⟨_, _, rfl, rfl, by simp [Reader.Named], hservice, rfl, rfl, ?_,
    hinput, houtput⟩
  by_cases hping : name = "Ping"
  · simpa [hping] using hrpcs
  · simp [hping, hrpcs, ProtoRpc.signature, ProtoRpc.getInputParam,
      ProtoRpc.getOutputParam, hinput.parse_eq, houtput.parse_eq]

theorem reads
    (halike : r.Alike other) {token : String} {after : Reader}
    (hreads : r.Reads token after) :
    ∃ next, other.Reads token next ∧ after.Alike next := by
  have hkeep := halike
  obtain ⟨hnamed, hservice, htoken, hrpcName, hrpcs, hinput, houtput⟩ :=
    halike
  cases hreads with
  | quiet hcurrent hquiet =>
      exact ⟨other, .quiet (htoken.trans hcurrent) hquiet, hkeep⟩
  | service hcurrent =>
      exact ⟨_, .service (htoken.trans hcurrent), by simp [Reader.Named],
        hservice, rfl, hrpcName, hrpcs, hinput, houtput⟩
  | rpc hcurrent =>
      exact ⟨_, .rpc (htoken.trans hcurrent), by simp [Reader.Named],
        hservice, rfl, hrpcName, hrpcs, hinput, houtput⟩
  | serviceName token hcurrent =>
      exact ⟨_, .serviceName token (htoken.trans hcurrent),
        by simp [Reader.Named], rfl, rfl, hrpcName, hrpcs, hinput, houtput⟩
  | rpcName token hcurrent =>
      exact ⟨_, .rpcName token (htoken.trans hcurrent),
        by simp [Reader.Named], hservice, rfl, rfl, hrpcs, .inl rfl, .inl rfl⟩
  | inputOpen hcurrent =>
      exact ⟨other, .inputOpen (htoken.trans hcurrent), hkeep⟩
  | inputClose hcurrent =>
      have hname := hnamed (.inl hcurrent)
      exact ⟨_, .inputClose (htoken.trans hcurrent), fun _ => hname, hservice,
        rfl, hrpcName, hrpcs, hinput, houtput⟩
  | inputWord hcurrent hopen hclose =>
      exact ⟨_, .inputWord (htoken.trans hcurrent) hopen hclose, hnamed,
        hservice, htoken, hrpcName, hrpcs, hinput.push _, houtput⟩
  | outputSkipped hcurrent hskipped =>
      exact ⟨other, .outputSkipped (htoken.trans hcurrent) hskipped, hkeep⟩
  | outputWord hcurrent hskipped hend =>
      exact ⟨_, .outputWord (htoken.trans hcurrent) hskipped hend, hnamed,
        hservice, htoken, hrpcName, hrpcs, hinput, houtput.push _⟩
  | stored hcurrent hstore =>
      obtain ⟨after, next, hafter, hnext, hstored⟩ := hkeep.storeRpc hcurrent
      rw [hstore] at hafter
      cases hafter
      exact ⟨_, .stored (htoken.trans hcurrent) hnext, hstored.named,
        hstored.serviceName, hstored.currentToken, hstored.rpcName,
        hstored.rpcs, hstored.input, hstored.output.push ";"⟩

theorem readTokens (halike : r.Alike other) (tokens : List String) :
    ∃ after next, r.readTokens tokens = .ok after ∧
      other.readTokens tokens = .ok next ∧ after.Alike next :=
  Reader.readTokens_related
    (fun _ _ halike hcurrent => halike.named (.inr hcurrent))
    (fun _ _ _ _ halike hreads => halike.reads hreads) halike tokens

theorem readToken_passed
    (halike : r.Alike other) {token : String} (hpasses : r.Passes token) :
    ∃ next, other.readToken token = .ok next ∧ r.Alike next := by
  have hkeep := halike
  obtain ⟨hnamed, hservice, htoken, hrpcName, hrpcs, hinput, houtput⟩ :=
    halike
  unfold Reader.Passes at hpasses
  cases hcurrent : r.currentToken with
  | none =>
      rw [hcurrent] at hpasses htoken
      exact ⟨other, readToken_quiet htoken hpasses, hkeep⟩
  | service => simp [hcurrent] at hpasses
  | rpc => simp [hcurrent] at hpasses
  | rpcExpectingInputParameter =>
      rw [hcurrent] at hpasses htoken
      obtain ⟨hclose, hpushed⟩ := hpasses
      by_cases hopen : token = "("
      · subst hopen
        exact ⟨other, (Reader.Reads.inputOpen htoken).readToken_eq, hkeep⟩
      · have htyped := hpushed.resolve_left hopen
        exact ⟨_, readToken_input htoken hopen hclose, hnamed, hservice,
          htoken.trans hcurrent.symm, hrpcName, hrpcs,
          hinput.push_right htyped token, houtput⟩
  | rpcExpectingOutputParameter =>
      rw [hcurrent] at hpasses htoken
      obtain ⟨hend, hpushed⟩ := hpasses
      by_cases hskipped : token = "returns" ∨ token = "(" ∨ token = ")"
      · exact ⟨other, (Reader.Reads.outputSkipped htoken hskipped).readToken_eq,
          hkeep⟩
      · have htyped : (ParamType.parse r.outParamName).isSome = true := by
          tauto
        exact ⟨_, (Reader.Reads.outputWord htoken hskipped hend).readToken_eq,
          hnamed, hservice, htoken.trans hcurrent.symm, hrpcName, hrpcs,
          hinput, houtput.push_right htyped token⟩

theorem readTokens_passed
    (halike : r.Alike other) {tokens : List String}
    (hpasses : ∀ token ∈ tokens, r.Passes token) :
    ∃ next, other.readTokens tokens = .ok next ∧ r.Alike next :=
  Reader.readTokens_keeps
    (fun _ _ halike hpasses => halike.readToken_passed hpasses)
    halike hpasses

theorem finish_outline (halike : r.Alike other) (fileName : String) :
    (other.finish fileName).map ProtoServiceDescription.outline =
      (r.finish fileName).map ProtoServiceDescription.outline := by
  unfold Reader.finish
  rw [halike.serviceName]
  cases r.serviceName with
  | none => rfl
  | some name =>
      simp [Except.map, ProtoServiceDescription.outline, halike.rpcs]

end Reader.Alike

theorem start_named : Reader.start.Named := by
  simp [Reader.Named, Reader.start]

/-- The comment stands behind a comment, or behind whitespace or code of which
the reader passes over every token that the comment takes away or adds.
Without it the reader is in `before` and `after` around the line. -/
def Line.Harmless (line : Line) (before after : Reader)
    (comment : TrailingComment) : Prop :=
  line.IsComment ∨
    (line.Blank ∧ ∀ token ∈ line.tokens, before.Passes token) ∨
    (¬ line.Blank ∧ comment.Separate line.chars ∧
      ∀ token ∈ comment.tokens, after.Passes token)

/-- Every comment is harmless where it stands in the file. -/
def HarmlessFrom : Reader → List Line → (ℕ → Option TrailingComment) → Prop
  | _, [], _ => True
  | before, line :: lines, comments =>
      ∀ after, before.readTokens line.tokens = .ok after →
        (∀ comment ∈ comments 0, line.Harmless before after comment) ∧
          HarmlessFrom after lines fun i => comments (i + 1)

theorem Line.Harmless.readTokens
    {line : Line} {before after other : Reader} {comment : TrailingComment}
    (hharmless : line.Harmless before after comment)
    (halike : before.Alike other)
    (hafter : before.readTokens line.tokens = .ok after) :
    ∃ next, other.readTokens (lineTokens (line.text (some comment))) =
        .ok next ∧ after.Alike next := by
  by_cases hcomment : line.IsComment
  · obtain ⟨hnone, hcommented⟩ :=
      line.lineTokens_of_isComment comment hcomment
    rw [hnone] at hafter
    cases hafter
    exact ⟨other, by rw [hcommented]; rfl, halike⟩
  · rcases hharmless with hyes | ⟨hblank, hpasses⟩ |
      ⟨hblank, hseparate, hpasses⟩
    · exact absurd hyes hcomment
    · obtain ⟨same, hsame, hkept⟩ :=
        (Reader.Alike.refl halike.named).readTokens_passed hpasses
      rw [hafter] at hsame
      cases hsame
      exact ⟨other, by rw [line.lineTokens_of_blank comment hblank]; rfl,
        hkept.symm.trans halike⟩
    · obtain ⟨same, middle, hsame, hmiddle, hline⟩ :=
        halike.readTokens line.tokens
      rw [hafter] at hsame
      cases hsame
      rw [line.lineTokens_of_code comment hcomment hblank hseparate,
        Reader.readTokens_append_of_ok hmiddle]
      exact hline.readTokens_passed hpasses

theorem HarmlessFrom.readTokens
    {lines : List Line} {comments : ℕ → Option TrailingComment}
    {r other : Reader} (hharmless : HarmlessFrom r lines comments)
    (halike : r.Alike other) :
    ∃ after next,
      r.readTokens ((lines.mapIdx fun _ line => line.text none).flatMap
        lineTokens) = .ok after ∧
      other.readTokens ((lines.mapIdx fun i line =>
        line.text (comments i)).flatMap lineTokens) = .ok next ∧
      after.Alike next := by
  induction lines generalizing r other comments with
  | nil => exact ⟨r, other, rfl, rfl, halike⟩
  | cons line lines ih =>
      obtain ⟨middle, between, hmiddle, hbetween, hkept⟩ :=
        halike.readTokens line.tokens
      obtain ⟨hline, hrest⟩ := hharmless middle hmiddle
      have hcommented : ∃ next,
          other.readTokens (lineTokens (line.text (comments 0))) =
            .ok next ∧ middle.Alike next := by
        cases hcomment : comments 0 with
        | none =>
            rw [line.lineTokens_text_none]
            exact ⟨between, hbetween, hkept⟩
        | some comment =>
            have hharmless := hline comment (by simp [hcomment])
            exact hharmless.readTokens halike hmiddle
      obtain ⟨next, hnext, hfirst⟩ := hcommented
      rw [List.mapIdx_cons, List.mapIdx_cons, List.flatMap_cons,
        List.flatMap_cons, line.lineTokens_text_none,
        Reader.readTokens_append_of_ok hmiddle,
        Reader.readTokens_append_of_ok hnext]
      exact ih hrest hfirst

theorem readProtoFile_commented
    (fileName : String) (lines : List Line)
    (comments : ℕ → Option TrailingComment) :
    readProtoFile fileName (.ok (asBytes (commented lines comments))) =
      (Reader.start.readTokens ((lines.mapIdx fun i line =>
        line.text (comments i)).flatMap lineTokens)).bind
        (Reader.finish fileName) := by
  rw [readProtoFile_asBytes, fileTokens_commented]

theorem HarmlessFrom.unchanged
    {lines : List Line} {comments : ℕ → Option TrailingComment}
    (hharmless : HarmlessFrom Reader.start lines comments)
    (fileName : String) : Unchanged fileName lines comments := by
  obtain ⟨after, next, hafter, hnext, halike⟩ :=
    hharmless.readTokens (Reader.Alike.refl start_named)
  unfold Unchanged
  rw [readProtoFile_commented, readProtoFile_commented, hafter, hnext]
  exact halike.finish_outline fileName

end ProtoFileReader
end GrpcExtensions
