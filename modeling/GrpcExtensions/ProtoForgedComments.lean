import GrpcExtensions.ProtoStrayWords
import GrpcExtensions.ProtoTrailingComments

/-!
# Comments that forge an rpc

Behind any line that is neither blank nor a comment there is a comment that
leads the reader out of its state, has it read a service with an rpc and leads
it back.  From there on the reader knows one rpc more than without the
comment, whatever the rest of the file is.  So a set of lines may have any
comments exactly when none of its lines has code.
-/

namespace GrpcExtensions
namespace ProtoFileReader

/-- A text on one line that the lexer takes for one token. -/
def IsToken (token : String) : Prop :=
  '\n' ∉ token.toList ∧ Lexer.lex charKind token.toList = [token.toList]

instance : DecidablePred IsToken :=
  fun _ => inferInstanceAs (Decidable (_ ∧ _))

section Words

theorem breaks_words (words : List String) :
    Lexer.Breaks charKind (words.flatMap fun word => ' ' :: word.toList) := by
  have hblank : charKind ' ' = .space := by decide
  cases words with
  | nil => simp [Lexer.Breaks]
  | cons word words => exact Lexer.breaks_of_space hblank _

theorem lex_words
    {words : List String} (hwords : ∀ word ∈ words, IsToken word) :
    Lexer.lex charKind (words.flatMap fun word => ' ' :: word.toList) =
      words.map String.toList := by
  have hblank : charKind ' ' = .space := by decide
  induction words with
  | nil => rfl
  | cons word words ih =>
      have hword : IsToken word := hwords word (by simp)
      have htail : ∀ w ∈ words, IsToken w := by
        intro w hw
        exact hwords w (by simp [hw])
      rw [List.flatMap_cons, List.cons_append, Lexer.lex_space hblank,
        Lexer.lex_append_of_breaks (breaks_words words), hword.2, ih htail]
      rfl

end Words

namespace TrailingComment

/-- ` //` and these words, a blank before each. -/
def ofWords (words : List String)
    (hwords : ∀ word ∈ words, IsToken word) : TrailingComment where
  gap := [' ']
  body := words.flatMap fun word => ' ' :: word.toList
  blank := by simp [isWhitespace]
  oneLine := by
    simp only [List.mem_append, List.mem_flatMap, not_or]
    refine ⟨by decide, ?_⟩
    rintro ⟨word, hword, hmem⟩
    exact (hwords word hword).1 (by simpa using hmem)

variable {words : List String} (hwords : ∀ word ∈ words, IsToken word)

theorem ofWords_text :
    (ofWords words hwords).text =
      ("//" :: words).flatMap fun word => ' ' :: word.toList :=
  rfl

theorem ofWords_separate (line : List Char) :
    (ofWords words hwords).Separate line := by
  unfold Separate
  rw [ofWords_text]
  exact .inr (breaks_words _)

theorem ofWords_tokens : (ofWords words hwords).tokens = "//" :: words := by
  have hall : ∀ word ∈ "//" :: words, IsToken word := by
    intro word hword
    rcases List.mem_cons.mp hword with rfl | hword
    · decide
    · exact hwords word hword
  unfold tokens
  rw [ofWords_text, lex_words hall]
  simp

end TrailingComment

/-- The other reader is in the same state and knows more rpcs. -/
structure Reader.Ahead (r other : Reader) : Prop where
  currentToken : other.currentToken = r.currentToken
  serviceName : ∃ name, other.serviceName = some name
  rpcs : r.rpc.length < other.rpc.length
  names : r.currentToken = .rpcExpectingInputParameter ∨
      r.currentToken = .rpcExpectingOutputParameter →
    ∃ name same, r.rpcName = some name ∧ other.rpcName = some same ∧
      (name = "Ping" ↔ same = "Ping")

namespace Reader.Ahead

variable {r other : Reader}

theorem storeRpc
    (hahead : r.Ahead other)
    (hcurrent : r.currentToken = .rpcExpectingOutputParameter) :
    ∃ after next, r.storeRpc = .ok after ∧ other.storeRpc = .ok next ∧
      after.Ahead next := by
  obtain ⟨htoken, hservice, hrpcs, hnames⟩ := hahead
  obtain ⟨name, same, hname, hsame, hping⟩ := hnames (.inr hcurrent)
  unfold Reader.storeRpc
  rw [hname, hsame]
  refine ⟨_, _, rfl, rfl, rfl, hservice, ?_, by simp⟩
  by_cases hstored : name = "Ping"
  · simpa [hstored, hping.mp hstored] using hrpcs
  · have hother : same ≠ "Ping" := fun h => hstored (hping.mpr h)
    simpa [hstored, hother] using hrpcs

theorem reads
    (hahead : r.Ahead other) {token : String} {after : Reader}
    (hreads : r.Reads token after) :
    ∃ next, other.Reads token next ∧ after.Ahead next := by
  have hkeep := hahead
  obtain ⟨htoken, hservice, hrpcs, hnames⟩ := hahead
  cases hreads with
  | quiet hcurrent hquiet =>
      exact ⟨other, .quiet (htoken.trans hcurrent) hquiet, hkeep⟩
  | service hcurrent =>
      exact ⟨_, .service (htoken.trans hcurrent), rfl, hservice, hrpcs,
        by simp⟩
  | rpc hcurrent =>
      exact ⟨_, .rpc (htoken.trans hcurrent), rfl, hservice, hrpcs, by simp⟩
  | serviceName token hcurrent =>
      exact ⟨_, .serviceName token (htoken.trans hcurrent), rfl,
        ⟨token, rfl⟩, hrpcs, by simp⟩
  | rpcName token hcurrent =>
      exact ⟨_, .rpcName token (htoken.trans hcurrent), rfl, hservice, hrpcs,
        fun _ => ⟨token, token, rfl, rfl, Iff.rfl⟩⟩
  | inputOpen hcurrent =>
      exact ⟨other, .inputOpen (htoken.trans hcurrent), hkeep⟩
  | inputClose hcurrent =>
      have hname := hnames (.inl hcurrent)
      exact ⟨_, .inputClose (htoken.trans hcurrent), rfl, hservice, hrpcs,
        fun _ => hname⟩
  | inputWord hcurrent hopen hclose =>
      exact ⟨_, .inputWord (htoken.trans hcurrent) hopen hclose, htoken,
        hservice, hrpcs, hnames⟩
  | outputSkipped hcurrent hskipped =>
      exact ⟨other, .outputSkipped (htoken.trans hcurrent) hskipped, hkeep⟩
  | outputWord hcurrent hskipped hend =>
      exact ⟨_, .outputWord (htoken.trans hcurrent) hskipped hend, htoken,
        hservice, hrpcs, hnames⟩
  | stored hcurrent hstore =>
      obtain ⟨after, next, hafter, hnext, hstored⟩ := hkeep.storeRpc hcurrent
      rw [hstore] at hafter
      cases hafter
      exact ⟨_, .stored (htoken.trans hcurrent) hnext, hstored.currentToken,
        hstored.serviceName, hstored.rpcs, hstored.names⟩

theorem readTokens (hahead : r.Ahead other) (tokens : List String) :
    ∃ after next, r.readTokens tokens = .ok after ∧
      other.readTokens tokens = .ok next ∧ after.Ahead next := by
  have hnamed : ∀ r other, Reader.Ahead r other →
      r.currentToken = .rpcExpectingOutputParameter →
        ∃ name, r.rpcName = some name := by
    intro r other hahead hcurrent
    obtain ⟨name, _, hname, _⟩ := hahead.names (.inr hcurrent)
    exact ⟨name, hname⟩
  exact Reader.readTokens_related hnamed
    (fun _ _ _ _ hahead hreads => hahead.reads hreads) hahead tokens

theorem finish_outline_ne (hahead : r.Ahead other) (fileName : String) :
    (other.finish fileName).map ProtoServiceDescription.outline ≠
      (r.finish fileName).map ProtoServiceDescription.outline := by
  obtain ⟨name, hname⟩ := hahead.serviceName
  unfold Reader.finish
  rw [hname]
  cases r.serviceName with
  | none => simp [Except.map]
  | some own =>
      intro hsame
      simp only [Except.map, Except.ok.injEq, ProtoServiceDescription.outline,
        Prod.mk.injEq] at hsame
      have hlength := congrArg List.length hsame.2
      rw [List.length_map, List.length_map] at hlength
      exact absurd hlength (Nat.ne_of_gt hahead.rpcs)

end Reader.Ahead

/-- After `//`, what completes the declaration that the reader is in. -/
def CurrentToken.leave : CurrentToken → List String
  | .none => []
  | .service => []
  | .rpc => [")", ";"]
  | .rpcExpectingInputParameter => [")", ";"]
  | .rpcExpectingOutputParameter => [";"]

/-- A service with one rpc, as short as the reader accepts it. -/
def forgedService : List String :=
  ["service", "Q", "rpc", "Q", ")", ";"]

/-- What brings a reader at rest into a state, inside an rpc of this name. -/
def CurrentToken.resume (name : String) : CurrentToken → List String
  | .none => []
  | .service => ["service"]
  | .rpc => ["rpc"]
  | .rpcExpectingInputParameter => ["rpc", name]
  | .rpcExpectingOutputParameter => ["rpc", name, ")"]

section Forging

variable {r : Reader}

theorem readTokens_leave (hnamed : r.Named) :
    ∃ after, r.readTokens ("//" :: r.currentToken.leave) = .ok after ∧
      after.currentToken = .none := by
  unfold Reader.Named at hnamed
  cases hcurrent : r.currentToken with
  | none =>
      exact ⟨r, readTokens_quiet hcurrent (by decide), hcurrent⟩
  | service =>
      simp [CurrentToken.leave, Reader.readTokens, Reader.readToken,
        hcurrent, pure, Except.pure, bind, Except.bind]
  | rpc =>
      simp [CurrentToken.leave, Reader.readTokens, Reader.readToken,
        Reader.storeRpc, hcurrent, pure, Except.pure, bind, Except.bind]
  | rpcExpectingInputParameter =>
      obtain ⟨name, hname⟩ := hnamed (.inl hcurrent)
      simp [CurrentToken.leave, Reader.readTokens, Reader.readToken,
        Reader.storeRpc, hcurrent, hname, pure, Except.pure, bind,
        Except.bind]
  | rpcExpectingOutputParameter =>
      obtain ⟨name, hname⟩ := hnamed (.inr hcurrent)
      simp [CurrentToken.leave, Reader.readTokens, Reader.readToken,
        Reader.storeRpc, hcurrent, hname, pure, Except.pure, bind,
        Except.bind]

theorem readTokens_forgedService (hrest : r.currentToken = .none) :
    ∃ after, r.readTokens forgedService = .ok after ∧
      after.currentToken = .none ∧ after.serviceName = some "Q" ∧
      after.rpc.length = r.rpc.length + 1 := by
  simp [forgedService, Reader.readTokens, Reader.readToken, Reader.storeRpc,
    hrest, pure, Except.pure, bind, Except.bind]

theorem readTokens_resume
    (hrest : r.currentToken = .none) (name : String)
    (target : CurrentToken) :
    ∃ after, r.readTokens (target.resume name) = .ok after ∧
      after.currentToken = target ∧ after.serviceName = r.serviceName ∧
      after.rpc = r.rpc ∧
      (target = .rpcExpectingInputParameter ∨
        target = .rpcExpectingOutputParameter →
          after.rpcName = some name) := by
  cases target <;>
    simp [CurrentToken.resume, Reader.readTokens, Reader.readToken, hrest,
      pure, Except.pure, bind, Except.bind]

/-- In every state there is a comment that puts the reader ahead. -/
theorem exists_forging_comment (hnamed : r.Named) :
    ∃ comment : TrailingComment, (∀ line, comment.Separate line) ∧
      ∃ next, r.readTokens comment.tokens = .ok next ∧ r.Ahead next := by
  let name := if r.rpcName = some "Ping" then "Ping" else "Q"
  have hwords : ∀ word ∈ r.currentToken.leave ++ forgedService ++
      r.currentToken.resume name, IsToken word := by
    have hname : name = "Ping" ∨ name = "Q" := by
      by_cases hping : r.rpcName = some "Ping" <;> simp [name, hping]
    rcases hname with hname | hname <;> rw [hname] <;>
      cases r.currentToken <;> decide
  obtain ⟨left, hleft, hrest⟩ := readTokens_leave hnamed
  obtain ⟨forged, hforged, hback, hservice, hlength⟩ :=
    readTokens_forgedService hrest
  obtain ⟨next, hnext, htoken, hkept, hrpcs, hrpcName⟩ :=
    readTokens_resume hback name r.currentToken
  refine ⟨.ofWords _ hwords, TrailingComment.ofWords_separate hwords, next,
    ?_, htoken, ⟨"Q", hkept.trans hservice⟩, ?_, ?_⟩
  · rw [TrailingComment.ofWords_tokens, List.append_assoc,
      ← List.cons_append, Reader.readTokens_append_of_ok hleft,
      Reader.readTokens_append_of_ok hforged]
    exact hnext
  · have hmonotone := (readTokens_monotone hleft).length_le
    rw [hrpcs, hlength]
    exact Nat.lt_succ_of_le hmonotone
  · intro hinside
    obtain ⟨own, hown⟩ := hnamed hinside
    refine ⟨own, name, hown, hrpcName hinside, ?_⟩
    by_cases hping : own = "Ping" <;> simp [name, hown, hping]

end Forging

theorem Reader.Named.readTokens
    {r : Reader} (hnamed : r.Named) (tokens : List String) :
    ∃ after, r.readTokens tokens = .ok after ∧ after.Named := by
  obtain ⟨after, _, hafter, _, halike⟩ :=
    (Reader.Alike.refl hnamed).readTokens tokens
  exact ⟨after, hafter, halike.named⟩

def CommentsOn (marked : ℕ → Prop) (comments : ℕ → Option TrailingComment) :
    Prop :=
  ∀ i, comments i ≠ none → marked i

def consComment
    (first : Option TrailingComment) (rest : ℕ → Option TrailingComment) :
    ℕ → Option TrailingComment
  | 0 => first
  | i + 1 => rest i

theorem flatMap_consComment
    (line : Line) (lines : List Line) (first : Option TrailingComment)
    (rest : ℕ → Option TrailingComment) :
    ((line :: lines).mapIdx fun i line =>
        line.text (consComment first rest i)).flatMap lineTokens =
      lineTokens (line.text first) ++
        (lines.mapIdx fun i line => line.text (rest i)).flatMap
          lineTokens := by
  rw [List.mapIdx_cons, List.flatMap_cons]
  rfl

/-- One comment behind a line of code puts the reader ahead for the rest of
the file. -/
theorem exists_ahead
    {lines : List Line} {i : ℕ} {line : Line} {r : Reader}
    (hline : lines[i]? = some line) (hcode : ¬ line.IsComment)
    (hblank : ¬ line.Blank) (hnamed : r.Named) :
    ∃ comments after next, CommentsOn (fun j => j = i) comments ∧
      r.readTokens ((lines.mapIdx fun _ line => line.text none).flatMap
        lineTokens) = .ok after ∧
      r.readTokens ((lines.mapIdx fun j line =>
        line.text (comments j)).flatMap lineTokens) = .ok next ∧
      after.Ahead next := by
  induction lines generalizing i r with
  | nil => simp at hline
  | cons first lines ih =>
      obtain ⟨middle, hmiddle, hnamedMiddle⟩ :=
        hnamed.readTokens first.tokens
      have hbare : r.readTokens (((first :: lines).mapIdx fun _ line =>
            line.text none).flatMap lineTokens) =
          middle.readTokens ((lines.mapIdx fun _ line =>
            line.text none).flatMap lineTokens) := by
        rw [List.mapIdx_cons, List.flatMap_cons, first.lineTokens_text_none,
          Reader.readTokens_append_of_ok hmiddle]
      rw [hbare]
      cases i with
      | zero =>
          simp only [List.getElem?_cons_zero, Option.some.injEq] at hline
          subst hline
          obtain ⟨comment, hseparate, between, hbetween, hahead⟩ :=
            exists_forging_comment hnamedMiddle
          obtain ⟨after, next, hafter, hnext, hkept⟩ := hahead.readTokens
            ((lines.mapIdx fun _ line => line.text none).flatMap lineTokens)
          refine ⟨consComment (some comment) fun _ => none, after, next, ?_,
            hafter, ?_, hkept⟩
          · intro j hj
            cases j with
            | zero => rfl
            | succ j => exact absurd rfl hj
          · rw [flatMap_consComment,
              first.lineTokens_of_code comment hcode hblank (hseparate _),
              List.append_assoc, Reader.readTokens_append_of_ok hmiddle,
              Reader.readTokens_append_of_ok hbetween]
            exact hnext
      | succ i =>
          rw [List.getElem?_cons_succ] at hline
          obtain ⟨comments, after, next, hon, hafter, hnext, hkept⟩ :=
            ih hline hnamedMiddle
          refine ⟨consComment none comments, after, next, ?_, hafter, ?_,
            hkept⟩
          · intro j hj
            cases j with
            | zero => exact absurd rfl hj
            | succ j => exact congrArg (· + 1) (hon j hj)
          · rw [flatMap_consComment, first.lineTokens_text_none,
              Reader.readTokens_append_of_ok hmiddle]
            exact hnext

theorem harmlessFrom_of_idle
    {lines : List Line} {comments : ℕ → Option TrailingComment}
    (hidle : ∀ i line, lines[i]? = some line → comments i ≠ none →
      line.IsComment ∨ line.Blank ∧ line.tokens = []) (r : Reader) :
    HarmlessFrom r lines comments := by
  induction lines generalizing r comments with
  | nil => trivial
  | cons line lines ih =>
      intro after _
      constructor
      · intro comment hcomment
        have hsome : comments 0 ≠ none := by
          rw [Option.mem_def.mp hcomment]
          simp
        rcases hidle 0 line rfl hsome with hcomment | ⟨hblank, htokens⟩
        · exact .inl hcomment
        · exact .inr (.inl ⟨hblank, by simp [htokens]⟩)
      · apply ih
        intro i other hother hsome
        exact hidle (i + 1) other hother hsome

/-- Comments at the ends of lines and what is read of the file.  Comments that
are harmless where they stand leave the result unchanged; so do any comments
on lines that are comments or blank without a token; and when any comments on
a set of lines leave it unchanged, each of the lines is a comment or blank. -/
theorem trailing_comments_unchanged
    (fileName : String) (lines : List Line) (marked : ℕ → Prop) :
    (∀ comments, HarmlessFrom Reader.start lines comments →
        Unchanged fileName lines comments) ∧
      ((∀ i line, lines[i]? = some line → marked i →
          line.IsComment ∨ line.Blank ∧ line.tokens = []) →
        ∀ comments, CommentsOn marked comments →
          Unchanged fileName lines comments) ∧
      ((∀ comments, CommentsOn marked comments →
          Unchanged fileName lines comments) →
        ∀ i line, lines[i]? = some line → marked i →
          line.IsComment ∨ line.Blank) := by
  refine ⟨fun comments hharmless => hharmless.unchanged fileName, ?_, ?_⟩
  · intro hidle comments hon
    have hharmless := harmlessFrom_of_idle
      (fun i line hline hsome => hidle i line hline (hon i hsome))
      Reader.start
    exact hharmless.unchanged fileName
  · intro hunchanged i line hline hmarked
    by_contra hcode
    rw [not_or] at hcode
    obtain ⟨comments, after, next, hon, hafter, hnext, hahead⟩ :=
      exists_ahead hline hcode.1 hcode.2 start_named
    have hsame := hunchanged comments fun j hj => hon j hj ▸ hmarked
    unfold Unchanged at hsame
    rw [readProtoFile_commented, readProtoFile_commented, hafter, hnext]
      at hsame
    exact hahead.finish_outline_ne fileName hsame

/-- A line of the sample files, with `\n` as its line break. -/
def plainLine (text : String) (hline : '\n' ∉ text.toList) : Line :=
  ⟨text.toList, false, hline⟩

def commentedFile : List Line :=
  [plainLine "service Files\x7b" (by decide),
    plainLine "rpc Get(Req) returns (Resp);" (by decide),
    plainLine "\x7d" (by decide)]

/-- Behind the brace of the block stands a remark about its rpc calls: the word
`rpc` begins an rpc named `calls`, and `Get` is lost. -/
theorem remark_about_rpc_calls_is_read :
    ∃ comment : TrailingComment,
      String.ofList comment.text = " // rpc calls of the store" ∧
        (readProtoFile "files.proto" (.ok (asBytes
            (commented commentedFile fun _ => none)))).map
          ProtoServiceDescription.outline =
          .ok ("Files", [("Get", some (.single "Req"),
            some (.single "Resp"))]) ∧
        (readProtoFile "files.proto" (.ok (asBytes
            (commented commentedFile
              (consComment (some comment) fun _ => none))))).map
          ProtoServiceDescription.outline =
          .ok ("Files", [("calls", some (.single "of"),
            some (.single "Resp"))]) ∧
        ¬ Unchanged "files.proto" commentedFile
          (consComment (some comment) fun _ => none) := by
  let comment := TrailingComment.ofWords
    ["rpc", "calls", "of", "the", "store"] (by decide)
  have hbare : (readProtoFile "files.proto" (.ok (asBytes
        (commented commentedFile fun _ => none)))).map
      ProtoServiceDescription.outline =
      .ok ("Files", [("Get", some (.single "Req"),
        some (.single "Resp"))]) := by
    rw [readProtoFile_commented]
    decide +kernel
  have hread : (readProtoFile "files.proto" (.ok (asBytes
        (commented commentedFile
          (consComment (some comment) fun _ => none))))).map
      ProtoServiceDescription.outline =
      .ok ("Files", [("calls", some (.single "of"),
        some (.single "Resp"))]) := by
    rw [readProtoFile_commented]
    decide +kernel
  refine ⟨comment, by decide +kernel, hbare, hread, ?_⟩
  unfold Unchanged
  rw [hbare, hread]
  decide

end ProtoFileReader
end GrpcExtensions
