import GrpcExtensions.ProtoTokensReader

/-!
# The telemetry of a function of a server

`with_telemetry` reads the tokens of a function from the left.  The first body
in braces that it meets behind the name of a function has the telemetry put in
front of the place where the request is taken apart.
-/

namespace GrpcExtensions
namespace WithTelemetry

open ProtoFileReader (Panic)

section Tokens

inductive Delimiter where
  | parenthesis
  | brace
  | bracket
  | none
  deriving DecidableEq

inductive TokenTree where
  | group (delimiter : Delimiter) (stream : List TokenTree)
  | ident (name : String)
  /-- `joint` when the next token belongs to the same operator. -/
  | punct (ch : Char) (joint : Bool)
  | literal (text : String)

abbrev TokenStream := List TokenTree

namespace TokenTree

/-- The text of a token that is no group. -/
def text : TokenTree → Option String
  | .group _ _ => .none
  | .ident name => some name
  | .punct ch _ => some (String.singleton ch)
  | .literal text => some text

/-- The name in an identifier. -/
def word : TokenTree → Option String
  | .ident name => some name
  | _ => .none

end TokenTree

/-- The stream begins with tokens of these texts. -/
def Spells (sequence : List String) (stream : TokenStream) : Prop :=
  sequence.map some <+: stream.map TokenTree.text

instance (sequence : List String) (stream : TokenStream) :
    Decidable (Spells sequence stream) :=
  inferInstanceAs (Decidable (sequence.map some <+: stream.map TokenTree.text))

/-- The sequence stands somewhere in the stream, maybe inside a group. -/
inductive Occurs (sequence : List String) : TokenStream → Prop
  | here {stream : TokenStream} :
      Spells sequence stream → Occurs sequence stream
  | later {token : TokenTree} {stream : TokenStream} :
      Occurs sequence stream → Occurs sequence (token :: stream)
  | inside {delimiter : Delimiter} {inner stream : TokenStream} :
      Occurs sequence inner →
      Occurs sequence (.group delimiter inner :: stream)

/-- The second stream is the first one with these tokens in front of one place
where the sequence stands. -/
inductive Inserted (sequence : List String) (tokens : TokenStream) :
    TokenStream → TokenStream → Prop
  | here {stream : TokenStream} :
      Spells sequence stream →
      Inserted sequence tokens stream (tokens ++ stream)
  | later {token : TokenTree} {stream result : TokenStream} :
      Inserted sequence tokens stream result →
      Inserted sequence tokens (token :: stream) (token :: result)
  | inside {delimiter : Delimiter} {inner changed stream : TokenStream} :
      Inserted sequence tokens inner changed →
      Inserted sequence tokens (.group delimiter inner :: stream)
        (.group delimiter changed :: stream)

/-- `insert_token_before_sequence` of the crate `types_reader`.  It is assumed
that it searches the groups as well, inserts the tokens once, in front of one
place where the sequence stands, and has no result only where there is none. -/
structure TokenInserter where
  insert : TokenStream → List String → TokenStream → Option TokenStream
  inserted : ∀ {stream sequence tokens result},
    insert stream sequence tokens = some result →
      Inserted sequence tokens stream result
  absent : ∀ {stream sequence tokens},
    insert stream sequence tokens = none → ¬ Occurs sequence stream

end Tokens

section Source

/-- `inject_telemetry_line`. -/
def injectTelemetryLine (fnName : String) : TokenStream :=
  [.ident "let", .ident "my_telemetry", .punct '=' false,
    .ident "my_grpc_extensions", .punct ':' true, .punct ':' false,
    .ident "get_telemetry",
    .group .parenthesis [.punct '&' false, .ident "request", .punct '.' false,
      .ident "metadata", .group .parenthesis [], .punct ',' false,
      .ident "request", .punct '.' false, .ident "remote_addr",
      .group .parenthesis [], .punct ',' false,
      .literal ("\"" ++ fnName ++ "\"")],
    .punct ';' false,
    .ident "let", .ident "my_telemetry", .punct '=' false,
    .ident "my_telemetry", .punct '.' false, .ident "get_ctx",
    .group .parenthesis [], .punct ';' false]

/-- How a body may take the request apart, in the order of the attempts. -/
def sequences : List (List String) :=
  [["let", "request", "=", "request", ".", "into_inner"],
    ["let", "_request", "=", "request", ".", "into_inner"],
    ["let", "mut", "request", "=", "request", ".", "into_inner"]]

/-- The variables of `generate`. -/
structure Scan where
  fnIsEngaged : Bool
  fnName : Option String
  injectionIsDone : Bool
  result : TokenStream

def Scan.start : Scan :=
  ⟨false, none, false, []⟩

def Scan.push (s : Scan) (token : TokenTree) : Scan :=
  { s with result := s.result ++ [token] }

variable (inserter : TokenInserter)

def injectBody (fnName : String) (stream : TokenStream) :
    Except Panic TokenStream :=
  match sequences.findSome? fun sequence =>
      inserter.insert stream sequence (injectTelemetryLine fnName) with
  | some result => .ok result
  | none =>
      .error (.message
        "Could not find 'let request = request.into_inner()' in fn body")

def scanToken (s : Scan) (token : TokenTree) : Except Panic Scan :=
  match token with
  | .ident ident =>
      if s.injectionIsDone then .ok (s.push token)
      else if s.fnIsEngaged then
        .ok ({ s with fnName := some ident, fnIsEngaged := false }.push token)
      else if ident = "fn" then
        .ok ({ s with fnIsEngaged := true }.push token)
      else .ok (s.push token)
  | .group .brace stream =>
      if s.injectionIsDone then .ok (s.push token)
      else
        match s.fnName with
        | some fnName => do
            let stream ← injectBody inserter fnName stream
            return { s with injectionIsDone := true }.push
              (.group .brace stream)
        | none => .ok (s.push token)
  | _ => .ok (s.push token)

def generate (input : TokenStream) : Except Panic TokenStream := do
  let s ← input.foldlM (scanToken inserter) Scan.start
  return s.result

end Source

section Searching

variable (sequence : List String) (tokens : TokenStream)

mutual

def insertTree : TokenTree → Option TokenTree
  | .group delimiter inner =>
      (insertStream inner).map (TokenTree.group delimiter)
  | .ident _ => none
  | .punct _ _ => none
  | .literal _ => none

def insertStream : List TokenTree → Option (List TokenTree)
  | [] => if Spells sequence [] then some tokens else none
  | token :: stream =>
      if Spells sequence (token :: stream) then
        some (tokens ++ token :: stream)
      else
        match insertTree token with
        | some changed => some (changed :: stream)
        | none => (insertStream stream).map fun result => token :: result

end

mutual

theorem inserted_of_insertTree :
    ∀ {token changed : TokenTree},
      insertTree sequence tokens token = some changed →
      ∀ stream, Inserted sequence tokens (token :: stream) (changed :: stream)
  | .group delimiter inner, changed, hinsert, stream => by
      rw [insertTree, Option.map_eq_some_iff] at hinsert
      rcases hinsert with ⟨result, hresult, rfl⟩
      exact .inside (inserted_of_insertStream hresult)
  | .ident _, _, hinsert, _ => by simp [insertTree] at hinsert
  | .punct _ _, _, hinsert, _ => by simp [insertTree] at hinsert
  | .literal _, _, hinsert, _ => by simp [insertTree] at hinsert

theorem inserted_of_insertStream :
    ∀ {stream result : List TokenTree},
      insertStream sequence tokens stream = some result →
      Inserted sequence tokens stream result
  | [], result, hinsert => by
      rw [insertStream] at hinsert
      split at hinsert
      next hspells =>
        cases hinsert
        have hinserted : Inserted sequence tokens [] (tokens ++ []) :=
          .here hspells
        simpa using hinserted
      next => contradiction
  | token :: stream, result, hinsert => by
      rw [insertStream] at hinsert
      split at hinsert
      next hspells =>
        cases hinsert
        exact .here hspells
      next =>
        cases htoken : insertTree sequence tokens token with
        | some changed =>
            rw [htoken] at hinsert
            cases hinsert
            exact inserted_of_insertTree htoken stream
        | none =>
            rw [htoken] at hinsert
            rcases Option.map_eq_some_iff.mp hinsert with ⟨rest, hrest, rfl⟩
            exact .later (inserted_of_insertStream hrest)

end

theorem not_occurs_of_insertStream
    {stream : List TokenTree}
    (hinsert : insertStream sequence tokens stream = none) :
    ¬ Occurs sequence stream := by
  intro hoccurs
  induction hoccurs with
  | @here stream hspells =>
      cases stream with
      | nil => simp [insertStream, hspells] at hinsert
      | cons token stream => simp [insertStream, hspells] at hinsert
  | @later token stream _ ih =>
      rw [insertStream] at hinsert
      split at hinsert
      · contradiction
      · split at hinsert
        · contradiction
        · exact ih (Option.map_eq_none_iff.mp hinsert)
  | @inside delimiter inner stream _ ih =>
      rw [insertStream] at hinsert
      split at hinsert
      · contradiction
      · split at hinsert
        next => contradiction
        next htree =>
          rw [insertTree, Option.map_eq_none_iff] at htree
          exact ih htree

/-- Searches from the left, groups included. -/
def searchingInserter : TokenInserter where
  insert stream sequence tokens := insertStream sequence tokens stream
  inserted := fun hinsert => inserted_of_insertStream _ _ hinsert
  absent := fun hinsert => not_occurs_of_insertStream _ _ hinsert

end Searching

section Names

/-- The function that these words name last.  A word behind `fn` is a name,
also the word `fn`. -/
inductive NamesLast : List String → Option String → Prop
  | nothing : NamesLast [] none
  | other {words : List String} {fnName : Option String} {word : String} :
      NamesLast words fnName → word ≠ "fn" →
      NamesLast (words ++ [word]) fnName
  | name {words : List String} {before : Option String} (fnName : String) :
      NamesLast words before → NamesLast (words ++ ["fn", fnName]) (some fnName)

/-- The same where a last word `fn` may wait for a name. -/
inductive Reads : List String → Bool → Option String → Prop
  | settled {words : List String} {fnName : Option String} :
      NamesLast words fnName → Reads words false fnName
  | engaged {words : List String} {fnName : Option String} :
      NamesLast words fnName → Reads (words ++ ["fn"]) true fnName

def words (stream : TokenStream) : List String :=
  stream.filterMap TokenTree.word

/-- A body behind these tokens belongs to this function. -/
def Names (front : TokenStream) (fnName : String) : Prop :=
  ∃ engaged, Reads (words front) engaged (some fnName)

/-- No braces stand behind the name of a function. -/
def Bodiless (stream : TokenStream) : Prop :=
  ∀ front body back fnName, stream = front ++ .group .brace body :: back →
    ¬ Names front fnName

def readWord (state : Bool × Option String) (word : String) :
    Bool × Option String :=
  if state.1 then (false, some word)
  else if word = "fn" then (true, state.2)
  else state

theorem readWord_of_namesLast
    {words : List String} {fnName : Option String}
    (hnames : NamesLast words fnName) :
    words.foldl readWord (false, none) = (false, fnName) := by
  induction hnames with
  | nothing => rfl
  | other _ hword ih => simp [List.foldl_append, ih, readWord, hword]
  | name _ _ ih => simp [List.foldl_append, ih, readWord]

theorem readWord_of_reads
    {words : List String} {engaged : Bool} {fnName : Option String}
    (hreads : Reads words engaged fnName) :
    words.foldl readWord (false, none) = (engaged, fnName) := by
  cases hreads with
  | settled hnames => exact readWord_of_namesLast hnames
  | engaged hnames =>
      simp [List.foldl_append, readWord_of_namesLast hnames, readWord]

theorem Reads.unique
    {words : List String} {engaged other : Bool}
    {fnName otherName : Option String}
    (hreads : Reads words engaged fnName)
    (hother : Reads words other otherName) : fnName = otherName := by
  have hboth :=
    (readWord_of_reads hreads).symm.trans (readWord_of_reads hother)
  exact congrArg Prod.snd hboth

end Names

section Scanning

variable {inserter : TokenInserter} {s : Scan} {front : TokenStream}

/-- The loop behind these tokens, before anything is injected. -/
structure Scan.Undone (s : Scan) (front : TokenStream) : Prop where
  reads : Reads (words front) s.fnIsEngaged s.fnName
  injectionIsDone : s.injectionIsDone = false
  result : s.result = front

theorem undone_start : Scan.start.Undone [] where
  reads := .settled .nothing
  injectionIsDone := rfl
  result := rfl

theorem words_concat (front : TokenStream) (token : TokenTree) :
    words (front ++ [token]) = words front ++ token.word.toList := by
  unfold words
  rw [List.filterMap_append]
  cases hword : token.word <;> simp [hword]

theorem undone_push
    (hundone : s.Undone front) {token : TokenTree}
    (hword : token.word = none) : (s.push token).Undone (front ++ [token]) := by
  constructor
  · rw [words_concat, hword, Option.toList_none, List.append_nil]
    exact hundone.reads
  · exact hundone.injectionIsDone
  · rw [← hundone.result]
    rfl

/-- An identifier is a name, or `fn`, or nothing to the loop. -/
theorem scanToken_ident (hundone : s.Undone front) (ident : String) :
    ∃ after, scanToken inserter s (.ident ident) = .ok after ∧
      after.Undone (front ++ [.ident ident]) := by
  rcases hundone with ⟨hreads, hdone, hresult⟩
  have hpushed : s.result ++ [TokenTree.ident ident] =
      front ++ [.ident ident] := by
    rw [hresult]
  have hwords : words (front ++ [.ident ident]) = words front ++ [ident] :=
    words_concat front (.ident ident)
  unfold scanToken
  rw [hdone]
  generalize hfront : words front = read at hreads hwords
  generalize hengaged : s.fnIsEngaged = engaged at hreads
  generalize hname : s.fnName = fnName at hreads
  cases hreads with
  | settled hnames =>
      by_cases hfn : ident = "fn"
      · refine ⟨{ s with fnIsEngaged := true }.push (.ident ident),
          by simp [hfn, hdone, hname], ?_, hdone, hpushed⟩
        rw [hwords, hfn]
        exact hname ▸ .engaged hnames
      · refine ⟨s.push (.ident ident), by simp [hfn], ?_, hdone, hpushed⟩
        rw [hwords]
        have hread : Reads (read ++ [ident]) false fnName :=
          .settled (.other hnames hfn)
        rwa [← hengaged, ← hname] at hread
  | engaged hnames =>
      refine ⟨{ s with
          fnName := some ident
          fnIsEngaged := false }.push (.ident ident),
        by simp [hdone], ?_, hdone, hpushed⟩
      rw [hwords, List.append_assoc]
      exact .settled (.name ident hnames)

theorem scanToken_undone
    (inserter : TokenInserter) (hundone : s.Undone front) {token : TokenTree}
    (hbody : ∀ body, token = .group .brace body → s.fnName = none) :
    ∃ after, scanToken inserter s token = .ok after ∧
      after.Undone (front ++ [token]) := by
  have hpush : token.word = none → scanToken inserter s token =
      .ok (s.push token) → ∃ after, scanToken inserter s token = .ok after ∧
        after.Undone (front ++ [token]) := by
    intro hword hscan
    exact ⟨_, hscan, undone_push hundone hword⟩
  cases token with
  | ident ident => exact scanToken_ident hundone ident
  | punct ch joint => exact hpush rfl rfl
  | literal text => exact hpush rfl rfl
  | group delimiter body =>
      cases delimiter with
      | parenthesis => exact hpush rfl rfl
      | bracket => exact hpush rfl rfl
      | none => exact hpush rfl rfl
      | brace =>
          have hname := hbody body rfl
          have hscan : scanToken inserter s (.group .brace body) =
              .ok (s.push (.group .brace body)) := by
            simp [scanToken, hname]
          exact hpush rfl hscan

theorem names_of_undone
    (hundone : s.Undone front)
    {fnName : String} (hname : s.fnName = some fnName) : Names front fnName :=
  ⟨s.fnIsEngaged, hname ▸ hundone.reads⟩

theorem foldlM_concat
    {stream : TokenStream} {middle : Scan}
    (hstream : stream.foldlM (scanToken inserter) s = .ok middle)
    (token : TokenTree) (back : TokenStream) :
    (stream ++ token :: back).foldlM (scanToken inserter) s =
      (scanToken inserter middle token).bind fun after =>
        back.foldlM (scanToken inserter) after := by
  rw [List.foldlM_append, hstream]
  rfl

theorem bodiless_concat
    (hundone : s.Undone front) (hbodiless : Bodiless front)
    {token : TokenTree}
    (hbody : ∀ body, token = .group .brace body → s.fnName = none) :
    Bodiless (front ++ [token]) := by
  intro first body back fnName hsplit hnames
  rcases List.eq_nil_or_concat back with rfl | ⟨rest, last, rfl⟩
  · rcases List.append_inj' hsplit rfl with ⟨hfront, htoken⟩
    rw [← hfront] at hnames
    rcases hnames with ⟨engaged, hreads⟩
    have hname := hbody body (List.cons.inj htoken).1
    rw [← hreads.unique hundone.reads] at hname
    contradiction
  · have hshape : front ++ [token] =
        (first ++ .group .brace body :: rest) ++ [last] := by
      simpa using hsplit
    rcases List.append_inj' hshape rfl with ⟨hfront, _⟩
    exact hbodiless first body rest fnName hfront hnames

/-- The loop meets no body that it would change, or there is a first one. -/
theorem scan_cases (inserter : TokenInserter) (stream : TokenStream) :
    (∃ s, stream.foldlM (scanToken inserter) Scan.start = .ok s ∧
      s.Undone stream ∧ Bodiless stream) ∨
    ∃ front body back s fnName, stream = front ++ .group .brace body :: back ∧
      front.foldlM (scanToken inserter) Scan.start = .ok s ∧
      s.Undone front ∧ Bodiless front ∧ s.fnName = some fnName := by
  induction stream using List.reverseRecOn with
  | nil =>
      have hbodiless : Bodiless [] := by
        intro front body back fnName hnil
        simp at hnil
      exact Or.inl ⟨Scan.start, rfl, undone_start, hbodiless⟩
  | append_singleton stream token ih =>
      rcases ih with ⟨s, hscan, hundone, hbodiless⟩ |
          ⟨front, body, back, s, fnName, hstream, hrest⟩
      · by_cases hbody : ∀ body, token = .group .brace body → s.fnName = none
        · rcases scanToken_undone inserter hundone hbody with
              ⟨after, htoken, hafter⟩
          apply Or.inl
          refine ⟨after, ?_, hafter, ?_⟩
          · rw [foldlM_concat hscan, htoken]
            rfl
          · exact bodiless_concat hundone hbodiless hbody
        · push Not at hbody
          rcases hbody with ⟨body, htoken, hname⟩
          rcases Option.ne_none_iff_exists'.mp hname with ⟨fnName, hfnName⟩
          exact Or.inr ⟨stream, body, [], s, fnName, by rw [htoken], hscan,
            hundone, hbodiless, hfnName⟩
      · apply Or.inr
        refine ⟨front, body, back ++ [token], s, fnName, ?_, hrest⟩
        rw [hstream, List.append_assoc]
        rfl

/-- Behind an injection the tokens are only passed on. -/
theorem foldlM_of_done
    (inserter : TokenInserter) (hdone : s.injectionIsDone = true)
    (back : TokenStream) :
    back.foldlM (scanToken inserter) s =
      .ok { s with result := s.result ++ back } := by
  induction back generalizing s with
  | nil => simp [pure, Except.pure]
  | cons token back ih =>
      have htoken : scanToken inserter s token = .ok (s.push token) := by
        cases token with
        | ident ident => simp [scanToken, hdone]
        | punct ch joint => rfl
        | literal text => rfl
        | group delimiter body => cases delimiter <;> simp [scanToken, hdone]
      rw [List.foldlM_cons, htoken]
      have hpushed : (s.push token).injectionIsDone = true := hdone
      refine (ih hpushed).trans ?_
      simp [Scan.push]

theorem injectBody_cases
    (inserter : TokenInserter) (fnName : String) (body : TokenStream) :
    (∃ before sequence after changed,
      sequences = before ++ sequence :: after ∧
      (∀ earlier ∈ before, ¬ Occurs earlier body) ∧
      Inserted sequence (injectTelemetryLine fnName) body changed ∧
      injectBody inserter fnName body = .ok changed) ∨
    ((∀ sequence ∈ sequences, ¬ Occurs sequence body) ∧
      injectBody inserter fnName body = .error (.message
        "Could not find 'let request = request.into_inner()' in fn body")) := by
  unfold injectBody
  cases hfound : sequences.findSome? fun sequence =>
      inserter.insert body sequence (injectTelemetryLine fnName) with
  | none =>
      apply Or.inr
      refine ⟨?_, rfl⟩
      intro sequence hsequence
      exact inserter.absent (List.findSome?_eq_none_iff.mp hfound _ hsequence)
  | some changed =>
      rcases List.findSome?_eq_some_iff.mp hfound with
          ⟨before, sequence, after, hsplit, hchanged, hbefore⟩
      apply Or.inl
      refine ⟨before, sequence, after, changed, hsplit, ?_,
        inserter.inserted hchanged, rfl⟩
      intro earlier hearlier
      exact inserter.absent (hbefore earlier hearlier)

end Scanning

section Outcomes

/-- The answers of the macro: the tokens as they are, or the telemetry in the
first body in front of the first sequence that is there, or a panic. -/
inductive Outcome (input : TokenStream) : Except Panic TokenStream → Prop
  | unchanged : Bodiless input → Outcome input (.ok input)
  | injected {front body back changed : TokenStream} {fnName : String}
      {before after : List (List String)} {sequence : List String} :
      input = front ++ .group .brace body :: back → Bodiless front →
      Names front fnName → sequences = before ++ sequence :: after →
      (∀ earlier ∈ before, ¬ Occurs earlier body) →
      Inserted sequence (injectTelemetryLine fnName) body changed →
      Outcome input (.ok (front ++ .group .brace changed :: back))
  | missing {front body back : TokenStream} {fnName : String} :
      input = front ++ .group .brace body :: back → Bodiless front →
      Names front fnName → (∀ sequence ∈ sequences, ¬ Occurs sequence body) →
      Outcome input (.error (.message
        "Could not find 'let request = request.into_inner()' in fn body"))

variable {inserter : TokenInserter}

theorem generate_at_body
    {front : TokenStream} {s : Scan} {fnName : String}
    (hscan : front.foldlM (scanToken inserter) Scan.start = .ok s)
    (hundone : s.Undone front) (hname : s.fnName = some fnName)
    (body back : TokenStream) :
    generate inserter (front ++ .group .brace body :: back) =
      (injectBody inserter fnName body).bind fun changed =>
        .ok (front ++ .group .brace changed :: back) := by
  have hbody : scanToken inserter s (.group .brace body) =
      (injectBody inserter fnName body).bind fun changed =>
        .ok ({ s with injectionIsDone := true }.push
          (.group .brace changed)) := by
    simp only [scanToken, hundone.injectionIsDone, hname]
    rfl
  unfold generate
  rw [foldlM_concat hscan, hbody]
  cases injectBody inserter fnName body with
  | error panic => rfl
  | ok changed =>
      let injected : Scan := { s with injectionIsDone := true }
      have hrest := foldlM_of_done inserter
        (s := injected.push (.group .brace changed)) rfl back
      change (back.foldlM (scanToken inserter) _).bind
        (fun s => .ok s.result) = _
      rw [hrest]
      change Except.ok (s.result ++ [.group .brace changed] ++ back) = _
      rw [hundone.result, List.append_assoc]
      rfl

theorem with_telemetry_outcome
    (inserter : TokenInserter) (input : TokenStream) :
    Outcome input (generate inserter input) := by
  rcases scan_cases inserter input with ⟨s, hscan, hundone, hbodiless⟩ |
      ⟨front, body, back, s, fnName, hinput, hscan, hundone, hbodiless, hname⟩
  · unfold generate
    rw [hscan]
    change Outcome input (.ok s.result)
    rw [hundone.result]
    exact .unchanged hbodiless
  · have hnames := names_of_undone hundone hname
    rw [hinput, generate_at_body hscan hundone hname]
    rcases injectBody_cases inserter fnName body with
        ⟨before, sequence, after, changed, hsplit, hbefore, hinserted, hok⟩ |
        ⟨habsent, hpanic⟩
    · rw [hok]
      exact .injected rfl hbodiless hnames hsplit hbefore hinserted
    · rw [hpanic]
      exact .missing rfl hbodiless hnames habsent

/-- The request is taken apart in a block inside the body. -/
theorem with_telemetry_outcome_inner_block :
    let front : TokenStream := [.ident "async", .ident "fn", .ident "get",
      .group .parenthesis [.ident "request", .punct ',' false]]
    let taken : TokenStream := [.ident "let", .ident "request",
      .punct '=' false, .ident "request", .punct '.' false,
      .ident "into_inner", .group .parenthesis [], .punct ';' false]
    let input := front ++ [.group .brace [.ident "Box", .group .brace taken]]
    let output := front ++ [.group .brace [.ident "Box",
      .group .brace (injectTelemetryLine "get" ++ taken)]]
    generate searchingInserter input = .ok output ∧
      Outcome input (.ok output) := by
  intro front taken input output
  have hgenerate : generate searchingInserter input = .ok output := rfl
  refine ⟨hgenerate, ?_⟩
  rw [← hgenerate]
  exact with_telemetry_outcome searchingInserter input

theorem namesLast_of_no_fn {words : List String} (hfn : "fn" ∉ words) :
    NamesLast words none := by
  induction words using List.reverseRecOn with
  | nil => exact .nothing
  | append_singleton words word ih =>
      rw [List.mem_append, List.mem_singleton, not_or] at hfn
      exact .other (ih hfn.1) (Ne.symm hfn.2)

theorem namesLast_append
    {before after : List String} {fnName : Option String}
    (hnames : NamesLast before fnName) (hfn : "fn" ∉ after) :
    NamesLast (before ++ after) fnName := by
  induction after using List.reverseRecOn with
  | nil => rwa [List.append_nil]
  | append_singleton after word ih =>
      rw [List.mem_append, List.mem_singleton, not_or] at hfn
      rw [← List.append_assoc]
      exact .other (ih hfn.1) (Ne.symm hfn.2)

/-- The tokens of a function up to its body: in front of `fn` and behind the
name the word `fn` does not stand, and the signature has no braces. -/
structure Signature (front : TokenStream) (fnName : String) : Prop where
  parts : ∃ qualifiers signature,
    front = qualifiers ++ .ident "fn" :: .ident fnName :: signature ∧
      "fn" ∉ words qualifiers ∧ "fn" ∉ words signature ∧
      ∀ body, .group .brace body ∉ signature

theorem Signature.names
    {front : TokenStream} {fnName : String}
    (hsignature : Signature front fnName) : Names front fnName := by
  rcases hsignature.parts with
      ⟨qualifiers, signature, rfl, hqualifiers, hrest, _⟩
  have hwords : words (qualifiers ++ .ident "fn" :: .ident fnName ::
      signature) = words qualifiers ++ ["fn", fnName] ++ words signature := by
    simp [words, TokenTree.word]
  refine ⟨false, ?_⟩
  rw [hwords]
  have hnamed := NamesLast.name fnName (namesLast_of_no_fn hqualifiers)
  exact .settled (namesLast_append hnamed hrest)

theorem Signature.bodiless
    {front : TokenStream} {fnName : String}
    (hsignature : Signature front fnName) : Bodiless front := by
  rcases hsignature.parts with
      ⟨qualifiers, signature, rfl, hqualifiers, _, hbraces⟩
  intro first body back other hsplit hnames
  rcases List.append_eq_append_iff.mp hsplit with
      ⟨between, _, hbehind⟩ | ⟨between, hfirst, _⟩
  · have hmem : TokenTree.group .brace body ∈
        (.ident "fn" :: .ident fnName :: signature : TokenStream) := by
      rw [hbehind]
      simp
    simp only [List.mem_cons, reduceCtorEq, false_or] at hmem
    exact hbraces body hmem
  · have hfn : "fn" ∉ words first := by
      intro hmem
      apply hqualifiers
      rw [hfirst, words, List.filterMap_append]
      exact List.mem_append_left _ hmem
    rcases hnames with ⟨engaged, hreads⟩
    have hnone := hreads.unique (.settled (namesLast_of_no_fn hfn))
    contradiction

/-- The telemetry of a function has the name of the function. -/
theorem generate_of_function
    (inserter : TokenInserter) {front : TokenStream} {fnName : String}
    (hsignature : Signature front fnName) (body back : TokenStream) :
    generate inserter (front ++ .group .brace body :: back) =
      (injectBody inserter fnName body).bind fun changed =>
        .ok (front ++ .group .brace changed :: back) := by
  rcases scan_cases inserter front with ⟨s, hscan, hundone, _⟩ |
      ⟨first, inner, rest, s, other, hfront, _, hundone, _, hname⟩
  · rcases hsignature.names with ⟨engaged, hreads⟩
    exact generate_at_body hscan hundone
      (hundone.reads.unique hreads) body back
  · have hnames := names_of_undone hundone hname
    exact absurd hnames (hsignature.bodiless first inner rest other hfront)

end Outcomes

end WithTelemetry
end GrpcExtensions
