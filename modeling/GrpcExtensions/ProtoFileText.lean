import GrpcExtensions.ProtoFileReader

/-!
# The text of a .proto file

A file renders a list of tokens when each of its lines is a comment or renders
some of them, with any whitespace between.  Whatever the layout, the reader
sees the tokens of the lines in their order.
-/

namespace GrpcExtensions
namespace ProtoFileReader

open Utf8Text

def IsCommentLine (line : List Char) : Prop :=
  ∃ gap body, (∀ c ∈ gap, isWhitespace c = true) ∧
    line = gap ++ '/' :: '/' :: body

inductive RendersLine : List String → List Char → Prop
  | comment {line : List Char} :
      IsCommentLine line →
      RendersLine [] line
  | code {tokens : List String} {line : List Char} :
      ¬ IsCommentLine line →
      Lexer.Renders charKind (tokens.map String.toList) line →
      RendersLine tokens line

/-- A line break is `\n`; the `\r` of `\r\n` counts as a space of the line. -/
inductive RendersFile : List String → List Char → Prop
  | last {tokens : List String} {line : List Char} :
      '\n' ∉ line →
      RendersLine tokens line →
      RendersFile tokens line
  | line {tokens more : List String} {line rest : List Char} :
      '\n' ∉ line →
      RendersLine tokens line →
      RendersFile more rest →
      RendersFile (tokens ++ more) (line ++ '\n' :: rest)

/-- The tokens of a text whose first line begins with `buf`. -/
def fileTokensFrom (buf : List Char) : List Char → List String
  | [] => lineTokens buf
  | c :: rest =>
      if c = '\n' then lineTokens buf ++ fileTokensFrom [] rest
      else fileTokensFrom (buf ++ [c]) rest

def fileTokens (text : List Char) : List String :=
  fileTokensFrom [] text

section Lines

theorem rdropWhile_append_cons
    {p : Char → Bool} {c : Char} (hc : ¬ p c) (front back : List Char) :
    (front ++ c :: back).rdropWhile p =
      front ++ c :: back.rdropWhile p := by
  induction back using List.reverseRecOn with
  | nil => simp [List.rdropWhile_concat_neg p front c hc]
  | append_singleton back d ih =>
      have hsplit : front ++ c :: (back ++ [d]) =
          (front ++ c :: back) ++ [d] := by simp
      rw [hsplit]
      by_cases hd : p d
      · rw [List.rdropWhile_concat_pos p _ d hd,
          List.rdropWhile_concat_pos p _ d hd, ih]
      · rw [List.rdropWhile_concat_neg p _ d hd,
          List.rdropWhile_concat_neg p _ d hd, ← hsplit]

theorem trim_append_whitespace
    {c : Char} (hc : isWhitespace c = true) (text : List Char) :
    trim (text ++ [c]) = trim text := by
  unfold trim
  rw [List.dropWhile_append]
  cases hdrop : text.dropWhile isWhitespace with
  | nil => simp [hc]
  | cons d rest =>
      simp only [List.isEmpty_cons, Bool.false_eq_true, if_false]
      exact List.rdropWhile_concat_pos isWhitespace _ c hc

theorem isComment_iff {line : List Char} :
    isComment line = true ↔ IsCommentLine line := by
  have hslash : ¬ isWhitespace '/' := by decide
  unfold isComment
  rw [List.isPrefixOf_iff_prefix]
  constructor
  · intro hslashes
    have hdrop : "//".toList <+: line.dropWhile isWhitespace :=
      hslashes.trans (List.rdropWhile_prefix isWhitespace _)
    obtain ⟨body, hbody⟩ := hdrop
    refine ⟨line.takeWhile isWhitespace, body, ?_, ?_⟩
    · intro c hc
      exact List.mem_takeWhile_imp hc
    · have hline : line.takeWhile isWhitespace ++
          line.dropWhile isWhitespace = line :=
        List.takeWhile_append_dropWhile
      rw [← hbody] at hline
      exact hline.symm
  · rintro ⟨gap, body, hgap, rfl⟩
    have hdrop : (gap ++ '/' :: '/' :: body).dropWhile isWhitespace =
        ['/'] ++ '/' :: body := by
      rw [List.dropWhile_append_of_pos hgap]
      simp [hslash]
    rw [trim, hdrop, rdropWhile_append_cons hslash]
    exact ⟨_, rfl⟩

theorem lineTokens_append_carriageReturn (line : List Char) :
    lineTokens (line ++ ['\r']) = lineTokens line := by
  have hcomment : isComment (line ++ ['\r']) = isComment line := by
    rw [isComment, trim_append_whitespace (by decide), isComment]
  have hlex : Lexer.lex charKind (line ++ ['\r']) =
      Lexer.lex charKind line :=
    Lexer.lex_append_space (by decide) line
  rw [lineTokens, hcomment, hlex, lineTokens]

theorem lineTokens_of_isCommentLine
    {line : List Char} (hcomment : IsCommentLine line) :
    lineTokens line = [] := by
  simp [lineTokens, isComment_iff.mpr hcomment]

theorem lineTokens_of_not_isCommentLine
    {line : List Char} (hcode : ¬ IsCommentLine line) :
    lineTokens line = (Lexer.lex charKind line).map String.ofList := by
  have hno : isComment line = false := by
    rw [← Bool.not_eq_true, isComment_iff]
    exact hcode
  simp [lineTokens, hno]

theorem rendersLine_iff {tokens : List String} {line : List Char} :
    RendersLine tokens line ↔ lineTokens line = tokens := by
  have hofList : ∀ words : List (List Char),
      (words.map String.ofList).map String.toList = words := by
    intro words
    simp
  constructor
  · intro hrenders
    cases hrenders with
    | comment hcomment => exact lineTokens_of_isCommentLine hcomment
    | code hcode htokens =>
        rw [lineTokens_of_not_isCommentLine hcode,
          Lexer.lex_of_renders htokens]
        simp
  · intro htokens
    rw [← htokens]
    by_cases hcomment : IsCommentLine line
    · rw [lineTokens_of_isCommentLine hcomment]
      exact .comment hcomment
    · rw [lineTokens_of_not_isCommentLine hcomment]
      refine .code hcomment ?_
      rw [hofList]
      exact Lexer.renders_iff.mpr rfl

theorem fileTokensFrom_line
    {line : List Char} (hline : '\n' ∉ line) (buf rest : List Char) :
    fileTokensFrom buf (line ++ '\n' :: rest) =
      lineTokens (buf ++ line) ++ fileTokens rest := by
  induction line generalizing buf with
  | nil => simp [fileTokensFrom, fileTokens]
  | cons c line ih =>
      have hc : c ≠ '\n' := by
        intro heq
        simp [heq] at hline
      have htail : '\n' ∉ line := by
        intro hmem
        simp [hmem] at hline
      simp [fileTokensFrom, hc, ih htail]

theorem fileTokensFrom_last
    {line : List Char} (hline : '\n' ∉ line) (buf : List Char) :
    fileTokensFrom buf line = lineTokens (buf ++ line) := by
  induction line generalizing buf with
  | nil => simp [fileTokensFrom]
  | cons c line ih =>
      have hc : c ≠ '\n' := by
        intro heq
        simp [heq] at hline
      have htail : '\n' ∉ line := by
        intro hmem
        simp [hmem] at hline
      simp [fileTokensFrom, hc, ih htail]

theorem rendersFile_fileTokensFrom
    {buf : List Char} (hbuf : '\n' ∉ buf) (text : List Char) :
    RendersFile (fileTokensFrom buf text) (buf ++ text) := by
  induction text generalizing buf with
  | nil =>
      rw [List.append_nil]
      exact .last hbuf (rendersLine_iff.mpr rfl)
  | cons c rest ih =>
      by_cases hc : c = '\n'
      · subst hc
        rw [fileTokensFrom, if_pos rfl]
        exact .line hbuf (rendersLine_iff.mpr rfl) (ih (by simp))
      · rw [fileTokensFrom, if_neg hc]
        have hlonger : '\n' ∉ buf ++ [c] := by
          simp [hbuf, Ne.symm hc]
        simpa using ih hlonger

theorem rendersFile_iff {tokens : List String} {text : List Char} :
    RendersFile tokens text ↔ fileTokens text = tokens := by
  constructor
  · intro hrenders
    induction hrenders with
    | last hline htokens =>
        rw [fileTokens, fileTokensFrom_last hline, List.nil_append]
        exact rendersLine_iff.mp htokens
    | line hline htokens _ ih =>
        rw [fileTokens, fileTokensFrom_line hline, List.nil_append, ih,
          rendersLine_iff.mp htokens]
  · intro htokens
    rw [← htokens]
    exact rendersFile_fileTokensFrom (by simp) text

theorem fileTokens_intercalate
    {lines : List (List Char)} (hlines : ∀ line ∈ lines, '\n' ∉ line) :
    fileTokens (['\n'].intercalate lines) = lines.flatMap lineTokens := by
  induction lines with
  | nil => rfl
  | cons line rest ih =>
      have hline : '\n' ∉ line := hlines line (by simp)
      have hrest : ∀ l ∈ rest, '\n' ∉ l := by
        intro l hl
        exact hlines l (by simp [hl])
      cases rest with
      | nil =>
          rw [List.intercalate_singleton, fileTokens,
            fileTokensFrom_last hline, List.nil_append]
          simp
      | cons next rest =>
          rw [List.intercalate_cons_cons, List.append_assoc,
            List.singleton_append, fileTokens, fileTokensFrom_line hline,
            List.nil_append, ih hrest]
          exact List.flatMap_cons.symm

end Lines

section Bytes

theorem newline_not_mem_utf8EncodeChar {c : Char} (hc : c ≠ '\n') :
    10 ∉ String.utf8EncodeChar c := by
  intro hmem
  have hcode : c.toNat = 10 := toNat_of_mem_utf8EncodeChar (by decide) hmem
  apply hc
  rw [← Char.ofNat_toNat c, hcode]

theorem getLast?_utf8EncodeChar {c : Char} (hc : c ≠ '\r') :
    (String.utf8EncodeChar c).getLast? ≠ some 13 := by
  intro hlast
  have hmem : 13 ∈ String.utf8EncodeChar c :=
    List.mem_of_getLast? hlast
  have hcode : c.toNat = 13 := toNat_of_mem_utf8EncodeChar (by decide) hmem
  apply hc
  rw [← Char.ofNat_toNat c, hcode]

theorem asBytes_append (front back : List Char) :
    asBytes (front ++ back) = asBytes front ++ asBytes back :=
  List.flatMap_append

theorem asBytes_singleton (c : Char) :
    asBytes [c] = String.utf8EncodeChar c :=
  List.flatMap_singleton _ _

theorem asBytes_cons (c : Char) (text : List Char) :
    asBytes (c :: text) = String.utf8EncodeChar c ++ asBytes text :=
  List.flatMap_cons

theorem linesFrom_append
    {bytes : List UInt8} (hbytes : 10 ∉ bytes) (buf rest : List UInt8) :
    linesFrom buf (bytes ++ rest) = linesFrom (buf ++ bytes) rest := by
  induction bytes generalizing buf with
  | nil => simp
  | cons b bytes ih =>
      have hb : b ≠ 10 := by
        intro heq
        simp [heq] at hbytes
      have htail : 10 ∉ bytes := by
        intro hmem
        simp [hmem] at hbytes
      simp [linesFrom, hb, ih htail]

/-- The tokens of a line of a file, as the reader takes them. -/
def tokensOfLine (line : List UInt8) : Except Panic (List String) := do
  let line ← fromUtf8 line
  (ProtoTokensReader.new line).collect

theorem tokensOfLine_asBytes
    {line : List Char} (hline : '\n' ∉ line) :
    tokensOfLine (asBytes line) = .ok (lineTokens line) := by
  have htokens := tokens_ok (String.ofList line)
  rw [String.toList_ofList, List.splitOn_eq_singleton hline,
    List.flatMap_singleton] at htokens
  unfold tokensOfLine
  rw [fromUtf8_asBytes]
  exact htokens

theorem tokensOfLine_popCarriageReturn
    {line : List Char} (hline : '\n' ∉ line) :
    tokensOfLine (popCarriageReturn (asBytes line)) =
      .ok (lineTokens line) := by
  induction line using List.reverseRecOn with
  | nil => exact tokensOfLine_asBytes hline
  | append_singleton line c _ =>
      by_cases hc : c = '\r'
      · subst hc
        have hshort : '\n' ∉ line := by
          intro hmem
          simp [hmem] at hline
        have hpop : popCarriageReturn (asBytes (line ++ ['\r'])) =
            asBytes line := by
          rw [asBytes_append, asBytes_singleton,
            utf8EncodeChar_ascii (by decide)]
          simp [popCarriageReturn]
        rw [hpop, tokensOfLine_asBytes hshort,
          lineTokens_append_carriageReturn]
      · have hlast : (asBytes (line ++ [c])).getLast? ≠ some 13 := by
          rw [asBytes_append, asBytes_singleton,
            List.getLast?_append_of_ne_nil _ (utf8EncodeChar_ne_nil c)]
          exact getLast?_utf8EncodeChar hc
        rw [popCarriageReturn, if_neg hlast]
        exact tokensOfLine_asBytes hline

/-- The lines of a file have the tokens of its text. -/
theorem exists_tokens_linesFrom
    {buf : List Char} (hbuf : '\n' ∉ buf) (text : List Char) :
    ∃ parts, (linesFrom (asBytes buf) (asBytes text)).mapM tokensOfLine =
        .ok parts ∧
      parts.flatten = fileTokensFrom buf text := by
  induction text generalizing buf with
  | nil =>
      unfold fileTokensFrom
      by_cases hempty : buf = []
      · subst hempty
        exact ⟨[], rfl, rfl⟩
      · have hne : asBytes buf ≠ [] := by
          obtain ⟨c, buf, rfl⟩ := List.exists_cons_of_ne_nil hempty
          rw [asBytes_cons]
          intro hnil
          exact utf8EncodeChar_ne_nil c (List.append_eq_nil_iff.mp hnil).1
        have hlines : linesFrom (asBytes buf) (asBytes []) =
            [asBytes buf] := by
          change linesFrom (asBytes buf) [] = _
          rw [linesFrom, if_neg hne]
        refine ⟨[lineTokens buf], ?_, List.flatten_singleton⟩
        rw [hlines, List.mapM_cons, tokensOfLine_asBytes hbuf]
        rfl
  | cons c rest ih =>
      by_cases hc : c = '\n'
      · subst hc
        have hlines : linesFrom (asBytes buf) (asBytes ('\n' :: rest)) =
            popCarriageReturn (asBytes buf) ::
              linesFrom (asBytes []) (asBytes rest) := by
          rw [asBytes_cons, utf8EncodeChar_ascii (by decide)]
          rfl
        obtain ⟨parts, hparts, htokens⟩ := ih List.not_mem_nil
        refine ⟨lineTokens buf :: parts, ?_, ?_⟩
        · rw [hlines, List.mapM_cons, tokensOfLine_popCarriageReturn hbuf,
            hparts]
          rfl
        · rw [List.flatten_cons, htokens, fileTokensFrom, if_pos rfl]
      · have hlonger : '\n' ∉ buf ++ [c] := by
          simp [hbuf, Ne.symm hc]
        have hlines : linesFrom (asBytes buf) (asBytes (c :: rest)) =
            linesFrom (asBytes (buf ++ [c])) (asBytes rest) := by
          rw [asBytes_cons,
            linesFrom_append (newline_not_mem_utf8EncodeChar hc),
            asBytes_append, asBytes_singleton]
        rw [hlines, fileTokensFrom, if_neg hc]
        exact ih hlonger

theorem foldlM_readLine
    {lines : List (List UInt8)} {parts : List (List String)}
    (hparts : lines.mapM tokensOfLine = .ok parts) (r : Reader) :
    lines.foldlM Reader.readLine r = r.readTokens parts.flatten := by
  induction lines generalizing parts r with
  | nil =>
      cases hparts
      rfl
  | cons line lines ih =>
      have hread : r.readLine line = (tokensOfLine line).bind r.readTokens := by
        unfold Reader.readLine tokensOfLine
        cases fromUtf8 line <;> rfl
      rw [List.mapM_cons] at hparts
      cases hline : tokensOfLine line with
      | error panic =>
          rw [hline] at hparts
          contradiction
      | ok tokens =>
          cases hlines : lines.mapM tokensOfLine with
          | error panic =>
              rw [hline, hlines] at hparts
              contradiction
          | ok more =>
              rw [hline, hlines] at hparts
              cases hparts
              rw [List.foldlM_cons, hread, hline, List.flatten_cons,
                Reader.readTokens_append]
              change (r.readTokens tokens >>= fun after =>
                lines.foldlM Reader.readLine after) = _
              cases r.readTokens tokens with
              | error panic => rfl
              | ok after => exact ih hlines after

/-- The reader works on the tokens of the text. -/
theorem readProtoFile_asBytes (fileName : String) (text : List Char) :
    readProtoFile fileName (.ok (asBytes text)) =
      (Reader.start.readTokens (fileTokens text)).bind
        (Reader.finish fileName) := by
  obtain ⟨parts, hparts, htokens⟩ :=
    exists_tokens_linesFrom (by simp : '\n' ∉ []) text
  have hlines := foldlM_readLine hparts Reader.start
  rw [htokens] at hlines
  unfold readProtoFile lines fileTokens
  rw [← hlines]
  rfl

end Bytes

end ProtoFileReader
end GrpcExtensions
