import GrpcExtensions.ProtoFileText
import Mathlib.Data.List.Forall2

/-!
# What the tokens of a text are

A reference lexer, stated on the lines that are left without the comments,
and what the tokens say about the text: they hold all of it but the bytes up
to 32, and the tokens of a file are those of its lines one after the other.
-/

namespace GrpcExtensions
namespace ProtoFileReader

open Lexer (Renders)

def tokenBytes (token : String) : List UInt8 :=
  asBytes token.toList

/-- The lines of a text whose trimmed text does not start with `//`. -/
def keptLines (src : String) : List (List Char) :=
  (src.toList.splitOn '\n').filter fun line => !isComment line

/-- The bytes of a line split into these tokens, with every cut between two
characters. -/
structure Splits (line : List Char) (tokens : List String) : Prop where
  bytes : Renders byteKind (tokens.map tokenBytes) (asBytes line)
  characters : Renders charKind (tokens.map String.toList) line

def ReferenceTokens (src : String) (tokens : List String) : Prop :=
  ∃ pieces, List.Forall₂ Splits (keptLines src) pieces ∧
    tokens = pieces.flatten

section Lines

theorem splits_lex (line : List Char) :
    Splits line ((Lexer.lex charKind line).map String.ofList) := by
  constructor
  · apply Lexer.renders_iff.mpr
    rw [asBytes, Lexer.lex_flatMap asBytes_encodes, List.map_map]
    apply List.map_congr_left
    intro word _
    simp [tokenBytes, asBytes]
  · apply Lexer.renders_iff.mpr
    simp

theorem referenceTokens_lines (src : String) :
    ReferenceTokens src ((src.toList.splitOn '\n').flatMap lineTokens) := by
  refine ⟨(keptLines src).map fun line =>
    (Lexer.lex charKind line).map String.ofList, ?_, ?_⟩
  · rw [List.forall₂_map_right_iff, List.forall₂_same]
    intro line _
    exact splits_lex line
  · rw [flatMap_lineTokens, List.map_flatMap, List.flatMap_def]
    rfl

theorem Splits.flatMap_tokenBytes
    {line : List Char} {tokens : List String} (hsplits : Splits line tokens) :
    tokens.flatMap tokenBytes =
      (asBytes line).filter fun b => 32 < b := by
  rw [List.flatMap_def, ← Lexer.lex_of_renders hsplits.bytes,
    Lexer.flatten_lex]
  apply List.filter_congr
  intro b _
  unfold byteKind
  by_cases hspace : b ≤ 32
  · simp [hspace, UInt8.not_lt.mpr hspace]
  · have hlt : 32 < b := UInt8.not_le.mp hspace
    by_cases hdelimiter : isDelimiter b = true
    · simp [hspace, hdelimiter, hlt]
    · simp [hspace, hdelimiter, hlt]

/-- The line breaks between the kept lines are bytes up to 32 themselves. -/
theorem filter_asBytes_intercalate (rows : List (List Char)) :
    (asBytes (['\n'].intercalate rows)).filter (fun b => 32 < b) =
      rows.flatMap fun line => (asBytes line).filter fun b => 32 < b := by
  induction rows with
  | nil => rfl
  | cons line rest ih =>
      cases rest with
      | nil => simp
      | cons next rest =>
          have hbreak : (asBytes ['\n']).filter (fun b => 32 < b) = [] := rfl
          rw [List.intercalate_cons_cons, asBytes_append, asBytes_append,
            List.filter_append, List.filter_append, hbreak, ih,
            List.append_nil]
          rfl

theorem ReferenceTokens.flatMap_tokenBytes
    {src : String} {tokens : List String}
    (htokens : ReferenceTokens src tokens) :
    tokens.flatMap tokenBytes =
      (asBytes (['\n'].intercalate (keptLines src))).filter
        fun b => 32 < b := by
  rcases htokens with ⟨pieces, hpieces, rfl⟩
  rw [filter_asBytes_intercalate]
  generalize keptLines src = rows at hpieces
  induction hpieces with
  | nil => rfl
  | cons hsplits _ ih =>
      rw [List.flatten_cons, List.flatMap_append, List.flatMap_cons,
        hsplits.flatMap_tokenBytes, ih]

theorem fileTokensFrom_eq_splitOn
    {buf : List Char} (hbuf : '\n' ∉ buf) (text : List Char) :
    fileTokensFrom buf text =
      ((buf ++ text).splitOn '\n').flatMap lineTokens := by
  induction text generalizing buf with
  | nil =>
      rw [List.append_nil, List.splitOn_eq_singleton hbuf,
        List.flatMap_singleton]
      rfl
  | cons c rest ih =>
      by_cases hc : c = '\n'
      · subst hc
        rw [fileTokensFrom, if_pos rfl,
          List.splitOn_append_cons_self_of_not_mem hbuf, List.flatMap_cons,
          ih List.not_mem_nil, List.nil_append]
      · have hlonger : '\n' ∉ buf ++ [c] := by
          simp [hbuf, Ne.symm hc]
        rw [fileTokensFrom, if_neg hc, ih hlonger, List.append_assoc,
          List.singleton_append]

end Lines

/-- Iterating over the tokens of a text ends without a panic.  The tokens are
those of the reference lexer, hold the kept text without the bytes up to 32,
and are the tokens of the lines of the text. -/
theorem tokens_total_and_lossless (src : String) :
    ∃ tokens, (ProtoTokensReader.new src).collect = .ok tokens ∧
      ReferenceTokens src tokens ∧
      tokens.flatMap tokenBytes =
        (asBytes (['\n'].intercalate (keptLines src))).filter
          (fun b => 32 < b) ∧
      ∃ parts, (lines (asBytes src.toList)).mapM tokensOfLine = .ok parts ∧
        tokens = parts.flatten := by
  have hreference := referenceTokens_lines src
  obtain ⟨parts, hparts, hflatten⟩ :=
    exists_tokens_linesFrom (by simp : '\n' ∉ []) src.toList
  refine ⟨_, tokens_ok src, hreference, hreference.flatMap_tokenBytes,
    parts, hparts, ?_⟩
  rw [hflatten, fileTokensFrom_eq_splitOn (by simp), List.nil_append]

end ProtoFileReader
end GrpcExtensions
