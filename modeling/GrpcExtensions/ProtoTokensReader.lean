import GrpcExtensions.Lexer
import GrpcExtensions.Utf8Text
import Mathlib.Algebra.GroupWithZero.Nat
import Mathlib.Data.List.DropRight

/-!
# The tokens of a line of a .proto file

`iterate_through_line` works on the bytes of a line, with a position and the
start of the word that is being read, and takes every token for UTF-8.  The
tokens are those of the lexer on characters, and no slice is ever cut inside
a character.
-/

namespace GrpcExtensions
namespace ProtoFileReader

open Lexer (Kind)
open Utf8Text

/-- `message` is the text of a `panic!`; `unwrap` is an `unwrap` on an error. -/
inductive Panic where
  | message (text : String)
  | unwrap
  deriving DecidableEq

def asBytes (text : List Char) : List UInt8 :=
  text.flatMap String.utf8EncodeChar

/-- `from_utf8` followed by `unwrap`. -/
def fromUtf8 (bytes : List UInt8) : Except Panic String :=
  match String.fromUTF8? bytes.toByteArray with
  | some text => .ok text
  | none => .error .unwrap

theorem fromUtf8_asBytes (text : List Char) :
    fromUtf8 (asBytes text) = .ok (String.ofList text) := by
  have hvalid : (asBytes text).toByteArray.IsValidUTF8 :=
    ByteArray.isValidUTF8_utf8Encode (l := text)
  simp only [fromUtf8, String.fromUTF8?, hvalid, dif_pos]
  rfl

def slice (bytes : List UInt8) (start stop : ℕ) : List UInt8 :=
  (bytes.drop start).take (stop - start)

def isDelimiter (b : UInt8) : Bool :=
  b == '('.toUInt8 || b == ')'.toUInt8 || b == ';'.toUInt8 ||
    b == '{'.toUInt8 || b == '}'.toUInt8

/-- The loop of `iterate_through_line`. -/
def iterateFrom (bytes : List UInt8) (startPos : Option ℕ) (pos : ℕ) :
    Except Panic (Option (String × ℕ)) :=
  if h : pos < bytes.length then
    if bytes[pos] ≤ 32 then
      match startPos with
      | some start => do
          let result ← fromUtf8 (slice bytes start pos)
          return some (result, pos)
      | none => iterateFrom bytes none (pos + 1)
    else if isDelimiter bytes[pos] then
      match startPos with
      | some start => do
          let result ← fromUtf8 (slice bytes start pos)
          return some (result, pos)
      | none => do
          let result ← fromUtf8 (slice bytes pos (pos + 1))
          return some (result, pos + 1)
    else
      match startPos with
      | some start => iterateFrom bytes (some start) (pos + 1)
      | none => iterateFrom bytes (some pos) (pos + 1)
  else
    match startPos with
    | some start => do
        let result ← fromUtf8 (slice bytes start pos)
        return some (result, pos)
    | none => return none
termination_by bytes.length - pos

def iterateThroughLine (bytes : List UInt8) (pos : ℕ) :
    Except Panic (Option (String × ℕ)) :=
  iterateFrom bytes none pos

/-- `char::is_whitespace`: the Unicode property White_Space. -/
def isWhitespace (c : Char) : Bool :=
  (9 ≤ c.toNat && c.toNat ≤ 13) || c.toNat == 0x20 || c.toNat == 0x85 ||
    c.toNat == 0xA0 || c.toNat == 0x1680 ||
    (0x2000 ≤ c.toNat && c.toNat ≤ 0x200A) || c.toNat == 0x2028 ||
    c.toNat == 0x2029 || c.toNat == 0x202F || c.toNat == 0x205F ||
    c.toNat == 0x3000

def trim (text : List Char) : List Char :=
  (text.dropWhile isWhitespace).rdropWhile isWhitespace

def isComment (line : List Char) : Bool :=
  "//".toList.isPrefixOf (trim line)

def cleanUpComments (src : String) : List (List UInt8) :=
  ((src.toList.splitOn '\n').filter fun itm => !isComment itm).map asBytes

structure ProtoTokensReader where
  content : List (List UInt8)
  pos : ℕ

namespace ProtoTokensReader

def new (content : String) : ProtoTokensReader :=
  ⟨cleanUpComments content, 0⟩

/-- `get_next` on the lines that are left and the position in the first. -/
def getNextFrom : List (List UInt8) → ℕ →
    Except Panic (Option (String × ProtoTokensReader))
  | [], _ => return none
  | firstLine :: content, pos => do
      match ← iterateThroughLine firstLine pos with
      | some (result, after) =>
          return some (result, ⟨firstLine :: content, after⟩)
      | none => getNextFrom content 0

def getNext (reader : ProtoTokensReader) :
    Except Panic (Option (String × ProtoTokensReader)) :=
  getNextFrom reader.content reader.pos

end ProtoTokensReader

section Bytes

def byteKind (b : UInt8) : Kind :=
  if b ≤ 32 then .space else if isDelimiter b then .delimiter else .word

/-- The bytes of the word that is being read. -/
def wordSoFar (bytes : List UInt8) (startPos : Option ℕ) (pos : ℕ) :
    List UInt8 :=
  match startPos with
  | some start => slice bytes start pos
  | none => []

variable {bytes : List UInt8} {startPos : Option ℕ} {pos : ℕ}

theorem slice_succ
    {start : ℕ} (hstart : start ≤ pos) (hpos : pos < bytes.length) :
    slice bytes start (pos + 1) = slice bytes start pos ++ [bytes[pos]] := by
  have hlen : pos + 1 - start = pos - start + 1 := by omega
  have hget : (bytes.drop start)[pos - start]? = some bytes[pos] := by
    rw [List.getElem?_drop, Nat.add_sub_cancel' hstart,
      List.getElem?_eq_getElem hpos]
  unfold slice
  rw [hlen, List.take_add_one, hget]
  rfl

theorem slice_one (hpos : pos < bytes.length) :
    slice bytes pos (pos + 1) = [bytes[pos]] := by
  rw [slice_succ le_rfl hpos]
  simp [slice]

theorem slice_ne_nil
    {start : ℕ} (hstart : start < pos) (hpos : pos ≤ bytes.length) :
    slice bytes start pos ≠ [] := by
  intro hnil
  have hlen := congrArg List.length hnil
  simp only [slice, List.length_take, List.length_drop,
    List.length_nil] at hlen
  omega

/-- What `iterateFrom` gives when the lexer finds `found` next. -/
def Finds (bytes : List UInt8) (origin : ℕ)
    (result : Except Panic (Option (String × ℕ))) :
    Option (List UInt8 × List UInt8) → Prop
  | none => result = .ok none
  | some (token, rest) =>
      ∃ after, origin < after ∧ origin < bytes.length ∧
        bytes.drop after = rest ∧
        result = do
          let text ← fromUtf8 token
          return some (text, after)

theorem Finds.earlier
    {origin : ℕ} {result : Except Panic (Option (String × ℕ))}
    {found : Option (List UInt8 × List UInt8)}
    (hfinds : Finds bytes (origin + 1) result found) :
    Finds bytes origin result found := by
  cases found with
  | none => exact hfinds
  | some found =>
      obtain ⟨after, hafter, hlength, hrest⟩ := hfinds
      exact ⟨after, by omega, by omega, hrest⟩

theorem next_of_not_word
    {word rest : List UInt8} {b : UInt8} (hword : word ≠ [])
    (hb : byteKind b ≠ .word) :
    Lexer.next byteKind word (b :: rest) = some (word, b :: rest) := by
  cases word with
  | nil => exact absurd rfl hword
  | cons a word =>
      cases hkind : byteKind b with
      | space => simp [Lexer.next, hkind]
      | delimiter => simp [Lexer.next, hkind]
      | word => exact absurd hkind hb

theorem next_of_word
    {word rest : List UInt8} {b : UInt8} (hb : byteKind b = .word) :
    Lexer.next byteKind word (b :: rest) =
      Lexer.next byteKind (word ++ [b]) rest := by
  cases word <;> simp [Lexer.next, hb]

theorem iterateFrom_finds
    (hstart : ∀ start ∈ startPos, start < pos ∧ pos ≤ bytes.length) :
    Finds bytes (startPos.getD pos) (iterateFrom bytes startPos pos)
      (Lexer.next byteKind (wordSoFar bytes startPos pos)
        (bytes.drop pos)) := by
  fun_induction iterateFrom bytes startPos pos with
  | case1 pos h hspace start =>
      obtain ⟨hlt, hle⟩ := hstart start rfl
      have hb : byteKind bytes[pos] ≠ .word := by simp [byteKind, hspace]
      have hfrom : start < bytes.length := by omega
      simp only [wordSoFar, List.drop_eq_getElem_cons h]
      rw [next_of_not_word (slice_ne_nil hlt hle) hb]
      exact ⟨pos, hlt, hfrom, List.drop_eq_getElem_cons h, rfl⟩
  | case2 pos h hspace ih =>
      have hb : byteKind bytes[pos] = .space := by simp [byteKind, hspace]
      simp only [wordSoFar, List.drop_eq_getElem_cons h, Lexer.next, hb]
      exact (ih (by simp)).earlier
  | case3 pos h hspace hdelim start =>
      obtain ⟨hlt, hle⟩ := hstart start rfl
      have hb : byteKind bytes[pos] ≠ .word := by
        simp [byteKind, hspace, hdelim]
      have hfrom : start < bytes.length := by omega
      simp only [wordSoFar, List.drop_eq_getElem_cons h]
      rw [next_of_not_word (slice_ne_nil hlt hle) hb]
      exact ⟨pos, hlt, hfrom, List.drop_eq_getElem_cons h, rfl⟩
  | case4 pos h hspace hdelim =>
      have hb : byteKind bytes[pos] = .delimiter := by
        simp [byteKind, hspace, hdelim]
      simp only [wordSoFar, List.drop_eq_getElem_cons h, Lexer.next, hb,
        slice_one h]
      exact ⟨pos + 1, by simp, h, rfl, rfl⟩
  | case5 pos h hspace hdelim start ih =>
      obtain ⟨hlt, hle⟩ := hstart start rfl
      have hb : byteKind bytes[pos] = .word := by
        simp [byteKind, hspace, hdelim]
      have hnext := ih (by simp; omega)
      simp only [wordSoFar, slice_succ hlt.le h] at hnext
      simp only [wordSoFar, List.drop_eq_getElem_cons h, next_of_word hb]
      exact hnext
  | case6 pos h hspace hdelim ih =>
      have hb : byteKind bytes[pos] = .word := by
        simp [byteKind, hspace, hdelim]
      have hnext := ih (by simp; omega)
      simp only [wordSoFar, slice_one h] at hnext
      simp only [wordSoFar, List.drop_eq_getElem_cons h, next_of_word hb]
      exact hnext
  | case7 pos h start =>
      obtain ⟨hlt, hle⟩ := hstart start rfl
      have hfrom : start < bytes.length := by omega
      have hend : bytes.drop pos = [] := by simp; omega
      obtain ⟨a, word, hword⟩ :=
        List.exists_cons_of_ne_nil (slice_ne_nil hlt hle)
      simp only [wordSoFar, hend, hword, Lexer.next]
      exact ⟨pos, hlt, hfrom, hend, rfl⟩
  | case8 pos h =>
      have hend : bytes.drop pos = [] := by simp; omega
      simp only [wordSoFar, hend, Lexer.next]
      rfl

theorem iterateThroughLine_finds (bytes : List UInt8) (pos : ℕ) :
    Finds bytes pos (iterateThroughLine bytes pos)
      (Lexer.next byteKind [] (bytes.drop pos)) := by
  have hstart : ∀ start ∈ (none : Option ℕ),
      start < pos ∧ pos ≤ bytes.length := by simp
  exact iterateFrom_finds hstart

theorem iterateThroughLine_advances
    {result : String} {after : ℕ}
    (hresult : iterateThroughLine bytes pos = .ok (some (result, after))) :
    bytes.length - after < bytes.length - pos := by
  have hfinds := iterateThroughLine_finds bytes pos
  rw [hresult] at hfinds
  cases hnext : Lexer.next byteKind [] (bytes.drop pos) with
  | none =>
      rw [hnext] at hfinds
      simp [Finds] at hfinds
  | some found =>
      rw [hnext] at hfinds
      obtain ⟨stop, hstop, hlength, _, hok⟩ := hfinds
      cases hutf : fromUtf8 found.1 with
      | error panic => simp [hutf, bind, Except.bind] at hok
      | ok text =>
          simp [hutf, bind, Except.bind, pure, Except.pure] at hok
          omega

end Bytes

namespace ProtoTokensReader

/-- The bytes that `get_next` has not passed yet. -/
def unread : List (List UInt8) → ℕ → ℕ
  | [], _ => 0
  | firstLine :: content, pos =>
      firstLine.length - pos + (content.map List.length).sum

theorem unread_cons
    (firstLine : List UInt8) (content : List (List UInt8)) (pos : ℕ) :
    unread (firstLine :: content) pos =
      firstLine.length - pos + (content.map List.length).sum :=
  rfl

theorem unread_zero (content : List (List UInt8)) :
    unread content 0 = (content.map List.length).sum := by
  cases content <;> simp [unread]

theorem getNextFrom_advances
    {content : List (List UInt8)} {pos : ℕ}
    {token : String} {after : ProtoTokensReader}
    (hnext : getNextFrom content pos = .ok (some (token, after))) :
    unread after.content after.pos < unread content pos := by
  induction content generalizing pos with
  | nil => simp [getNextFrom, pure, Except.pure] at hnext
  | cons firstLine content ih =>
      unfold getNextFrom at hnext
      cases hline : iterateThroughLine firstLine pos with
      | error panic => simp [hline, bind, Except.bind] at hnext
      | ok result =>
          cases result with
          | some result =>
              simp [hline, bind, Except.bind, pure, Except.pure] at hnext
              obtain ⟨rfl, rfl⟩ := hnext
              have hstep := iterateThroughLine_advances hline
              change unread (firstLine :: content) result.2 < _
              rw [unread_cons, unread_cons]
              omega
          | none =>
              simp only [hline, bind, Except.bind] at hnext
              have hrest := ih hnext
              rw [unread_zero] at hrest
              rw [unread_cons]
              omega

/-- All the tokens, as a `for` loop over the reader takes them. -/
def collect (reader : ProtoTokensReader) : Except Panic (List String) :=
  match _hnext : reader.getNext with
  | .error panic => .error panic
  | .ok none => .ok []
  | .ok (some (token, after)) => do
      let tokens ← collect after
      return token :: tokens
termination_by unread reader.content reader.pos
decreasing_by exact getNextFrom_advances _hnext

theorem collect_of_error
    {reader : ProtoTokensReader} {panic : Panic}
    (hnext : reader.getNext = .error panic) :
    reader.collect = .error panic := by
  rw [collect]
  split <;> simp_all

theorem collect_of_none
    {reader : ProtoTokensReader} (hnext : reader.getNext = .ok none) :
    reader.collect = .ok [] := by
  rw [collect]
  split <;> simp_all

theorem collect_of_some
    {reader after : ProtoTokensReader} {token : String}
    (hnext : reader.getNext = .ok (some (token, after))) :
    reader.collect = do
      let tokens ← after.collect
      return token :: tokens := by
  rw [collect]
  split <;> simp_all

/-- The tokens of the lines that are left, as bytes. -/
def slicesFrom : List (List UInt8) → ℕ → List (List UInt8)
  | [], _ => []
  | firstLine :: content, pos =>
      Lexer.lex byteKind (firstLine.drop pos) ++
        content.flatMap (Lexer.lex byteKind)

theorem slicesFrom_cons
    (firstLine : List UInt8) (content : List (List UInt8)) (pos : ℕ) :
    slicesFrom (firstLine :: content) pos =
      Lexer.lex byteKind (firstLine.drop pos) ++
        content.flatMap (Lexer.lex byteKind) :=
  rfl

theorem slicesFrom_zero (content : List (List UInt8)) :
    slicesFrom content 0 = content.flatMap (Lexer.lex byteKind) := by
  cases content <;> simp [slicesFrom]

/-- What `get_next` gives when these slices are left. -/
def Yields (result : Except Panic (Option (String × ProtoTokensReader))) :
    List (List UInt8) → Prop
  | [] => result = .ok none
  | bytes :: slices =>
      ∃ after : ProtoTokensReader,
        slicesFrom after.content after.pos = slices ∧
        result = do
          let token ← fromUtf8 bytes
          return some (token, after)

theorem getNextFrom_yields (content : List (List UInt8)) (pos : ℕ) :
    Yields (getNextFrom content pos) (slicesFrom content pos) := by
  induction content generalizing pos with
  | nil => rfl
  | cons firstLine content ih =>
      have hfinds := iterateThroughLine_finds firstLine pos
      have hlex := Lexer.lexFrom_eq_next byteKind [] (firstLine.drop pos)
      rw [slicesFrom_cons, Lexer.lex, hlex]
      unfold getNextFrom
      cases hnext : Lexer.next byteKind [] (firstLine.drop pos) with
      | none =>
          rw [hnext] at hfinds
          have hline : iterateThroughLine firstLine pos = .ok none := hfinds
          have hrest := ih 0
          rw [slicesFrom_zero] at hrest
          rw [hline]
          exact hrest
      | some found =>
          rw [hnext] at hfinds
          obtain ⟨stop, _, _, hdrop, hline⟩ := hfinds
          refine ⟨⟨firstLine :: content, stop⟩, ?_, ?_⟩
          · rw [slicesFrom_cons, hdrop]
            rfl
          · rw [hline]
            cases fromUtf8 found.1 <;> rfl

theorem collect_eq_mapM
    {slices : List (List UInt8)} {reader : ProtoTokensReader}
    (hslices : slicesFrom reader.content reader.pos = slices) :
    reader.collect = slices.mapM fromUtf8 := by
  induction slices generalizing reader with
  | nil =>
      have hnext : Yields reader.getNext [] := by
        rw [← hslices]
        exact getNextFrom_yields reader.content reader.pos
      exact collect_of_none hnext
  | cons bytes slices ih =>
      obtain ⟨after, hafter, hnext⟩ :
          Yields reader.getNext (bytes :: slices) := by
        rw [← hslices]
        exact getNextFrom_yields reader.content reader.pos
      rw [List.mapM_cons]
      cases hutf : fromUtf8 bytes with
      | error panic =>
          rw [hutf] at hnext
          rw [collect_of_error hnext]
          rfl
      | ok token =>
          rw [hutf] at hnext
          rw [collect_of_some hnext, ih hafter]
          rfl

end ProtoTokensReader

section Characters

def delimiters : List Char := ['(', ')', ';', '{', '}']

def charKind (c : Char) : Kind :=
  if c.toNat ≤ 32 then .space
  else if c ∈ delimiters then .delimiter
  else .word

theorem byteKind_of_large {b : UInt8} (hb : 128 ≤ b.toNat) :
    byteKind b = .word := by
  have hspace : ¬ b ≤ 32 := by
    rw [UInt8.le_iff_toNat_le]
    simp
    omega
  have hne : ∀ d : UInt8, d.toNat < 128 → (b == d) = false := by
    intro d hd
    rw [beq_eq_false_iff_ne]
    intro heq
    subst heq
    omega
  have hdelim : isDelimiter b = false := by
    simp only [isDelimiter, Bool.or_eq_false_iff]
    exact ⟨⟨⟨⟨hne _ (by decide), hne _ (by decide)⟩, hne _ (by decide)⟩,
      hne _ (by decide)⟩, hne _ (by decide)⟩
  simp [byteKind, hspace, hdelim]

theorem byteKind_ascii :
    ∀ n < 128, byteKind (UInt8.ofNat n) = charKind (Char.ofNat n) := by
  decide

theorem charKind_of_large {c : Char} (hc : 128 ≤ c.toNat) :
    charKind c = .word := by
  have hspace : ¬ c.toNat ≤ 32 := by omega
  have hdelim : c ∉ delimiters := by
    intro hmem
    have hall : (delimiters.all fun d => d.toNat < 128) = true := by decide
    have hlt : c.toNat < 128 := by
      simpa using List.all_eq_true.mp hall c hmem
    omega
  simp [charKind, hspace, hdelim]

theorem asBytes_encodes :
    Lexer.Encodes charKind byteKind String.utf8EncodeChar := by
  have hascii : ∀ c : Char, charKind c ≠ .word → c.toNat < 128 := by
    intro c hc
    by_contra hlarge
    exact hc (charKind_of_large (Nat.le_of_not_lt hlarge))
  have hkind : ∀ c : Char, c.toNat < 128 →
      byteKind (UInt8.ofNat c.toNat) = charKind c := by
    intro c hc
    rw [byteKind_ascii c.toNat hc, Char.ofNat_toNat]
  constructor
  · intro c hc
    have hlt := hascii c (by simp [hc])
    exact ⟨_, utf8EncodeChar_ascii hlt, (hkind c hlt).trans hc⟩
  · intro c hc
    have hlt := hascii c (by simp [hc])
    exact ⟨_, utf8EncodeChar_ascii hlt, (hkind c hlt).trans hc⟩
  · intro c hc
    by_cases hlt : c.toNat < 128
    · rw [utf8EncodeChar_ascii hlt]
      simp [hkind c hlt, hc]
    · obtain ⟨hne, hall⟩ := utf8EncodeChar_large (Nat.le_of_not_lt hlt)
      exact ⟨hne, fun b hb => byteKind_of_large (hall b hb)⟩

/-- The tokens of one line, by its characters. -/
def lineTokens (line : List Char) : List String :=
  if isComment line then []
  else (Lexer.lex charKind line).map String.ofList

theorem fromUtf8_flatMap (text : List Char) :
    fromUtf8 (text.flatMap String.utf8EncodeChar) =
      .ok (String.ofList text) :=
  fromUtf8_asBytes text

theorem mapM_fromUtf8 (words : List (List Char)) :
    (words.map (List.flatMap String.utf8EncodeChar)).mapM fromUtf8 =
      .ok (words.map String.ofList) := by
  induction words with
  | nil => rfl
  | cons word words ih =>
      rw [List.map_cons, List.mapM_cons, fromUtf8_flatMap, ih]
      rfl

theorem flatMap_lex_cleanUpComments (rows : List (List Char)) :
    ((rows.filter fun itm => !isComment itm).map asBytes).flatMap
        (Lexer.lex byteKind) =
      ((rows.filter fun itm => !isComment itm).flatMap
        (Lexer.lex charKind)).map (List.flatMap String.utf8EncodeChar) := by
  induction rows.filter fun itm => !isComment itm with
  | nil => rfl
  | cons row rows ih =>
      rw [List.map_cons, List.flatMap_cons, List.flatMap_cons,
        List.map_append, ih]
      congr 1
      exact Lexer.lex_flatMap asBytes_encodes row

theorem flatMap_lineTokens (rows : List (List Char)) :
    rows.flatMap lineTokens =
      ((rows.filter fun itm => !isComment itm).flatMap
        (Lexer.lex charKind)).map String.ofList := by
  induction rows with
  | nil => rfl
  | cons row rows ih =>
      cases hcomment : isComment row with
      | true => simp [lineTokens, hcomment, ih]
      | false => simp [lineTokens, hcomment, ih]

/-- Reading the tokens never fails: the words of a line are valid UTF-8. -/
theorem tokens_ok (src : String) :
    (ProtoTokensReader.new src).collect =
      .ok ((src.toList.splitOn '\n').flatMap lineTokens) := by
  rw [ProtoTokensReader.collect_eq_mapM rfl, ProtoTokensReader.new,
    ProtoTokensReader.slicesFrom_zero, cleanUpComments,
    flatMap_lex_cleanUpComments, mapM_fromUtf8, flatMap_lineTokens]

end Characters

end ProtoFileReader
end GrpcExtensions
