import GrpcExtensions.ProtoFileReader

/-!
# Declarations of a .proto file

Service blocks and their rpcs as tokens, and what the reader makes of the
phrases of which they consist: tokens that mean nothing to it, the head of an
rpc up to the closing bracket of its output, and the token that ends it.
-/

namespace GrpcExtensions
namespace ProtoFileReader

def keywords : List String := ["service", "rpc", "returns", "stream"]

/-- Characters up to the code of the blank separate words. -/
structure IsIdentifier (word : String) : Prop where
  notEmpty : word ≠ ""
  noSpace : ∀ c ∈ word.toList, 32 < c.toNat
  noDelimiter : ∀ c ∈ word.toList, c ∉ delimiters
  notKeyword : word ∉ keywords

instance : DecidablePred IsIdentifier := fun word =>
  decidable_of_iff
    (word ≠ "" ∧ (word.toList.all fun c => 32 < c.toNat) ∧
      (word.toList.all fun c => c ∉ delimiters) ∧ word ∉ keywords)
    (by
      simp only [List.all_eq_true, decide_eq_true_eq]
      exact ⟨fun h => ⟨h.1, h.2.1, h.2.2.1, h.2.2.2⟩,
        fun h => ⟨h.notEmpty, h.noSpace, h.noDelimiter, h.notKeyword⟩⟩)

/-- `( [stream] X )` without the brackets. -/
structure ParamDecl where
  stream : Bool
  type : String
  deriving DecidableEq

namespace ParamDecl

structure Legal (param : ParamDecl) : Prop where
  type : IsIdentifier param.type
  empty : param.stream = true → param.type ≠ "google.protobuf.Empty"

instance : DecidablePred Legal := fun param =>
  decidable_of_iff
    (IsIdentifier param.type ∧
      (param.stream = true → param.type ≠ "google.protobuf.Empty"))
    ⟨fun h => ⟨h.1, h.2⟩, fun h => ⟨h.type, h.empty⟩⟩

def words (param : ParamDecl) : List String :=
  if param.stream then ["stream", param.type] else [param.type]

/-- What the reader keeps of it. -/
def text (param : ParamDecl) : String :=
  if param.stream then "stream " ++ param.type else param.type

def paramType (param : ParamDecl) : ParamType :=
  if param.stream then .stream (lastSegment param.type)
  else if param.type = "google.protobuf.Empty" then .single "()"
  else .single (lastSegment param.type)

end ParamDecl

structure RpcDecl where
  name : String
  input : ParamDecl
  output : ParamDecl
  deriving DecidableEq

abbrev Signature := String × Option ParamType × Option ParamType

def ProtoRpc.signature (rpc : ProtoRpc) : Signature :=
  (rpc.name, rpc.getInputParam, rpc.getOutputParam)

namespace RpcDecl

structure Legal (d : RpcDecl) : Prop where
  name : IsIdentifier d.name
  input : d.input.Legal
  output : d.output.Legal

instance : DecidablePred Legal := fun d =>
  decidable_of_iff (IsIdentifier d.name ∧ d.input.Legal ∧ d.output.Legal)
    ⟨fun h => ⟨h.1, h.2.1, h.2.2⟩, fun h => ⟨h.name, h.input, h.output⟩⟩

/-- Everything but the token that ends the declaration. -/
def head (d : RpcDecl) : List String :=
  ["rpc", d.name, "("] ++ d.input.words ++ [")", "returns", "("] ++
    d.output.words ++ [")"]

def tokens (d : RpcDecl) : List String :=
  d.head ++ [";"]

def signature (d : RpcDecl) : Signature :=
  (d.name, some d.input.paramType, some d.output.paramType)

end RpcDecl

def openBrace : String := "\x7b"

def closeBrace : String := "\x7d"

/-- The rpcs that a description of these declarations has. -/
def declared (rpcs : List RpcDecl) : List Signature :=
  (rpcs.filter fun d => d.name ≠ "Ping").map RpcDecl.signature

def serviceTokens (name : String) (rpcs : List RpcDecl) : List String :=
  ["service", name, openBrace] ++ rpcs.flatMap RpcDecl.tokens ++ [closeBrace]

/-- The file is read as a service of this name with these rpcs. -/
def Describes (result : Except Panic ProtoServiceDescription)
    (name : String) (rpcs : List RpcDecl) : Prop :=
  ∃ description, result = .ok description ∧
    description.serviceName = name ∧
    description.rpc.map ProtoRpc.signature = declared rpcs

@[simp]
theorem declared_nil : declared [] = [] :=
  rfl

theorem declared_cons (d : RpcDecl) (rpcs : List RpcDecl) :
    declared (d :: rpcs) = declared [d] ++ declared rpcs := by
  by_cases hping : d.name = "Ping" <;> simp [declared, hping]

theorem declared_append (rpcs more : List RpcDecl) :
    declared (rpcs ++ more) = declared rpcs ++ declared more := by
  simp [declared]

section Parameters

theorem asciiKind_of_large {c : Char} (hc : 32 < c.toNat) :
    asciiKind c = .word := by
  have hne : ∀ d : Char, d.toNat ≤ 32 → (c == d) = false := by
    intro d hd
    rw [beq_eq_false_iff_ne]
    intro heq
    subst heq
    omega
  have hspace : isAsciiWhitespace c = false := by
    simp only [isAsciiWhitespace, Bool.or_eq_false_iff]
    exact ⟨⟨⟨⟨hne _ (by decide), hne _ (by decide)⟩, hne _ (by decide)⟩,
      hne _ (by decide)⟩, hne _ (by decide)⟩
  simp [asciiKind, hspace]

/-- A word that `split_ascii_whitespace` leaves whole. -/
def Whole (word : String) : Prop :=
  word ≠ "" ∧ ∀ c ∈ word.toList, 32 < c.toNat

theorem Whole.asciiKind {word : String} (hword : Whole word) :
    ∀ c ∈ word.toList, asciiKind c = .word := by
  intro c hc
  exact asciiKind_of_large (hword.2 c hc)

theorem Whole.toList_ne_nil {word : String} (hword : Whole word) :
    word.toList ≠ [] := by
  intro hnil
  exact hword.1 (String.toList_eq_nil_iff.mp hnil)

theorem splitAsciiWhitespace_singleton
    {word : String} (hword : Whole word) :
    splitAsciiWhitespace word = [word] := by
  have hrenders : Lexer.Renders asciiKind [word.toList] word.toList := by
    have hend : Lexer.Breaks asciiKind [] := by simp [Lexer.Breaks]
    simpa using
      Lexer.Renders.word hword.toList_ne_nil hword.asciiKind hend .nil
  rw [splitAsciiWhitespace, Lexer.lex_of_renders hrenders]
  simp

theorem splitAsciiWhitespace_append (src rest : String) :
    splitAsciiWhitespace (src ++ " " ++ rest) =
      splitAsciiWhitespace src ++ splitAsciiWhitespace rest := by
  have hblank : asciiKind ' ' = .space := by decide
  have htext : (src ++ " " ++ rest).toList =
      src.toList ++ ' ' :: rest.toList := by simp
  rw [splitAsciiWhitespace, htext,
    Lexer.lex_append_of_breaks (Lexer.breaks_of_space hblank _),
    Lexer.lex_space hblank, List.map_append]
  rfl

theorem takeName_append
    {isVec found : Bool} {words : List String} {name : String}
    (hname : takeName isVec words = (found, some name))
    (more : List String) :
    takeName isVec (words ++ more) = (found, some name) := by
  induction words generalizing isVec with
  | nil => simp [takeName] at hname
  | cons word words ih =>
      rw [takeName] at hname
      rw [List.cons_append, takeName]
      split at hname
      next hstream => rw [if_pos hstream, ih hname]
      next hstream => rw [if_neg hstream, hname]

/-- Whatever is pushed behind a type does not change what is parsed. -/
theorem parse_append
    {src : String} {param : ParamType}
    (hparse : ParamType.parse src = some param) (rest : String) :
    ParamType.parse (src ++ " " ++ rest) = some param := by
  unfold ParamType.parse at hparse ⊢
  rw [splitAsciiWhitespace_append]
  split at hparse
  next => contradiction
  next isVec name hname =>
    rw [takeName_append hname]
    exact hparse

theorem whole_stream : Whole "stream" := by
  have hall : ("stream".toList.all fun c => 32 < c.toNat) = true := by decide
  have hcodes : ∀ c ∈ "stream".toList, 32 < c.toNat := by
    simpa only [List.all_eq_true, decide_eq_true_eq] using hall
  exact ⟨by decide, hcodes⟩

theorem IsIdentifier.whole {word : String} (hword : IsIdentifier word) :
    Whole word :=
  ⟨hword.notEmpty, hword.noSpace⟩

theorem IsIdentifier.ne_stream {word : String} (hword : IsIdentifier word) :
    word ≠ "stream" := by
  intro heq
  exact hword.notKeyword (by simp [keywords, heq])

theorem IsIdentifier.ne_returns {word : String} (hword : IsIdentifier word) :
    word ≠ "returns" := by
  intro heq
  exact hword.notKeyword (by simp [keywords, heq])

theorem IsIdentifier.ne_delimiter
    {word : String} (hword : IsIdentifier word)
    {token : String} (htoken : ∃ c ∈ delimiters, token.toList = [c]) :
    word ≠ token := by
  obtain ⟨c, hc, htoList⟩ := htoken
  intro heq
  exact hword.noDelimiter c (by simp [heq, htoList]) hc

theorem splitAsciiWhitespace_text
    {param : ParamDecl} (htype : Whole param.type) :
    splitAsciiWhitespace param.text = param.words := by
  have hwhole := splitAsciiWhitespace_singleton htype
  unfold ParamDecl.text ParamDecl.words
  cases param.stream with
  | false => exact hwhole
  | true =>
      have hsplit := splitAsciiWhitespace_append "stream" param.type
      rw [hwhole, splitAsciiWhitespace_singleton whole_stream] at hsplit
      exact hsplit

theorem takeName_words
    {param : ParamDecl} (hne : param.type ≠ "stream") :
    takeName false param.words = (param.stream, some param.type) := by
  unfold ParamDecl.words
  cases param.stream with
  | false => simp [takeName, hne]
  | true => simp [takeName, hne]

theorem parse_text {param : ParamDecl} (hlegal : param.Legal) :
    ParamType.parse param.text = some param.paramType := by
  unfold ParamType.parse ParamDecl.paramType
  rw [splitAsciiWhitespace_text hlegal.type.whole,
    takeName_words hlegal.type.ne_stream]
  cases hstream : param.stream with
  | false =>
      by_cases hempty : param.type = "google.protobuf.Empty"
      · simp [hempty]
      · simp [hempty]
  | true =>
      have hempty := hlegal.empty hstream
      simp [hempty]

end Parameters

end ProtoFileReader
end GrpcExtensions
