import Mathlib.Data.List.Basic
import Mathlib.Tactic.Common

/-!
# Splitting a text into tokens

A lexer over an arbitrary alphabet whose symbols are spaces, delimiters or
parts of words.  A delimiter is a token by itself and a word is as long as it
can be.  `Renders` describes the same splitting from the side of the writer,
and an encoding that keeps the kinds of the symbols keeps the tokens.
-/

universe u v

namespace Lexer

inductive Kind
  | space
  | delimiter
  | word
  deriving DecidableEq, Repr

variable {α : Type u} {β : Type v}

def flush : List α → List (List α)
  | [] => []
  | c :: word => [c :: word]

/-- The tokens of a text that is read after the beginning `word` of a word. -/
def lexFrom (kind : α → Kind) : List α → List α → List (List α)
  | word, [] => flush word
  | word, c :: rest =>
      match kind c with
      | .space => flush word ++ lexFrom kind [] rest
      | .delimiter => flush word ++ [c] :: lexFrom kind [] rest
      | .word => lexFrom kind (word ++ [c]) rest

def lex (kind : α → Kind) (text : List α) : List (List α) :=
  lexFrom kind [] text

/-- The first token only, with the text behind it. -/
def next (kind : α → Kind) : List α → List α → Option (List α × List α)
  | [], [] => none
  | a :: word, [] => some (a :: word, [])
  | [], c :: rest =>
      match kind c with
      | .space => next kind [] rest
      | .delimiter => some ([c], rest)
      | .word => next kind [c] rest
  | a :: word, c :: rest =>
      match kind c with
      | .word => next kind (a :: word ++ [c]) rest
      | _ => some (a :: word, c :: rest)

/-- No word can go on into this text. -/
def Breaks (kind : α → Kind) (text : List α) : Prop :=
  ∀ c ∈ text.head?, kind c ≠ .word

/-- No word goes on from the first text into the second one. -/
def Apart (kind : α → Kind) (text more : List α) : Prop :=
  (∀ c ∈ text.getLast?, kind c ≠ .word) ∨ Breaks kind more

inductive Renders (kind : α → Kind) : List (List α) → List α → Prop
  | nil : Renders kind [] []
  | space {c : α} {tokens : List (List α)} {rest : List α} :
      kind c = .space →
      Renders kind tokens rest →
      Renders kind tokens (c :: rest)
  | delimiter {c : α} {tokens : List (List α)} {rest : List α} :
      kind c = .delimiter →
      Renders kind tokens rest →
      Renders kind ([c] :: tokens) (c :: rest)
  | word {word : List α} {tokens : List (List α)} {rest : List α} :
      word ≠ [] →
      (∀ c ∈ word, kind c = .word) →
      Breaks kind rest →
      Renders kind tokens rest →
      Renders kind (word :: tokens) (word ++ rest)

section Reading

variable {kind : α → Kind}

theorem flush_of_ne_nil {word : List α} (hword : word ≠ []) :
    flush word = [word] := by
  cases word with
  | nil => exact absurd rfl hword
  | cons a word => rfl

theorem lexFrom_eq_next (kind : α → Kind) (word text : List α) :
    lexFrom kind word text =
      match next kind word text with
      | none => []
      | some (token, rest) => token :: lex kind rest := by
  induction text generalizing word with
  | nil => cases word <;> simp [lexFrom, next, flush, lex]
  | cons c rest ih =>
      cases word with
      | nil =>
          cases hkind : kind c with
          | space => simp [lexFrom, next, hkind, flush, ih]
          | delimiter => simp [lexFrom, next, hkind, flush, lex]
          | word => simp [lexFrom, next, hkind, ih]
      | cons a word =>
          cases hkind : kind c with
          | space => simp [lexFrom, next, hkind, flush, lex]
          | delimiter => simp [lexFrom, next, hkind, flush, lex]
          | word => simp [lexFrom, next, hkind, ih]

theorem lexFrom_word_append
    {more : List α} (hmore : ∀ c ∈ more, kind c = .word)
    (word rest : List α) :
    lexFrom kind word (more ++ rest) = lexFrom kind (word ++ more) rest := by
  induction more generalizing word with
  | nil => simp
  | cons c more ih =>
      have hc : kind c = .word := hmore c (by simp)
      have htail : ∀ d ∈ more, kind d = .word := by
        intro d hd
        exact hmore d (by simp [hd])
      simp [lexFrom, hc, ih htail]

theorem lexFrom_of_breaks
    {text : List α} (hbreaks : Breaks kind text) (word : List α) :
    lexFrom kind word text = flush word ++ lex kind text := by
  cases text with
  | nil => simp [lexFrom, lex, flush]
  | cons c rest =>
      have hc : kind c ≠ .word := hbreaks c (by simp)
      cases hkind : kind c with
      | space => simp [lexFrom, lex, hkind, flush]
      | delimiter => simp [lexFrom, lex, hkind, flush]
      | word => exact absurd hkind hc

theorem lex_of_renders
    {tokens : List (List α)} {text : List α}
    (hrenders : Renders kind tokens text) :
    lex kind text = tokens := by
  induction hrenders with
  | nil => rfl
  | space hc _ ih => simpa [lex, lexFrom, hc, flush] using ih
  | delimiter hc _ ih => simpa [lex, lexFrom, hc, flush] using ih
  | word hne hword hbreaks _ ih =>
      unfold lex
      rw [lexFrom_word_append hword, List.nil_append,
        lexFrom_of_breaks hbreaks, flush_of_ne_nil hne, ih]
      rfl

theorem renders_lexFrom
    {word : List α} (hword : ∀ c ∈ word, kind c = .word) (text : List α) :
    Renders kind (lexFrom kind word text) (word ++ text) := by
  induction text generalizing word with
  | nil =>
      cases word with
      | nil => exact .nil
      | cons a word =>
          have hend : Breaks kind ([] : List α) := by simp [Breaks]
          exact .word (by simp) hword hend .nil
  | cons c rest ih =>
      have hnil : ∀ d ∈ ([] : List α), kind d = .word := by simp
      -- what follows `word` when `c` does not belong to it
      have hflush : kind c ≠ .word →
          ∀ {tokens}, Renders kind tokens (c :: rest) →
            Renders kind (flush word ++ tokens) (word ++ c :: rest) := by
        intro hc tokens htokens
        cases word with
        | nil => exact htokens
        | cons a word =>
            have hbreaks : Breaks kind (c :: rest) := by
              simpa [Breaks] using hc
            exact .word (by simp) hword hbreaks htokens
      cases hkind : kind c with
      | space =>
          simp only [lexFrom, hkind]
          exact hflush (by simp [hkind]) (.space hkind (ih hnil))
      | delimiter =>
          simp only [lexFrom, hkind]
          exact hflush (by simp [hkind]) (.delimiter hkind (ih hnil))
      | word =>
          have hlonger : ∀ d ∈ word ++ [c], kind d = .word := by
            intro d hd
            rcases List.mem_append.mp hd with hd | hd
            · exact hword d hd
            · simpa [List.mem_singleton.mp hd] using hkind
          simpa [lexFrom, hkind] using ih hlonger

theorem renders_iff {tokens : List (List α)} {text : List α} :
    Renders kind tokens text ↔ lex kind text = tokens := by
  constructor
  · exact lex_of_renders
  · intro htokens
    rw [← htokens]
    exact renders_lexFrom (by simp) text

/-- A token is not empty, and no space is in it. -/
theorem noSpace_of_renders
    {tokens : List (List α)} {text : List α}
    (hrenders : Renders kind tokens text) :
    ∀ token ∈ tokens, token ≠ [] ∧ ∀ c ∈ token, kind c ≠ .space := by
  induction hrenders with
  | nil => simp
  | space _ _ ih => exact ih
  | delimiter hc _ ih => simpa [hc] using ih
  | word hne hword _ _ ih =>
      rw [List.forall_mem_cons]
      constructor
      · constructor
        · exact hne
        · intro c hc
          simp [hword c hc]
      · exact ih

/-- A text in which no word can go on is read by itself. -/
theorem lexFrom_append_of_breaks
    {more : List α} (hbreaks : Breaks kind more) (word text : List α) :
    lexFrom kind word (text ++ more) =
      lexFrom kind word text ++ lex kind more := by
  induction text generalizing word with
  | nil => exact lexFrom_of_breaks hbreaks word
  | cons c rest ih => cases hkind : kind c <;> simp [lexFrom, hkind, ih]

theorem lex_append_of_breaks
    {more : List α} (hbreaks : Breaks kind more) (text : List α) :
    lex kind (text ++ more) = lex kind text ++ lex kind more :=
  lexFrom_append_of_breaks hbreaks [] text

/-- A space or a delimiter ends the word in front of it and begins none. -/
theorem lex_cons_of_not_word
    {c : α} (hc : kind c ≠ .word) (rest : List α) :
    lex kind (c :: rest) = lex kind [c] ++ lex kind rest := by
  cases hkind : kind c with
  | space => simp [lex, lexFrom, hkind, flush]
  | delimiter => simp [lex, lexFrom, hkind, flush]
  | word => exact absurd hkind hc

theorem lex_append_of_apart
    {text more : List α} (hapart : Apart kind text more) :
    lex kind (text ++ more) = lex kind text ++ lex kind more := by
  rcases hapart with hlast | hbreaks
  · rcases List.eq_nil_or_concat' text with rfl | ⟨front, c, rfl⟩
    · rfl
    · have hc : kind c ≠ .word := hlast c (by simp)
      have hbreaks : ∀ rest, Breaks kind (c :: rest) := by
        intro rest
        simpa [Breaks] using hc
      rw [List.append_assoc, List.singleton_append,
        lex_append_of_breaks (hbreaks more), lex_cons_of_not_word hc,
        lex_append_of_breaks (hbreaks []), List.append_assoc]
  · exact lex_append_of_breaks hbreaks text

theorem breaks_of_space {c : α} (hc : kind c = .space) (rest : List α) :
    Breaks kind (c :: rest) := by
  simp [Breaks, hc]

theorem lex_space {c : α} (hc : kind c = .space) (rest : List α) :
    lex kind (c :: rest) = lex kind rest := by
  simp [lex, lexFrom, hc, flush]

theorem lex_append_space
    {c : α} (hc : kind c = .space) (text : List α) :
    lex kind (text ++ [c]) = lex kind text := by
  rw [lex_append_of_breaks (breaks_of_space hc []), lex_space hc]
  exact List.append_nil _

theorem flatten_flush (word : List α) : (flush word).flatten = word := by
  cases word with
  | nil => rfl
  | cons c word => exact List.flatten_singleton

theorem flatten_lexFrom (word text : List α) :
    (lexFrom kind word text).flatten =
      word ++ text.filter fun c => kind c ≠ .space := by
  induction text generalizing word with
  | nil => simp [lexFrom, flatten_flush]
  | cons c rest ih =>
      cases hkind : kind c with
      | space => simp [lexFrom, hkind, ih, flatten_flush]
      | delimiter => simp [lexFrom, hkind, ih, flatten_flush]
      | word => simp [lexFrom, hkind, ih]

/-- Nothing but the spaces is lost. -/
theorem flatten_lex (text : List α) :
    (lex kind text).flatten = text.filter fun c => kind c ≠ .space :=
  flatten_lexFrom [] text

end Reading

/-- Each symbol is written as symbols of its own kind, a space or a delimiter as
one symbol. -/
structure Encodes (kind : α → Kind) (code : β → Kind)
    (encode : α → List β) : Prop where
  space : ∀ c, kind c = .space → ∃ b, encode c = [b] ∧ code b = .space
  delimiter : ∀ c, kind c = .delimiter →
    ∃ b, encode c = [b] ∧ code b = .delimiter
  word : ∀ c, kind c = .word →
    encode c ≠ [] ∧ ∀ b ∈ encode c, code b = .word

theorem flush_flatMap
    {encode : α → List β} {word : List α}
    (hword : ∀ c ∈ word, encode c ≠ []) :
    flush (word.flatMap encode) =
      (flush word).map (List.flatMap encode) := by
  cases word with
  | nil => rfl
  | cons c word =>
      have hne : (c :: word).flatMap encode ≠ [] := by
        intro hnil
        rw [List.flatMap_cons, List.append_eq_nil_iff] at hnil
        exact hword c (by simp) hnil.1
      rw [flush_of_ne_nil hne]
      rfl

theorem lexFrom_flatMap
    {kind : α → Kind} {code : β → Kind} {encode : α → List β}
    (hencodes : Encodes kind code encode)
    (text : List α) {word : List α}
    (hword : ∀ c ∈ word, kind c = .word) :
    lexFrom code (word.flatMap encode) (text.flatMap encode) =
      (lexFrom kind word text).map (List.flatMap encode) := by
  have hflush : flush (word.flatMap encode) =
      (flush word).map (List.flatMap encode) :=
    flush_flatMap fun c hc => (hencodes.word c (hword c hc)).1
  have hnil : ∀ c ∈ ([] : List α), kind c = .word := by simp
  induction text generalizing word with
  | nil => exact hflush
  | cons c rest ih =>
      cases hkind : kind c with
      | space =>
          obtain ⟨b, hb, hcode⟩ := hencodes.space c hkind
          have hrest := ih hnil rfl
          simp only [List.flatMap_nil] at hrest
          simp [lexFrom, hb, hcode, hkind, hflush, hrest]
      | delimiter =>
          obtain ⟨b, hb, hcode⟩ := hencodes.delimiter c hkind
          have hrest := ih hnil rfl
          simp only [List.flatMap_nil] at hrest
          simp [lexFrom, hb, hcode, hkind, hflush, hrest]
      | word =>
          have hcodes := (hencodes.word c hkind).2
          have hlonger : ∀ d ∈ word ++ [c], kind d = .word := by
            intro d hd
            rcases List.mem_append.mp hd with hd | hd
            · exact hword d hd
            · simpa [List.mem_singleton.mp hd] using hkind
          have hrest := ih hlonger
            (flush_flatMap fun d hd => (hencodes.word d (hlonger d hd)).1)
          rw [List.flatMap_append, List.flatMap_singleton] at hrest
          rw [List.flatMap_cons, lexFrom_word_append hcodes, hrest]
          simp [lexFrom, hkind]

theorem lex_flatMap
    {kind : α → Kind} {code : β → Kind} {encode : α → List β}
    (hencodes : Encodes kind code encode) (text : List α) :
    lex code (text.flatMap encode) =
      (lex kind text).map (List.flatMap encode) := by
  have hnil : ∀ c ∈ ([] : List α), kind c = .word := by simp
  exact lexFrom_flatMap hencodes text hnil

end Lexer
