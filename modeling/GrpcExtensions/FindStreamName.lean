import GrpcExtensions.ProtoTokensReader

/-!
# Finding the name of a stream

`find_stream_name` looks for `Self :: Name` in the printed text of a
function.  It splits the text at the space character only, and it takes a
piece that ends in `Stream` if no `::` is pending, so the name behind the two
other words is found only where the layout of the text has hidden the `::`
from it.
-/

namespace GrpcExtensions
namespace FindStreamName

open ProtoFileReader (Panic isWhitespace)

section Source

def endsWith (text tail : String) : Bool :=
  tail.toList.isSuffixOf text.toList

/-- The loop over the pieces, with its two flags. -/
def scan (selfIndex doubleDotsIndex : Bool) : List String → Option String
  | [] => none
  | item :: items =>
      if !selfIndex && item == "Self" then scan true doubleDotsIndex items
      else if !doubleDotsIndex && item == "::" then scan selfIndex true items
      else if !doubleDotsIndex && endsWith item "Stream" then some item
      else scan false false items

def pieces (content : String) : List String :=
  (content.toList.splitOn ' ').map String.ofList

def findStreamName (content : String) : Except Panic String :=
  match scan false false (pieces content) with
  | some streamName => .ok streamName
  | none =>
      .error (.message "tonic::Response<Self::StreamName> is not found")

end Source

/-- The words of a text, between whitespace of any kind. -/
def tokens (content : String) : List String :=
  ((content.toList.splitOnP isWhitespace).filter fun word => word ≠ []).map
    String.ofList

/-- The text declares this stream and no other. -/
structure Declares (content name : String) : Prop where
  declared : ["Self", "::", name] <:+: tokens content
  stream : endsWith name "Stream" = true
  only : ∀ token ∈ tokens content, endsWith token "Stream" = true →
    token = name

/-- These pieces are passed over and leave nothing pending: a `Self`, a `::`
or both of them in either order take the piece behind them along. -/
inductive Passed : List String → Prop
  | nil : Passed []
  | other {item : String} {items : List String} :
      item ≠ "Self" → item ≠ "::" → endsWith item "Stream" = false →
      Passed items → Passed (item :: items)
  | self {item : String} {items : List String} :
      item ≠ "::" → endsWith item "Stream" = false →
      Passed items → Passed ("Self" :: item :: items)
  | dots {item : String} {items : List String} :
      item ≠ "Self" →
      Passed items → Passed ("::" :: item :: items)
  | selfDots {item : String} {items : List String} :
      Passed items → Passed ("Self" :: "::" :: item :: items)
  | dotsSelf {item : String} {items : List String} :
      Passed items → Passed ("::" :: "Self" :: item :: items)

/-- The name is a piece by itself, and no `::` is pending in front of it. -/
def Uncovered (name : String) (items : List String) : Prop :=
  endsWith name "Stream" = true ∧
    ∃ front back, Passed front ∧
      (items = front ++ name :: back ∨
        items = front ++ "Self" :: name :: back)

section Scanning

variable {name item : String} {items : List String}

theorem scan_of_passed
    {front : List String} (hpassed : Passed front) (items : List String) :
    scan false false (front ++ items) = scan false false items := by
  induction hpassed with
  | nil => rfl
  | other hself hdots hstream _ ih => simp [scan, hself, hdots, hstream, ih]
  | self hdots hstream _ ih => simp [scan, hdots, hstream, ih]
  | dots hself _ ih => simp [scan, hself, ih]
  | selfDots _ ih => simp [scan, ih]
  | dotsSelf _ ih => simp [scan, ih]

theorem scan_of_uncovered (huncovered : Uncovered name items) :
    scan false false items = some name := by
  rcases huncovered with ⟨hstream, front, back, hpassed, hitems⟩
  have hself : name ≠ "Self" := by
    intro heq
    rw [heq] at hstream
    contradiction
  have hdots : name ≠ "::" := by
    intro heq
    rw [heq] at hstream
    contradiction
  cases hitems with
  | inl hitems =>
      rw [hitems, scan_of_passed hpassed]
      simp [scan, hself, hdots, hstream]
  | inr hitems =>
      rw [hitems, scan_of_passed hpassed]
      simp [scan, hdots, hstream]

/-- The pieces that have set the flags since both were down. -/
inductive Pending : Bool → Bool → List String → Prop
  | nothing : Pending false false []
  | self : Pending true false ["Self"]
  | dots : Pending false true ["::"]
  | selfDots : Pending true true ["Self", "::"]
  | dotsSelf : Pending true true ["::", "Self"]

theorem uncovered_append
    (front : List String) (hfront : ∀ items, Passed items →
      Passed (front ++ items))
    (huncovered : Uncovered name items) : Uncovered name (front ++ items) := by
  rcases huncovered with ⟨hstream, passed, back, hpassed, hitems⟩
  refine ⟨hstream, front ++ passed, back, hfront passed hpassed, ?_⟩
  rw [List.append_assoc, List.append_assoc]
  cases hitems with
  | inl hitems => exact Or.inl (by rw [hitems])
  | inr hitems => exact Or.inr (by rw [hitems])

theorem uncovered_of_scan
    {selfIndex doubleDotsIndex : Bool} {held : List String}
    (hpending : Pending selfIndex doubleDotsIndex held)
    (hscan : scan selfIndex doubleDotsIndex items = some name) :
    Uncovered name (held ++ items) := by
  induction items generalizing selfIndex doubleDotsIndex held with
  | nil => simp [scan] at hscan
  | cons item items ih =>
      cases hpending with
      | nothing =>
          by_cases hself : item = "Self"
          · subst hself
            exact ih .self (by simpa [scan] using hscan)
          · by_cases hdots : item = "::"
            · subst hdots
              exact ih .dots (by simpa [scan] using hscan)
            · cases hstream : endsWith item "Stream" with
              | true =>
                  have hname : item = name := by
                    simpa [scan, hself, hdots, hstream] using hscan
                  subst hname
                  exact ⟨hstream, [], items, .nil, Or.inl rfl⟩
              | false =>
                  have hrest := ih .nothing (by
                    simpa [scan, hself, hdots, hstream] using hscan)
                  exact uncovered_append [item]
                    (fun _ hpassed => .other hself hdots hstream hpassed)
                    hrest
      | self =>
          by_cases hdots : item = "::"
          · subst hdots
            exact ih .selfDots (by simpa [scan] using hscan)
          · cases hstream : endsWith item "Stream" with
            | true =>
                have hname : item = name := by
                  simpa [scan, hdots, hstream] using hscan
                subst hname
                exact ⟨hstream, [], items, .nil, Or.inr rfl⟩
            | false =>
                have hrest := ih .nothing (by
                  simpa [scan, hdots, hstream] using hscan)
                exact uncovered_append ["Self", item]
                  (fun _ hpassed => .self hdots hstream hpassed) hrest
      | dots =>
          by_cases hself : item = "Self"
          · subst hself
            exact ih .dotsSelf (by simpa [scan] using hscan)
          · have hrest := ih .nothing (by simpa [scan, hself] using hscan)
            exact uncovered_append ["::", item]
              (fun _ hpassed => .dots hself hpassed) hrest
      | selfDots =>
          have hrest := ih .nothing (by simpa [scan] using hscan)
          exact uncovered_append ["Self", "::", item]
            (fun _ hpassed => .selfDots hpassed) hrest
      | dotsSelf =>
          have hrest := ih .nothing (by simpa [scan] using hscan)
          exact uncovered_append ["::", "Self", item]
            (fun _ hpassed => .dotsSelf hpassed) hrest

end Scanning

/-- The name is found if and only if it is the first piece ending in `Stream`
that is not covered by a pending `::`. -/
theorem findStreamName_eq_ok_iff (content name : String) :
    findStreamName content = .ok name ↔ Uncovered name (pieces content) := by
  have hfind : findStreamName content = .ok name ↔
      scan false false (pieces content) = some name := by
    unfold findStreamName
    cases scan false false (pieces content) <;> simp
  rw [hfind]
  constructor
  · exact uncovered_of_scan .nothing
  · exact scan_of_uncovered

/-- A function on one line, with single spaces between its tokens: the
declared name is not found. -/
theorem declared_on_one_line_panics :
    Declares "fn get () -> Response < Self :: GetStream > \x7b \x7d"
        "GetStream" ∧
      findStreamName "fn get () -> Response < Self :: GetStream > \x7b \x7d" =
        .error (.message "tonic::Response<Self::StreamName> is not found") := by
  have htokens : tokens
      "fn get () -> Response < Self :: GetStream > \x7b \x7d" =
      ["fn", "get", "()", "->", "Response", "<", "Self", "::", "GetStream",
        ">", "\x7b", "\x7d"] := rfl
  refine ⟨⟨?_, rfl, ?_⟩, rfl⟩
  · rw [htokens]
    exact ⟨["fn", "get", "()", "->", "Response", "<"],
      [">", "\x7b", "\x7d"], rfl⟩
  · rw [htokens]
    decide

end FindStreamName
end GrpcExtensions
