import GrpcExtensions.GrpcChannel
import GrpcExtensions.LastInsertion
import Mathlib.Tactic.Common

/-!
# Reading a stream into a collection

The loops of `read_grpc_stream.rs`.  Each reads a stream to its end and adds
what it makes of an item to its result; an error status or a read that times
out ends the loop without a result.  A stream is the list of what its reads
give before it ends.
-/

namespace GrpcExtensions
namespace ReadGrpcStream

open GrpcChannel (GrpcReadError Status)
open LastInsertion (lastValue hashMap_getElem? treeMap_getElem?)

universe u v w x

variable {T : Type u} {σ : Type v}

inductive ReadEvent (T : Type u) where
  | item (item : T)
  | status (err : Status)
  | timeout

/-- The items that are read before the first failure. -/
def itemsBefore : List (ReadEvent T) → List T
  | .item item :: events => item :: itemsBefore events
  | _ => []

def firstFailure : List (ReadEvent T) → Option GrpcReadError
  | [] => none
  | .item _ :: events => firstFailure events
  | .status err :: _ => some (.tonicStatus err)
  | .timeout :: _ => some .timeout

/-- The loop that the functions share. -/
def readLoop (add : σ → T → σ) : σ → List (ReadEvent T) →
    Except GrpcReadError σ
  | result, [] => .ok result
  | result, .item item :: events => readLoop add (add result item) events
  | _, .status err :: _ => .error (.tonicStatus err)
  | _, .timeout :: _ => .error .timeout

section Source

variable {TDest : Type v} {TKey : Type w} {TResult : Type x}

def asVec (into : T → TDest) (stream : List (ReadEvent T)) :
    Except GrpcReadError (List TDest) :=
  readLoop (fun result item => result ++ [into item]) [] stream

def asHashMap [BEq TKey] [Hashable TKey] (getKey : T → TKey × TResult)
    (stream : List (ReadEvent T)) :
    Except GrpcReadError (Std.HashMap TKey TResult) :=
  readLoop (fun result item => result.insert (getKey item).1 (getKey item).2)
    ∅ stream

def asBTreeMap [Ord TKey] (getKey : T → TKey × TResult)
    (stream : List (ReadEvent T)) :
    Except GrpcReadError (Std.TreeMap TKey TResult) :=
  readLoop (fun result item => result.insert (getKey item).1 (getKey item).2)
    ∅ stream

def asVecWithTransformation (transform : T → TDest)
    (stream : List (ReadEvent T)) : Except GrpcReadError (List TDest) :=
  readLoop (fun result item => result ++ [transform item]) [] stream

def asVecWithTransformationAndFilter (transform : T → Option TDest)
    (stream : List (ReadEvent T)) : Except GrpcReadError (List TDest) :=
  readLoop
    (fun result item =>
      match transform item with
      | some item => result ++ [item]
      | none => result)
    [] stream

def firstOrNone : List (ReadEvent T) → Except GrpcReadError (Option T)
  | [] => .ok none
  | .item item :: _ => .ok (some item)
  | .status err :: _ => .error (.tonicStatus err)
  | .timeout :: _ => .error .timeout

end Source

theorem readLoop_eq
    (add : σ → T → σ) (stream : List (ReadEvent T)) (result : σ) :
    readLoop add result stream =
      match firstFailure stream with
      | none => .ok ((itemsBefore stream).foldl add result)
      | some err => .error err := by
  induction stream generalizing result with
  | nil => rfl
  | cons event events ih =>
      cases event with
      | item item => exact ih (add result item)
      | status err => rfl
      | timeout => rfl

theorem readLoop_of_no_failure
    (add : σ → T → σ) {stream : List (ReadEvent T)}
    (hnone : firstFailure stream = none) (result : σ) :
    readLoop add result stream =
      .ok ((itemsBefore stream).foldl add result) := by
  rw [readLoop_eq, hnone]

theorem readLoop_of_failure
    (add : σ → T → σ) {stream : List (ReadEvent T)} {err : GrpcReadError}
    (herr : firstFailure stream = some err) (result : σ) :
    readLoop add result stream = .error err := by
  rw [readLoop_eq, herr]

section Collections

variable {TDest : Type v} {TKey : Type w} {TResult : Type x}

theorem foldl_append_singleton
    (f : T → TDest) (items : List T) (result : List TDest) :
    items.foldl (fun result item => result ++ [f item]) result =
      result ++ items.map f := by
  induction items generalizing result with
  | nil => simp
  | cons item items ih => simp [ih]

theorem foldl_append_some
    (f : T → Option TDest) (items : List T) (result : List TDest) :
    items.foldl (fun result item =>
        match f item with
        | some item => result ++ [item]
        | none => result) result =
      result ++ items.filterMap f := by
  induction items generalizing result with
  | nil => simp
  | cons item items ih =>
      cases hitem : f item with
      | none => simp [hitem, ih]
      | some dest => simp [hitem, ih]

end Collections

section Agreement

variable {TDest : Type v} {TKey : Type w} {TResult : Type x}
variable [BEq TKey] [Hashable TKey] [Ord TKey]

/-- What the five collectors return when the reads of a stream give these
items and then this failure, or none. -/
structure Collected (into : T → TDest) (filter : T → Option TDest)
    (getKey : T → TKey × TResult) (stream : List (ReadEvent T)) :
    Prop where
  failure : ∀ err, firstFailure stream = some err →
    asVec into stream = .error err ∧
    asVecWithTransformation into stream = .error err ∧
    asVecWithTransformationAndFilter filter stream = .error err ∧
    asHashMap getKey stream = .error err ∧
    asBTreeMap getKey stream = .error err
  vec : firstFailure stream = none →
    asVec into stream = .ok ((itemsBefore stream).map into) ∧
    asVecWithTransformation into stream =
      .ok ((itemsBefore stream).map into) ∧
    asVecWithTransformationAndFilter filter stream =
      .ok ((itemsBefore stream).filterMap filter)
  map : firstFailure stream = none →
    ∃ hashMap bTreeMap, asHashMap getKey stream = .ok hashMap ∧
      asBTreeMap getKey stream = .ok bTreeMap ∧
      ∀ key, hashMap[key]? =
          lastValue key ((itemsBefore stream).map getKey) ∧
        bTreeMap[key]? = lastValue key ((itemsBefore stream).map getKey)

theorem collected
    [EquivBEq TKey] [LawfulHashable TKey] [Std.TransOrd TKey]
    [Std.LawfulBEqOrd TKey]
    (into : T → TDest) (filter : T → Option TDest)
    (getKey : T → TKey × TResult) (stream : List (ReadEvent T)) :
    Collected into filter getKey stream := by
  constructor
  · intro err herr
    exact ⟨readLoop_of_failure _ herr _, readLoop_of_failure _ herr _,
      readLoop_of_failure _ herr _, readLoop_of_failure _ herr _,
      readLoop_of_failure _ herr _⟩
  · intro hnone
    have hvec := readLoop_of_no_failure
      (fun result item => result ++ [into item]) hnone []
    rw [foldl_append_singleton, List.nil_append] at hvec
    have hfilter : asVecWithTransformationAndFilter filter stream = _ :=
      readLoop_of_no_failure _ hnone []
    rw [foldl_append_some, List.nil_append] at hfilter
    exact ⟨hvec, hvec, hfilter⟩
  · intro hnone
    exact ⟨_, _, readLoop_of_no_failure _ hnone ∅,
      readLoop_of_no_failure _ hnone ∅,
      fun key => ⟨hashMap_getElem? getKey _ key, treeMap_getElem? getKey _ key⟩⟩

theorem filter_some
    (transform : T → TDest) (stream : List (ReadEvent T)) :
    asVecWithTransformationAndFilter (fun item => some (transform item))
      stream = asVecWithTransformation transform stream :=
  rfl

theorem firstOrNone_eq (stream : List (ReadEvent T)) :
    firstOrNone stream =
      match itemsBefore stream, firstFailure stream with
      | item :: _, _ => .ok (some item)
      | [], none => .ok none
      | [], some err => .error err := by
  cases stream with
  | nil => rfl
  | cons event events => cases event <;> rfl

/-- All collectors succeed on the streams that are read without a failure, and
otherwise return the first failure.  The vectors are the items mapped or
filtered, the two maps have the value of the last item of each key, and the
first item is returned whatever follows it. -/
theorem collectors_agree
    [EquivBEq TKey] [LawfulHashable TKey] [Std.TransOrd TKey]
    [Std.LawfulBEqOrd TKey]
    (into : T → TDest) (filter : T → Option TDest)
    (getKey : T → TKey × TResult) (stream : List (ReadEvent T)) :
    Collected into filter getKey stream ∧
    asVecWithTransformationAndFilter (fun item => some (into item)) stream =
      asVecWithTransformation into stream ∧
    firstOrNone stream =
      match itemsBefore stream, firstFailure stream with
      | item :: _, _ => .ok (some item)
      | [], none => .ok none
      | [], some err => .error err :=
  ⟨collected into filter getKey stream, filter_some into stream,
    firstOrNone_eq stream⟩

theorem collectors_agree_repeated_key :
    Collected (fun n : ℕ => n + 1) (fun n => if n = 0 then none else some n)
      (fun n => (n % 2, n)) [.item 1, .item 2, .item 3] :=
  (collectors_agree _ _ _ _).1

end Agreement

end ReadGrpcStream
end GrpcExtensions
