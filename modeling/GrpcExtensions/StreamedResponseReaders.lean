import GrpcExtensions.ReadGrpcStream

/-!
# Reading the response of a request

Some readers of a `StreamedResponse` loop over the stream itself and turn a
read that times out into `GrpcReadError::Timeout`.  The others loop over
`get_next_item`, which has made a status of the timeout before.
-/

namespace GrpcExtensions
namespace StreamedResponseReaders

open GrpcChannel (GrpcReadError Status)
open ReadGrpcStream (ReadEvent firstFailure itemsBefore)

universe u v w x

section Duration

structure Duration where
  secs : ℕ
  nanos : ℕ
  nanos_lt : nanos < 1000000000

def fractionDigits : ℕ → ℕ → ℕ → List Char
  | 0, _, _ => []
  | positions + 1, fractional, divisor =>
      if fractional = 0 then []
      else Nat.digitChar (fractional / divisor) ::
        fractionDigits positions (fractional % divisor) (divisor / 10)

def fmtDecimal (integer fractional divisor : ℕ) (suffix : String) : String :=
  let digits := fractionDigits 9 fractional divisor
  let fraction := if digits = [] then "" else "." ++ String.ofList digits
  integer.repr ++ fraction ++ suffix

/-- The format `{:?}` of a duration, in the largest unit that gives it an
integer part. -/
def Duration.debug (duration : Duration) : String :=
  if 0 < duration.secs then
    fmtDecimal duration.secs duration.nanos 100000000 "s"
  else if 1000000 ≤ duration.nanos then
    fmtDecimal (duration.nanos / 1000000) (duration.nanos % 1000000) 100000
      "ms"
  else if 1000 ≤ duration.nanos then
    fmtDecimal (duration.nanos / 1000) (duration.nanos % 1000) 100 "µs"
  else fmtDecimal duration.nanos 0 1 "ns"

example : Duration.debug ⟨1, 50000000, by decide⟩ = "1.05s" := rfl

end Duration

structure StreamedResponse (TItem : Type u) where
  stream : List (ReadEvent TItem)
  timeOut : Duration

/-- A reader may panic instead of returning. -/
inductive Outcome (α : Type u) where
  | panicked (message : String)
  | returned (result : Except GrpcReadError α)

variable {TItem : Type u} {σ : Type v}

/-- `get_next_item`, when this is what the next read of the stream gives. -/
def getNextItem (timeOut : Duration) : ReadEvent TItem → Except Status TItem
  | .item item => .ok item
  | .status err => .error err
  | .timeout => .error ⟨.aborted, "Timeout " ++ timeOut.debug⟩

/-- The loop over `get_next_item`: a status is converted by `?`. -/
def nextItemLoop (timeOut : Duration) (add : σ → TItem → σ) :
    σ → List (ReadEvent TItem) → Except GrpcReadError σ
  | result, [] => .ok result
  | result, event :: events =>
      match getNextItem timeOut event with
      | .ok item => nextItemLoop timeOut add (add result item) events
      | .error err => .error (.tonicStatus err)

def singleItemLoop {TResult : Type v} (timeOut : Duration)
    (into : TItem → TResult) :
    Option TResult → List (ReadEvent TItem) → Outcome (Option TResult)
  | result, [] => .returned (.ok result)
  | result, event :: events =>
      match getNextItem timeOut event with
      | .ok item =>
          if result.isNone then
            singleItemLoop timeOut into (some (into item)) events
          else .panicked "Only single item is allowed"
      | .error err => .returned (.error (.tonicStatus err))

section Source

variable {TResult : Type v} {TKey : Type w} {TValue : Type x}
variable (response : StreamedResponse TItem)

def StreamedResponse.intoVec (into : TItem → TResult) :
    Except GrpcReadError (List TResult) :=
  ReadGrpcStream.asVec into response.stream

def StreamedResponse.getSingleItem (into : TItem → TResult) :
    Outcome (Option TResult) :=
  singleItemLoop response.timeOut into none response.stream

def StreamedResponse.intoHashMap [BEq TKey] [Hashable TKey]
    (getKey : TItem → TKey × TValue) :
    Except GrpcReadError (Std.HashMap TKey TValue) :=
  ReadGrpcStream.asHashMap getKey response.stream

def StreamedResponse.intoHashSet [BEq TKey] [Hashable TKey]
    (convert : TItem → TKey) :
    Except GrpcReadError (Std.HashSet TKey) :=
  nextItemLoop response.timeOut
    (fun result item => result.insert (convert item)) ∅ response.stream

def StreamedResponse.intoBTreeMap [Ord TKey]
    (getKey : TItem → TKey × TValue) :
    Except GrpcReadError (Std.TreeMap TKey TValue) :=
  ReadGrpcStream.asBTreeMap getKey response.stream

end Source

def failureOf {α : Type u} : Except GrpcReadError α → Option GrpcReadError
  | .ok _ => none
  | .error err => some err

/-- A read times out before the stream has failed or ended. -/
def TimesOut (stream : List (ReadEvent TItem)) : Prop :=
  ∃ (items : List TItem) (rest : List (ReadEvent TItem)),
    stream = items.map .item ++ .timeout :: rest

/-- What a failed read is reported as by the loops over `get_next_item`. -/
def reported (timeOut : Duration) : GrpcReadError → GrpcReadError
  | .timeout => .tonicStatus ⟨.aborted, "Timeout " ++ timeOut.debug⟩
  | err => err

section Failures

theorem firstFailure_eq_timeout_iff (stream : List (ReadEvent TItem)) :
    firstFailure stream = some .timeout ↔ TimesOut stream := by
  constructor
  · intro htimeout
    induction stream with
    | nil => contradiction
    | cons event events ih =>
        cases event with
        | item item =>
            rcases ih htimeout with ⟨items, rest, rfl⟩
            exact ⟨item :: items, rest, rfl⟩
        | status err => simp [firstFailure] at htimeout
        | timeout => exact ⟨[], events, rfl⟩
  · rintro ⟨items, rest, rfl⟩
    induction items with
    | nil => rfl
    | cons item items ih => exact ih

theorem firstFailure_ne_transportError
    (stream : List (ReadEvent TItem)) (err : String) :
    firstFailure stream ≠ some (.transportError err) := by
  induction stream with
  | nil => simp [firstFailure]
  | cons event events ih =>
      cases event with
      | item item => exact ih
      | status status => simp [firstFailure]
      | timeout => simp [firstFailure]

theorem failureOf_readLoop
    (add : σ → TItem → σ) (result : σ) (stream : List (ReadEvent TItem)) :
    failureOf (ReadGrpcStream.readLoop add result stream) =
      firstFailure stream := by
  rw [ReadGrpcStream.readLoop_eq]
  cases firstFailure stream <;> rfl

theorem failureOf_nextItemLoop
    (timeOut : Duration) (add : σ → TItem → σ) (result : σ)
    (stream : List (ReadEvent TItem)) :
    failureOf (nextItemLoop timeOut add result stream) =
      (firstFailure stream).map (reported timeOut) := by
  induction stream generalizing result with
  | nil => rfl
  | cons event events ih =>
      cases event with
      | item item => exact ih (add result item)
      | status err => rfl
      | timeout => rfl

/-- At most one item is read, so the second one is never refused. -/
theorem singleItemLoop_returned
    {TResult : Type v} (timeOut : Duration) (into : TItem → TResult)
    {stream : List (ReadEvent TItem)} (result : Option TResult)
    (hsingle : (itemsBefore stream).length + result.toList.length ≤ 1) :
    ∃ outcome, singleItemLoop timeOut into result stream =
        .returned outcome ∧
      failureOf outcome = (firstFailure stream).map (reported timeOut) := by
  induction stream generalizing result with
  | nil => exact ⟨_, rfl, rfl⟩
  | cons event events ih =>
      cases event with
      | item item =>
          have hempty : result = none := by
            cases result with
            | none => rfl
            | some held =>
                simp only [itemsBefore, List.length_cons, Option.toList_some,
                  List.length_nil] at hsingle
                omega
          subst hempty
          exact ih (some (into item)) hsingle
      | status err => exact ⟨_, rfl, rfl⟩
      | timeout => exact ⟨_, rfl, rfl⟩

theorem map_reported_iff (timeOut : Duration) (stream : List (ReadEvent TItem)) :
    (firstFailure stream).map (reported timeOut) = firstFailure stream ↔
      ¬ TimesOut stream := by
  rw [← firstFailure_eq_timeout_iff]
  cases hfailure : firstFailure stream with
  | none => simp
  | some err =>
      cases err with
      | timeout => simp [reported]
      | transportError text =>
          exact absurd hfailure (firstFailure_ne_transportError stream text)
      | tonicStatus status => simp [reported]

end Failures

section Agreement

variable {TResult : Type v} {TKey : Type w} {TValue : Type x}
variable [BEq TKey] [Hashable TKey] [Ord TKey]

/-- The readers succeed together and fail together with the same error, the
reader of a single item when there is no second one. -/
def SameFailure (response : StreamedResponse TItem) (into : TItem → TResult)
    (getKey : TItem → TKey × TValue) (convert : TItem → TKey) : Prop :=
  ∃ failure : Option GrpcReadError,
    failureOf (response.intoVec into) = failure ∧
    failureOf (response.intoHashMap getKey) = failure ∧
    failureOf (response.intoBTreeMap getKey) = failure ∧
    failureOf (response.intoHashSet convert) = failure ∧
    ((itemsBefore response.stream).length ≤ 1 →
      ∃ result, response.getSingleItem into = .returned result ∧
        failureOf result = failure)

/-- The readers report the same failure if and only if no read times out
before the stream has failed or ended. -/
theorem sameFailure_iff_no_timeout
    (response : StreamedResponse TItem) (into : TItem → TResult)
    (getKey : TItem → TKey × TValue) (convert : TItem → TKey) :
    SameFailure response into getKey convert ↔
      ¬ TimesOut response.stream := by
  rw [← map_reported_iff response.timeOut]
  have hvec : failureOf (response.intoVec into) =
      firstFailure response.stream :=
    failureOf_readLoop _ _ _
  have hset : failureOf (response.intoHashSet convert) =
      (firstFailure response.stream).map (reported response.timeOut) :=
    failureOf_nextItemLoop _ _ _ _
  constructor
  · rintro ⟨failure, hfirst, _, _, hlast, _⟩
    rw [← hset, hlast, ← hfirst, hvec]
  · intro hsame
    refine ⟨firstFailure response.stream, hvec, failureOf_readLoop _ _ _,
      failureOf_readLoop _ _ _, hset.trans hsame, ?_⟩
    intro hsingle
    rcases singleItemLoop_returned response.timeOut into none
        (Nat.add_le_add hsingle (Nat.le_refl 0)) with
        ⟨outcome, hreturned, hfailure⟩
    exact ⟨outcome, hreturned, hfailure.trans hsame⟩

end Agreement

/-- The first read times out after five seconds: the vector reports the
timeout, the hash set a status. -/
theorem timeout_becomes_status :
    ∃ response : StreamedResponse ℕ,
      failureOf (response.intoVec id) = some .timeout ∧
      failureOf (response.intoHashSet id) =
        some (.tonicStatus ⟨.aborted, "Timeout 5s"⟩) ∧
      ¬ SameFailure response id (fun n => (n, n)) id := by
  refine ⟨⟨[.timeout], ⟨5, 0, by decide⟩⟩, rfl, rfl, ?_⟩
  rintro ⟨failure, hvec, _, _, hset, _⟩
  rw [← hvec] at hset
  simp [failureOf, StreamedResponse.intoVec, StreamedResponse.intoHashSet,
    nextItemLoop, getNextItem, ReadGrpcStream.asVec,
    ReadGrpcStream.readLoop] at hset

end StreamedResponseReaders
end GrpcExtensions
