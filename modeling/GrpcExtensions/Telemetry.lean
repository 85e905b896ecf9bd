import GrpcExtensions.DecimalNumbers
import GrpcExtensions.Utf8Text
import Mathlib.Logic.Function.Basic

/-!
# Telemetry ids across gRPC hops

A client writes the ids of its telemetry context into the `process-id` header
and the server reads them back.  The client chooses the format by the variant
of the context, the server by the presence of a comma.  A handler that calls
another service forwards the context which it has read.

The parser of metadata values belongs to the transport: it is a parameter of
which only its behaviour on visible ASCII is used.
-/

namespace GrpcExtensions
namespace Telemetry

inductive MyTelemetryContext where
  | single (processId : Int64)
  | multiple (ids : List Int64)
  | empty
  deriving DecidableEq

namespace MyTelemetryContext

def ids : MyTelemetryContext → List Int64
  | single processId => [processId]
  | multiple ids => ids
  | empty => []

def ofIds : List Int64 → MyTelemetryContext
  | [] => empty
  | [processId] => single processId
  | ids => multiple ids

@[simp] theorem ids_ofIds (ids : List Int64) : (ofIds ids).ids = ids := by
  match ids with
  | [] => rfl
  | [_] => rfl
  | _ :: _ :: _ => rfl

end MyTelemetryContext

/-- `message` is the text of a `panic!`; `unwrap` is an `unwrap` on an error. -/
inductive Panic where
  | message (text : String)
  | unwrap
  deriving DecidableEq

/-- `insert` replaces what was stored under the key. -/
abbrev MetadataMap := String → Option (List UInt8)

def MetadataMap.insert (metadata : MetadataMap) (key : String)
    (value : List UInt8) : MetadataMap :=
  Function.update metadata key (some value)

section Text

def asBytes (text : List Char) : List UInt8 :=
  text.flatMap String.utf8EncodeChar

def fromUtf8 (bytes : List UInt8) : Option (List Char) :=
  (String.fromUTF8? bytes.toByteArray).map String.toList

def displayInt64 (id : Int64) : List Char :=
  DecimalNumbers.print id.toInt

def parseInt64 (text : List Char) : Option Int64 :=
  (DecimalNumbers.parse Int64.minValue.toInt Int64.maxValue.toInt text).map
    Int64.ofInt

/-- The parser of metadata values accepts visible ASCII, byte by byte. -/
def ParsesVisibleAscii (parse : List Char → Option (List UInt8)) : Prop :=
  ∀ text, (∀ c ∈ text, 32 ≤ c.toNat ∧ c.toNat < 127) →
    parse text = some (asBytes text)

/-- The characters that a header value may be built from. -/
def isVisibleAscii (b : UInt8) : Bool :=
  32 ≤ b && b < 127 || b == 9

/-- A parser of metadata values. -/
def parseMetadataValue (text : List Char) : Option (List UInt8) :=
  if (asBytes text).all isVisibleAscii then some (asBytes text) else none

theorem parseMetadataValue_parsesVisibleAscii :
    ParsesVisibleAscii parseMetadataValue := by
  intro text htext
  have hall : (asBytes text).all isVisibleAscii = true := by
    rw [List.all_eq_true]
    intro b hb
    rw [asBytes, List.mem_flatMap] at hb
    obtain ⟨c, hc, hbyte⟩ := hb
    have hcode := htext c hc
    rw [Utf8Text.utf8EncodeChar_ascii (by omega), List.mem_singleton] at hbyte
    have hlow : 32 ≤ b := by
      rw [hbyte, UInt8.le_iff_toNat_le, UInt8.toNat_ofNat']
      simp
      omega
    have hhigh : b < 127 := by
      rw [hbyte, UInt8.lt_iff_toNat_lt, UInt8.toNat_ofNat']
      simp
      omega
    simp [isVisibleAscii, hlow, hhigh]
  rw [parseMetadataValue, if_pos hall]

end Text

section Client

structure GrpcClientInterceptor where
  ctx : MyTelemetryContext

/-- The loop over the ids of a context, from `result` and `index` on. -/
def pushIds (result : List Char) (index : ℕ) : List Int64 → List Char
  | [] => result
  | id :: ids =>
      let result := if index > 0 then result ++ [','] else result
      pushIds (result ++ displayInt64 id) (index + 1) ids

def GrpcClientInterceptor.toString (self : GrpcClientInterceptor) :
    Option (List Char) :=
  match self.ctx with
  | .single processId => some (displayInt64 processId)
  | .multiple ids => some (pushIds [] 0 ids)
  | .empty => none

/-- The metadata of the request that is sent.  `parse` is the `parse` of a
metadata value, without a value where it fails. -/
def GrpcClientInterceptor.call (parse : List Char → Option (List UInt8))
    (self : GrpcClientInterceptor) (request : MetadataMap) :
    Except Panic MetadataMap :=
  match self.toString with
  | some processId =>
      match parse processId with
      | some value => .ok (request.insert "process-id" value)
      | none => .error .unwrap
  | none => .ok request

end Client

section Server

universe u v

variable {Time : Type u} {Addr : Type v}

structure GrpcServerTelemetryContext (Time : Type u) (Addr : Type v) where
  ctx : Option MyTelemetryContext
  started : Time
  addr : Option Addr
  method : Option String

def GrpcServerTelemetryContext.new (now : Time) (ctx : MyTelemetryContext)
    (addr : Option Addr) (method : String) :
    GrpcServerTelemetryContext Time Addr :=
  { ctx := some ctx, started := now, addr := addr, method := some method }

def GrpcServerTelemetryContext.getCtx
    (self : GrpcServerTelemetryContext Time Addr) :
    Except Panic MyTelemetryContext :=
  match self.ctx with
  | none => .error (.message "MyTelemetry context is not set")
  | some ctx => .ok ctx

def hasMultipleIds (src : List UInt8) : Bool :=
  src.any fun b => b == ','.toUInt8

/-- `createEmpty` is the context of `MyTelemetryContext::create_empty`, `now`
the time at which the context is built. -/
def getTelemetry (createEmpty : MyTelemetryContext) (now : Time)
    (metadata : MetadataMap) (addr : Option Addr) (method : String) :
    GrpcServerTelemetryContext Time Addr :=
  let unknown := GrpcServerTelemetryContext.new now createEmpty addr method
  match metadata "process-id" with
  | none => unknown
  | some value =>
      match fromUtf8 value with
      | none => unknown
      | some processId =>
          if hasMultipleIds (asBytes processId) then
            .new now (.multiple ((processId.splitOn ',').filterMap parseInt64))
              addr method
          else
            match parseInt64 processId with
            | some processId => .new now (.single processId) addr method
            | none => unknown

/-- A service that reads the context of a request and forwards it with a
request of its own, on which no `process-id` has been set yet. -/
structure Hop (Time : Type u) (Addr : Type v) where
  request : MetadataMap
  unset : request "process-id" = none
  now : Time
  addr : Option Addr
  method : String

/-- The context that is read behind `hop`. -/
def Hop.forward (parse : List Char → Option (List UInt8))
    (createEmpty : MyTelemetryContext) (ctx : MyTelemetryContext)
    (hop : Hop Time Addr) : Except Panic MyTelemetryContext := do
  let metadata ← GrpcClientInterceptor.call parse ⟨ctx⟩ hop.request
  (getTelemetry createEmpty hop.now metadata hop.addr hop.method).getCtx

def forwardAll (parse : List Char → Option (List UInt8))
    (createEmpty : MyTelemetryContext) (ctx : MyTelemetryContext)
    (path : List (Hop Time Addr)) : Except Panic MyTelemetryContext :=
  path.foldlM (Hop.forward parse createEmpty) ctx

end Server

section Header

theorem parseInt64_displayInt64 (id : Int64) :
    parseInt64 (displayInt64 id) = some id := by
  have hzero : Int64.minValue.toInt ≤ 0 ∧ 0 ≤ Int64.maxValue.toInt := by decide
  have hid : Int64.minValue.toInt ≤ id.toInt ∧
      id.toInt ≤ Int64.maxValue.toInt :=
    ⟨Int64.minValue_le_toInt id, Int64.toInt_le id⟩
  rw [parseInt64, displayInt64, DecimalNumbers.parse_print hzero hid,
    Option.map_some, Int64.ofInt_toInt]

theorem parseInt64_nil : parseInt64 [] = none := rfl

/-- The texts that the interceptor writes. -/
def IsHeaderText (text : List Char) : Prop :=
  ∀ c ∈ text, c = '-' ∨ c = ',' ∨ c.isDigit = true

theorem isHeaderText_displayInt64 (id : Int64) :
    IsHeaderText (displayInt64 id) := by
  intro c hc
  cases DecimalNumbers.mem_print hc with
  | inl hsign => exact Or.inl hsign
  | inr hdigit => exact Or.inr (Or.inr hdigit)

theorem comma_not_mem_displayInt64 (id : Int64) : ',' ∉ displayInt64 id := by
  intro hmem
  have hcases := DecimalNumbers.mem_print hmem
  exact absurd hcases (by decide)

theorem fromUtf8_asBytes (text : List Char) :
    fromUtf8 (asBytes text) = some text := by
  have hvalid : (asBytes text).toByteArray.IsValidUTF8 :=
    ByteArray.isValidUTF8_utf8Encode (l := text)
  have hdecoded : String.fromUTF8? (asBytes text).toByteArray =
      some (String.ofList text) := by
    simp only [String.fromUTF8?, hvalid, dif_pos]
    rfl
  rw [fromUtf8, hdecoded, Option.map_some, String.toList_ofList]

theorem toNat_of_isHeaderText
    {text : List Char} (htext : IsHeaderText text) {c : Char} (hc : c ∈ text) :
    32 ≤ c.toNat ∧ c.toNat < 127 := by
  rcases htext c hc with heq | heq | hdigit
  · subst heq
    decide
  · subst heq
    decide
  · simp only [Char.isDigit, Bool.and_eq_true, decide_eq_true_eq] at hdigit
    have hlow : 48 ≤ c.toNat := hdigit.1
    have hhigh : c.toNat ≤ 57 := hdigit.2
    omega

theorem hasMultipleIds_asBytes (text : List Char) :
    hasMultipleIds (asBytes text) = true ↔ ',' ∈ text := by
  rw [hasMultipleIds, List.any_eq_true]
  constructor
  · intro hfound
    obtain ⟨b, hb, heq⟩ := hfound
    rw [asBytes, List.mem_flatMap] at hb
    obtain ⟨c, hc, hbyte⟩ := hb
    have hcomma : b = ','.toUInt8 := by simpa using heq
    have hcode := Utf8Text.toNat_of_mem_utf8EncodeChar
      (by rw [hcomma]; decide) hbyte
    have hchar : c = ',' := by
      rw [← Char.ofNat_toNat c, hcode, hcomma]
      rfl
    rwa [hchar] at hc
  · intro hmem
    refine ⟨','.toUInt8, ?_, by simp⟩
    rw [asBytes, List.mem_flatMap]
    exact ⟨',', hmem, Utf8Text.mem_utf8EncodeChar_ascii (by decide)⟩

theorem pushIds_succ (result : List Char) (index : ℕ) (ids : List Int64) :
    pushIds result (index + 1) ids =
      result ++ ids.flatMap fun id => ',' :: displayInt64 id := by
  induction ids generalizing result index with
  | nil => simp [pushIds]
  | cons id ids ih => simp [pushIds, ih]

theorem pushIds_zero (id : Int64) (ids : List Int64) :
    pushIds [] 0 (id :: ids) =
      displayInt64 id ++ ids.flatMap fun id => ',' :: displayInt64 id := by
  simp [pushIds, pushIds_succ]

theorem pushIds_eq_intercalate (ids : List Int64) :
    pushIds [] 0 ids = [','].intercalate (ids.map displayInt64) := by
  cases ids with
  | nil => rfl
  | cons id ids =>
      rw [pushIds_zero, List.map_cons]
      induction ids generalizing id with
      | nil => simp
      | cons next ids ih => simp [List.intercalate_cons_cons, ← ih]

theorem isHeaderText_pushIds (ids : List Int64) :
    IsHeaderText (pushIds [] 0 ids) := by
  cases ids with
  | nil => simp [pushIds, IsHeaderText]
  | cons id ids =>
      rw [pushIds_zero]
      intro c hc
      rw [List.mem_append, List.mem_flatMap] at hc
      rcases hc with hfirst | ⟨next, _, hnext⟩
      · exact isHeaderText_displayInt64 id c hfirst
      · cases List.mem_cons.mp hnext with
        | inl hcomma => exact Or.inr (Or.inl hcomma)
        | inr hdigits => exact isHeaderText_displayInt64 next c hdigits

theorem comma_mem_pushIds (id next : Int64) (ids : List Int64) :
    ',' ∈ pushIds [] 0 (id :: next :: ids) := by
  simp [pushIds_zero]

theorem filterMap_parseInt64_displayInt64 (ids : List Int64) :
    (ids.map displayInt64).filterMap parseInt64 = ids := by
  induction ids with
  | nil => rfl
  | cons id ids ih =>
      rw [List.map_cons, List.filterMap_cons, parseInt64_displayInt64, ih]

theorem parse_splitOn_pushIds {ids : List Int64} (hne : ids ≠ []) :
    ((pushIds [] 0 ids).splitOn ',').filterMap parseInt64 = ids := by
  have hcomma : ∀ text ∈ ids.map displayInt64, ',' ∉ text := by
    intro text htext
    obtain ⟨id, _, rfl⟩ := List.mem_map.mp htext
    exact comma_not_mem_displayInt64 id
  rw [pushIds_eq_intercalate, List.splitOn_intercalate ',' hcomma (by simpa),
    filterMap_parseInt64_displayInt64]

end Header

section RoundTrip

universe u v

variable {Time : Type u} {Addr : Type v}
variable (createEmpty : MyTelemetryContext) (now : Time)
variable (addr : Option Addr) (method : String)

theorem getTelemetry_of_missing
    {metadata : MetadataMap} (hmissing : metadata "process-id" = none) :
    getTelemetry createEmpty now metadata addr method =
      .new now createEmpty addr method := by
  simp [getTelemetry, hmissing]

theorem getTelemetry_of_comma
    {metadata : MetadataMap} {text : List Char}
    (hvalue : metadata "process-id" = some (asBytes text))
    (hcomma : ',' ∈ text) :
    getTelemetry createEmpty now metadata addr method =
      .new now (.multiple ((text.splitOn ',').filterMap parseInt64))
        addr method := by
  have hmany := (hasMultipleIds_asBytes text).mpr hcomma
  simp [getTelemetry, hvalue, fromUtf8_asBytes, hmany]

theorem getTelemetry_of_no_comma
    {metadata : MetadataMap} {text : List Char}
    (hvalue : metadata "process-id" = some (asBytes text))
    (hcomma : ',' ∉ text) :
    getTelemetry createEmpty now metadata addr method =
      .new now
        (match parseInt64 text with
          | some processId => .single processId
          | none => createEmpty)
        addr method := by
  have hone : hasMultipleIds (asBytes text) = false := by
    rw [← Bool.not_eq_true, hasMultipleIds_asBytes]
    exact hcomma
  simp only [getTelemetry, hvalue, fromUtf8_asBytes, hone]
  cases parseInt64 text with
  | some processId => rfl
  | none => rfl

theorem isHeaderText_toString
    {ctx : MyTelemetryContext} {text : List Char}
    (htext : GrpcClientInterceptor.toString ⟨ctx⟩ = some text) :
    IsHeaderText text := by
  cases ctx with
  | single processId =>
      cases htext
      exact isHeaderText_displayInt64 processId
  | multiple ids =>
      cases htext
      exact isHeaderText_pushIds ids
  | empty => cases htext

theorem call_of_text
    {parse : List Char → Option (List UInt8)}
    (hparse : ParsesVisibleAscii parse)
    {ctx : MyTelemetryContext} {text : List Char}
    (htext : GrpcClientInterceptor.toString ⟨ctx⟩ = some text)
    (request : MetadataMap) :
    GrpcClientInterceptor.call parse ⟨ctx⟩ request =
      .ok (request.insert "process-id" (asBytes text)) := by
  have hvalue : parse text = some (asBytes text) :=
    hparse text fun _ => toNat_of_isHeaderText (isHeaderText_toString htext)
  simp only [GrpcClientInterceptor.call, htext, hvalue]

theorem getTelemetry_of_toString
    {ctx : MyTelemetryContext} {text : List Char} {metadata : MetadataMap}
    (hempty : createEmpty = .empty)
    (htext : GrpcClientInterceptor.toString ⟨ctx⟩ = some text)
    (hvalue : metadata "process-id" = some (asBytes text)) :
    getTelemetry createEmpty now metadata addr method =
      .new now (.ofIds ctx.ids) addr method := by
  have hsingle : ∀ id : Int64, text = displayInt64 id →
      getTelemetry createEmpty now metadata addr method =
        .new now (.single id) addr method := by
    intro id htext
    subst htext
    rw [getTelemetry_of_no_comma createEmpty now addr method hvalue
      (comma_not_mem_displayInt64 id), parseInt64_displayInt64]
  cases ctx with
  | empty => cases htext
  | single id => exact hsingle id (Option.some.inj htext).symm
  | multiple ids =>
      have htext : text = pushIds [] 0 ids := (Option.some.inj htext).symm
      match ids with
      | [] =>
          -- An empty list is written as an empty header, which is no number.
          subst htext
          rw [getTelemetry_of_no_comma createEmpty now addr method hvalue
            (by simp [pushIds]), pushIds, parseInt64_nil, hempty]
          rfl
      | [id] => exact hsingle id (by simpa [pushIds] using htext)
      | id :: next :: ids =>
          subst htext
          rw [getTelemetry_of_comma createEmpty now addr method hvalue
            (comma_mem_pushIds id next ids), parse_splitOn_pushIds (by simp)]
          rfl

theorem call_then_getTelemetry
    {parse : List Char → Option (List UInt8)}
    (hparse : ParsesVisibleAscii parse) (hempty : createEmpty = .empty)
    (ctx : MyTelemetryContext) (request : MetadataMap) :
    ∃ metadata,
      GrpcClientInterceptor.call parse ⟨ctx⟩ request = .ok metadata ∧
      (ctx ≠ .empty ∨ request "process-id" = none →
        getTelemetry createEmpty now metadata addr method =
          .new now (.ofIds ctx.ids) addr method) := by
  cases htext : GrpcClientInterceptor.toString ⟨ctx⟩ with
  | some text =>
      refine ⟨_, call_of_text hparse htext request, fun _ => ?_⟩
      apply getTelemetry_of_toString createEmpty now addr method hempty htext
      simp [MetadataMap.insert]
  | none =>
      have hctx : ctx = .empty := by
        cases ctx with
        | empty => rfl
        | single id => cases htext
        | multiple ids => cases htext
      subst hctx
      refine ⟨request, rfl, fun hrequest => ?_⟩
      have hmissing := hrequest.resolve_left fun hne => hne rfl
      rw [getTelemetry_of_missing createEmpty now addr method hmissing, hempty]
      rfl

end RoundTrip

section Hops

universe u v

variable {Time : Type u} {Addr : Type v} {createEmpty : MyTelemetryContext}
variable {parse : List Char → Option (List UInt8)}

theorem Hop.forward_eq
    (hparse : ParsesVisibleAscii parse) (hempty : createEmpty = .empty)
    (ctx : MyTelemetryContext) (hop : Hop Time Addr) :
    hop.forward parse createEmpty ctx = .ok (.ofIds ctx.ids) := by
  obtain ⟨metadata, hcall, hread⟩ := call_then_getTelemetry createEmpty hop.now
    hop.addr hop.method hparse hempty ctx hop.request
  rw [Hop.forward, hcall]
  change (getTelemetry createEmpty hop.now metadata hop.addr
    hop.method).getCtx = _
  rw [hread (Or.inr hop.unset)]
  rfl

theorem ids_forwardAll
    (hparse : ParsesVisibleAscii parse) (hempty : createEmpty = .empty)
    (ctx : MyTelemetryContext) (path : List (Hop Time Addr)) :
    ∃ last, forwardAll parse createEmpty ctx path = .ok last ∧
      last.ids = ctx.ids := by
  induction path generalizing ctx with
  | nil => exact ⟨ctx, rfl, rfl⟩
  | cons hop path ih =>
      obtain ⟨last, hlast, hids⟩ := ih (.ofIds ctx.ids)
      rw [MyTelemetryContext.ids_ofIds] at hids
      refine ⟨last, ?_, hids⟩
      rw [← hlast, forwardAll, List.foldlM_cons, hop.forward_eq hparse hempty]
      rfl

theorem getCtx_getTelemetry
    (now : Time) (metadata : MetadataMap) (addr : Option Addr)
    (method : String) :
    ∃ ctx, (getTelemetry createEmpty now metadata addr method).getCtx =
      .ok ctx := by
  unfold getTelemetry
  repeat' split
  all_goals exact ⟨_, rfl⟩

/-- A context is read back from the header that is written for it, with its
ids in their order, and whatever header a service is given, its ids reach the
end of every path of services. -/
theorem telemetry_ids_survive
    (parse : List Char → Option (List UInt8))
    (hparse : ParsesVisibleAscii parse)
    (createEmpty : MyTelemetryContext) (hempty : createEmpty = .empty) :
    (∀ (ctx : MyTelemetryContext) (request : MetadataMap) (now : Time)
        (addr : Option Addr) (method : String),
      ∃ metadata,
        GrpcClientInterceptor.call parse ⟨ctx⟩ request = .ok metadata ∧
        (ctx ≠ .empty ∨ request "process-id" = none →
          (getTelemetry createEmpty now metadata addr method).getCtx =
            .ok (match ctx.ids with
              | [] => .empty
              | [processId] => .single processId
              | ids => .multiple ids))) ∧
      ∀ (metadata : MetadataMap) (now : Time) (addr : Option Addr)
          (method : String) (path : List (Hop Time Addr)),
        ∃ ctx last,
          (getTelemetry createEmpty now metadata addr method).getCtx =
              .ok ctx ∧
            forwardAll parse createEmpty ctx path = .ok last ∧
            last.ids = ctx.ids := by
  constructor
  · intro ctx request now addr method
    obtain ⟨metadata, hcall, hread⟩ :=
      call_then_getTelemetry createEmpty now addr method hparse hempty ctx
        request
    refine ⟨metadata, hcall, fun hrequest => ?_⟩
    rw [hread hrequest]
    rfl
  · intro metadata now addr method path
    obtain ⟨ctx, hctx⟩ := getCtx_getTelemetry now metadata addr method
    obtain ⟨last, hlast, hids⟩ := ids_forwardAll hparse hempty ctx path
    exact ⟨ctx, last, hctx, hlast, hids⟩

theorem telemetry_ids_survive_forwarded :
    ∃ ctx last : MyTelemetryContext,
      (getTelemetry .empty () (fun _ => some (asBytes "7,x,-8".toList))
        (none : Option Unit) "Ping").getCtx = .ok ctx ∧
        forwardAll parseMetadataValue .empty ctx
          [(⟨fun _ => none, rfl, (), none, "Pong"⟩ : Hop Unit Unit)] =
            .ok last ∧
        last.ids = ctx.ids :=
  (telemetry_ids_survive parseMetadataValue
    parseMetadataValue_parsesVisibleAscii .empty rfl).2
    (fun _ => some (asBytes "7,x,-8".toList)) () none "Ping"
    [⟨fun _ => none, rfl, (), none, "Pong"⟩]

end Hops

end Telemetry
end GrpcExtensions
