import GrpcExtensions.ProtoTokensReader

/-!
# Reading a .proto file

`read_proto_file` runs a machine of five states over the tokens of all lines.
It keeps the text of the two parameters of an rpc in buffers, and
`ParamType::parse` takes these texts apart later.
-/

namespace GrpcExtensions
namespace ProtoFileReader

open Lexer (Kind)

inductive ParamType where
  | single (name : String)
  | stream (name : String)
  deriving DecidableEq, Repr

def isAsciiWhitespace (c : Char) : Bool :=
  c == ' ' || c == '\t' || c == '\n' || c == '\x0c' || c == '\r'

def asciiKind (c : Char) : Kind :=
  if isAsciiWhitespace c then .space else .word

def splitAsciiWhitespace (src : String) : List String :=
  (Lexer.lex asciiKind src.toList).map String.ofList

/-- `name.split('.').last()`. -/
def lastSegment (name : String) : String :=
  String.ofList ((name.toList.splitOn '.').getLastD [])

/-- The loop of `ParamType::parse`: the words up to the first that is not
`stream`. -/
def takeName (isVec : Bool) : List String → Bool × Option String
  | [] => (isVec, none)
  | param :: params =>
      if param = "stream" then takeName true params
      else (isVec, some param)

def ParamType.parse (src : String) : Option ParamType :=
  match takeName false (splitAsciiWhitespace src) with
  | (_, none) => none
  | (isVec, some name) =>
      if name = "google.protobuf.Empty" then some (.single "()")
      else if isVec then some (.stream (lastSegment name))
      else some (.single (lastSegment name))

structure ProtoRpc where
  name : String
  inputParam : String
  outputParam : String
  deriving DecidableEq

namespace ProtoRpc

def getInputParam (rpc : ProtoRpc) : Option ParamType :=
  ParamType.parse rpc.inputParam

def getOutputParam (rpc : ProtoRpc) : Option ParamType :=
  ParamType.parse rpc.outputParam

end ProtoRpc

structure ProtoServiceDescription where
  serviceName : String
  rpc : List ProtoRpc
  deriving DecidableEq

inductive CurrentToken where
  | none
  | service
  | rpc
  | rpcExpectingInputParameter
  | rpcExpectingOutputParameter
  deriving DecidableEq

/-- The variables of `read_proto_file`. -/
structure Reader where
  serviceName : Option String
  currentToken : CurrentToken
  rpcName : Option String
  inputParamName : String
  outParamName : String
  rpc : List ProtoRpc
  deriving DecidableEq

def pushParam (buffer token : String) : String :=
  if 0 < buffer.length then buffer ++ " " ++ token else token

namespace Reader

def start : Reader where
  serviceName := none
  currentToken := .none
  rpcName := none
  inputParamName := ""
  outParamName := ""
  rpc := []

/-- The rpc is complete: the branch of the token `;`. -/
def storeRpc (r : Reader) : Except Panic Reader :=
  match r.rpcName with
  | none => .error (.message "Somehow rpc_name is null")
  | some name =>
      let rpc : ProtoRpc := ⟨name, r.inputParamName, r.outParamName⟩
      .ok { r with
        rpc := if name ≠ "Ping" then r.rpc ++ [rpc] else r.rpc
        currentToken := .none }

def readToken (r : Reader) (token : String) : Except Panic Reader :=
  match r.currentToken with
  | .none =>
      let r := if token = "service" then { r with currentToken := .service }
        else r
      .ok (if token = "rpc" then { r with currentToken := .rpc } else r)
  | .rpc =>
      .ok { r with
        rpcName := some token
        inputParamName := ""
        outParamName := ""
        currentToken := .rpcExpectingInputParameter }
  | .rpcExpectingInputParameter =>
      if token = "(" then .ok r
      else if token = ")" then
        .ok { r with currentToken := .rpcExpectingOutputParameter }
      else .ok { r with inputParamName := pushParam r.inputParamName token }
  | .rpcExpectingOutputParameter =>
      if token = "returns" then .ok r
      else if token = "(" then .ok r
      else if token = ")" then .ok r
      else do
        let r ← if token = ";" then r.storeRpc else .ok r
        -- the terminator is pushed too, after the rpc is stored
        return { r with outParamName := pushParam r.outParamName token }
  | .service =>
      .ok { r with serviceName := some token, currentToken := .none }

def readTokens (r : Reader) (tokens : List String) : Except Panic Reader :=
  tokens.foldlM readToken r

def readLine (r : Reader) (line : List UInt8) : Except Panic Reader := do
  let line ← fromUtf8 line
  let tokens ← (ProtoTokensReader.new line).collect
  r.readTokens tokens

def finish (fileName : String) (r : Reader) :
    Except Panic ProtoServiceDescription :=
  match r.serviceName with
  | none =>
      .error (.message
        ("Can not find service name in proto file: " ++ fileName))
  | some serviceName => .ok ⟨serviceName, r.rpc⟩

end Reader

def popCarriageReturn (line : List UInt8) : List UInt8 :=
  if line.getLast? = some 13 then line.dropLast else line

/-- `BufRead::lines`, with the line that has been read so far. -/
def linesFrom (buf : List UInt8) : List UInt8 → List (List UInt8)
  | [] => if buf = [] then [] else [buf]
  | b :: content =>
      if b = 10 then popCarriageReturn buf :: linesFrom [] content
      else linesFrom (buf ++ [b]) content

def lines (content : List UInt8) : List (List UInt8) :=
  linesFrom [] content

/-- `file` is what `File::open` gives: the bytes of the file, or the text of
the error. -/
def readProtoFile (fileName : String) (file : Except String (List UInt8)) :
    Except Panic ProtoServiceDescription :=
  match file with
  | .error err =>
      .error (.message
        ("Can not open file: " ++ fileName ++ ". Error: " ++ err))
  | .ok content => do
      let r ← (lines content).foldlM Reader.readLine Reader.start
      r.finish fileName

section Results

variable {ε α γ : Type} {f : α → Except ε γ}

theorem exists_mapM_ok
    {xs : List α} (hall : ∀ x ∈ xs, ∃ y, f x = .ok y) :
    ∃ ys, xs.mapM f = .ok ys := by
  induction xs with
  | nil => exact ⟨[], rfl⟩
  | cons x xs ih =>
      rw [List.forall_mem_cons] at hall
      rcases hall.1 with ⟨y, hy⟩
      rcases ih hall.2 with ⟨ys, hys⟩
      refine ⟨y :: ys, ?_⟩
      rw [List.mapM_cons, hy, hys]
      rfl

/-- The first failure is the result. -/
theorem mapM_eq_error
    {front back : List α} {x : α} {e : ε}
    (hfront : ∀ y ∈ front, ∃ z, f y = .ok z) (hx : f x = .error e) :
    (front ++ x :: back).mapM f = .error e := by
  induction front with
  | nil =>
      rw [List.nil_append, List.mapM_cons, hx]
      rfl
  | cons y front ih =>
      rw [List.forall_mem_cons] at hfront
      rcases hfront.1 with ⟨z, hz⟩
      rw [List.cons_append, List.mapM_cons, hz, ih hfront.2]
      rfl

end Results

namespace Reader

theorem readTokens_append (r : Reader) (tokens more : List String) :
    r.readTokens (tokens ++ more) =
      (r.readTokens tokens).bind fun after => after.readTokens more :=
  List.foldlM_append

theorem readTokens_append_of_ok
    {r after : Reader} {tokens : List String}
    (htokens : r.readTokens tokens = .ok after) (more : List String) :
    r.readTokens (tokens ++ more) = after.readTokens more := by
  rw [readTokens_append, htokens]
  rfl

theorem readTokens_cons_of_ok
    {r after : Reader} {token : String}
    (htoken : r.readToken token = .ok after) (more : List String) :
    r.readTokens (token :: more) = after.readTokens more := by
  unfold readTokens
  rw [List.foldlM_cons, htoken]
  rfl

/-- What each of the tokens keeps holds after all of them. -/
theorem readTokens_keeps
    {kept : Reader → Prop} {allowed : String → Prop}
    (hstep : ∀ r token, kept r → allowed token →
      ∃ after, r.readToken token = .ok after ∧ kept after)
    {r : Reader} (hkept : kept r)
    {tokens : List String} (hallowed : ∀ token ∈ tokens, allowed token) :
    ∃ after, r.readTokens tokens = .ok after ∧ kept after := by
  induction tokens generalizing r with
  | nil => exact ⟨r, rfl, hkept⟩
  | cons token tokens ih =>
      have htail : ∀ t ∈ tokens, allowed t := by
        intro t ht
        exact hallowed t (by simp [ht])
      obtain ⟨middle, hfirst, hmiddle⟩ :=
        hstep r token hkept (hallowed token (by simp))
      rw [readTokens_cons_of_ok hfirst]
      exact ih hmiddle htail

end Reader

end ProtoFileReader
end GrpcExtensions
