import GrpcExtensions.ProtoFileRoundTrip
import Mathlib.Data.List.Chain

/-!
# Rpcs with a brace body

The output state leaves on a semicolon only.  An rpc with an option statement
in its body is stored at the semicolon of the statement; after an empty body
the reader runs on through the following declarations, and these are lost.
-/

namespace GrpcExtensions
namespace ProtoFileReader

/-- How an rpc ends.  An option statement is given by its tokens between
`option` and the semicolon. -/
inductive Terminator where
  | semicolon
  | braces (options : List (List String))
  deriving DecidableEq

namespace Terminator

def optionTokens (statement : List String) : List String :=
  "option" :: statement ++ [";"]

def tokens : Terminator → List String
  | .semicolon => [";"]
  | .braces options =>
      openBrace :: options.flatMap optionTokens ++ [closeBrace]

/-- The tokens behind the first semicolon, which the reader sees at rest. -/
def outer (terminator : Terminator) : List String :=
  (terminator.tokens.dropWhile (· ≠ ";")).tail

end Terminator

structure RpcItem where
  decl : RpcDecl
  terminator : Terminator
  deriving DecidableEq

namespace RpcItem

def tokens (item : RpcItem) : List String :=
  item.decl.head ++ item.terminator.tokens

def Unterminated (item : RpcItem) : Prop :=
  item.terminator = .braces []

instance : DecidablePred Unterminated :=
  fun item => inferInstanceAs (Decidable (item.terminator = .braces []))

end RpcItem

/-- The rpcs stored while the items are read, and the one that waits at the
end. -/
def segment (waiting : Option RpcDecl) :
    List RpcItem → List RpcDecl × Option RpcDecl
  | [] => ([], waiting)
  | item :: items =>
      let first := waiting.getD item.decl
      if item.Unterminated then segment (some first) items
      else
        let (stored, last) := segment none items
        (first :: stored, last)

section Reading

variable {r : Reader} {serviceName : Option String} {rpcs : List Signature}

/-- The rpcs that the reader keeps, with the tokens behind the block. -/
def kept (waiting : Option RpcDecl) (items : List RpcItem)
    (after : List String) : List RpcDecl :=
  (segment waiting items).1 ++
    if ";" ∈ after then (segment waiting items).2.toList else []

end Reading

/-- A semicolon is still to come, in one of these declarations or behind the
block. -/
def Ended (items : List RpcItem) (behind : List String) : Prop :=
  (∃ item ∈ items, ¬ item.Unterminated) ∨ ";" ∈ behind

section Segments

variable {behind : List String} {item next : RpcItem} {items : List RpcItem}

end Segments

end ProtoFileReader
end GrpcExtensions
