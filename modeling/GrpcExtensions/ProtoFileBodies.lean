import GrpcExtensions.ProtoFileBraces
import GrpcExtensions.ProtoStrayWords

/-!
# Braces and semicolons compared

A block with any choice of terminators is compared with the same block with
semicolons only.  Besides the rpcs with an empty body, the words `service` and
`rpc` in the option statements can make a difference.
-/

namespace GrpcExtensions
namespace ProtoFileReader

section Stray

variable {name : String} {items : List RpcItem}

end Stray

section Bodies

variable {r : Reader} {serviceName : Option String} {rpcs : List Signature}

end Bodies

end ProtoFileReader
end GrpcExtensions
