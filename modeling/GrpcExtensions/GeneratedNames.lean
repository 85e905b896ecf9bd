import GrpcExtensions.ProtoPhrases
import GrpcExtensions.ServerMacros
import GrpcExtensions.SnakeCase
import Mathlib.Data.List.Nodup

/-!
# The functions of the generated blocks

The block of the client has a function for each rpc beside `new`,
`get_service_name` and, with SSH, the setter of the key resolver; the block of
the server has one beside `ping`.  Rust refuses a block with two functions of
one name.  The `ping` of the server is safe because no rpc called `Ping` comes
out of the reader; the names of the client's own functions are free to be
taken.
-/

namespace GrpcExtensions
namespace GeneratedNames

open ClientMacros (CharCase TokenLexer asciiCase bind_eq_ok forall₂_of_mapM
  generate_eq_ok generateGrpcMethod_eq_ok intoSnakeCase map_eq_of_forall₂
  snakeCaseFrom tokenStream_eq_ok)
open ProtoFileReader
open SnakeCase (IsAscii IsRpcName ascii_of_isAlphanum intoSnakeCase_inj)

section Source

/-- The functions that `impl #struct_name` has before the methods. -/
def ownFns (withSsh : Bool) : List String :=
  ["new", "get_service_name"] ++
    if withSsh then ["set_ssh_private_key_resolver"] else []

def clientFns (withSsh : Bool) (client : ClientMacros.Client) : List String :=
  ownFns withSsh ++ client.methods.map ClientMacros.Method.fnName

def serverFns (server : ServerMacros.Server) : List String :=
  server.functions.map ServerMacros.Function.fnName ++ [server.ping.fnName]

end Source

/-- The names of rpcs that become functions of the client's own. -/
def takenNames (withSsh : Bool) : List String :=
  ["New", "GetServiceName"] ++
    if withSsh then ["SetSshPrivateKeyResolver"] else []

section Reading

def NoPing (r : Reader) : Prop :=
  ∀ rpc ∈ r.rpc, rpc.name ≠ "Ping"

theorem noPing_of_storeRpc
    {r stored : Reader} (hnone : NoPing r) (hstore : r.storeRpc = .ok stored) :
    NoPing stored := by
  unfold Reader.storeRpc at hstore
  split at hstore
  next => contradiction
  next name hname =>
    cases hstore
    intro rpc hrpc
    dsimp only at hrpc
    split at hrpc
    next hping =>
      rcases List.mem_append.mp hrpc with hold | hnew
      · exact hnone rpc hold
      · rw [List.mem_singleton.mp hnew]
        exact hping
    next => exact hnone rpc hrpc

theorem noPing_of_readToken
    {r after : Reader} {token : String} (hnone : NoPing r)
    (hread : r.readToken token = .ok after) : NoPing after := by
  cases Reader.reads_of_readToken hread with
  | @stored stored hcurrent hstore =>
      have hkept : NoPing stored := noPing_of_storeRpc hnone hstore
      exact hkept
  | _ => exact hnone

/-- What every turn of a loop keeps, the loop keeps. -/
theorem foldlM_keeps
    {ε α σ : Type} {f : σ → α → Except ε σ} {I : σ → Prop}
    (hstep : ∀ s a t, I s → f s a = .ok t → I t)
    {xs : List α} {s t : σ} (hinit : I s) (hfold : xs.foldlM f s = .ok t) :
    I t := by
  induction xs generalizing s with
  | nil =>
      cases hfold
      exact hinit
  | cons x xs ih =>
      rw [List.foldlM_cons] at hfold
      rcases bind_eq_ok.mp hfold with ⟨next, hnext, hrest⟩
      exact ih (hstep s x next hinit hnext) hrest

theorem noPing_of_readLine
    {r after : Reader} {line : List UInt8} (hnone : NoPing r)
    (hread : r.readLine line = .ok after) : NoPing after := by
  rcases bind_eq_ok.mp hread with ⟨text, _, hread⟩
  rcases bind_eq_ok.mp hread with ⟨tokens, _, hread⟩
  exact foldlM_keeps (fun _ _ _ => noPing_of_readToken) hnone hread

theorem noPing_of_readProtoFile
    {fileName : String} {file : Except String (List UInt8)}
    {protoFile : ProtoServiceDescription}
    (hread : readProtoFile fileName file = .ok protoFile) :
    ∀ rpc ∈ protoFile.rpc, rpc.name ≠ "Ping" := by
  cases file with
  | error err => contradiction
  | ok content =>
      rcases bind_eq_ok.mp hread with ⟨r, hlines, hfinish⟩
      have hnone : NoPing r :=
        foldlM_keeps (fun _ _ _ => noPing_of_readLine)
          (by simp [NoPing, Reader.start]) hlines
      unfold Reader.finish at hfinish
      split at hfinish
      next => contradiction
      next =>
        cases hfinish
        exact hnone

end Reading

section Names

variable (cases : CharCase)

theorem snakeCaseFrom_ascii
    (index : ℕ) {text : List Char} (htext : ∀ c ∈ text, c.toNat < 128) :
    snakeCaseFrom cases index text = snakeCaseFrom asciiCase index text := by
  induction text generalizing index with
  | nil => rfl
  | cons ch rest ih =>
      rw [List.forall_mem_cons] at htext
      unfold snakeCaseFrom
      rw [cases.isUppercase_ascii ch htext.1,
        cases.toLowercase_ascii ch htext.1, ih (index + 1) htext.2]
      rfl

theorem intoSnakeCase_ascii {text : String} (htext : IsAscii text) :
    intoSnakeCase cases text = intoSnakeCase asciiCase text :=
  congrArg String.ofList (snakeCaseFrom_ascii cases 0 htext)

theorem isRpcName_of_check
    (name : String) {first : Char} {rest : List Char}
    (hsplit : name.toList = first :: rest)
    (hcheck : (first.isUpper && name.toList.all Char.isAlphanum) = true) :
    IsRpcName name := by
  rw [Bool.and_eq_true] at hcheck
  exact ⟨List.all_eq_true.mp hcheck.2, first, rest, hsplit, hcheck.1⟩

/-- An rpc has the function of another name exactly if it has the name. -/
theorem intoSnakeCase_eq_iff
    {name other snake : String} (hname : IsRpcName name)
    (hother : IsRpcName other)
    (hsnake : intoSnakeCase asciiCase other = snake) :
    intoSnakeCase cases name = snake ↔ name = other := by
  have hascii : IsAscii other :=
    fun c hc => ascii_of_isAlphanum (hother.alphanum c hc)
  rw [← hsnake, ← intoSnakeCase_ascii cases hascii]
  constructor
  · exact intoSnakeCase_inj cases hname hother
  · exact congrArg (intoSnakeCase cases)

theorem mem_ownFns_iff
    {name : String} (hname : IsRpcName name) (withSsh : Bool) :
    intoSnakeCase cases name ∈ ownFns withSsh ↔ name ∈ takenNames withSsh := by
  have hnew := intoSnakeCase_eq_iff cases hname
    (isRpcName_of_check "New" rfl (by decide))
    (by decide : intoSnakeCase asciiCase "New" = "new")
  have hget := intoSnakeCase_eq_iff cases hname
    (isRpcName_of_check "GetServiceName" rfl (by decide))
    (by decide :
      intoSnakeCase asciiCase "GetServiceName" = "get_service_name")
  have hset := intoSnakeCase_eq_iff cases hname
    (isRpcName_of_check "SetSshPrivateKeyResolver" rfl (by decide))
    (by decide : intoSnakeCase asciiCase "SetSshPrivateKeyResolver" =
      "set_ssh_private_key_resolver")
  cases withSsh <;> simp [ownFns, takenNames, hnew, hget, hset]

theorem snakeNames_nodup_iff
    {rpcs : List ProtoRpc} (hnames : ∀ rpc ∈ rpcs, IsRpcName rpc.name) :
    (rpcs.map fun rpc => intoSnakeCase cases rpc.name).Nodup ↔
      (rpcs.map ProtoRpc.name).Nodup := by
  constructor
  · intro hnodup
    apply List.Nodup.of_map (intoSnakeCase cases)
    rwa [List.map_map]
  · intro hnodup
    apply List.Nodup.map_on
    · intro rpc hrpc other hother heq
      have hsame := intoSnakeCase_inj cases (hnames rpc hrpc)
        (hnames other hother) heq
      exact List.inj_on_of_nodup_map hnodup hrpc hother hsame
    · exact hnodup.of_map

end Names

section Blocks

variable {lexer : TokenLexer} {cases : CharCase}
variable {protoFile : ProtoServiceDescription}

theorem methodNames_eq
    {crateNs : String} {retries : ℕ}
    {overrides : Option (List ClientMacros.OverrideParam)}
    {withTelemetry : Bool} {client : ClientMacros.Client}
    (hgenerate : ClientMacros.generate lexer cases crateNs protoFile retries
      overrides withTelemetry = .ok client) :
    client.methods.map ClientMacros.Method.fnName =
      protoFile.rpc.map fun rpc => intoSnakeCase cases rpc.name := by
  rcases generate_eq_ok hgenerate with ⟨_, _, _, hmethods⟩
  exact map_eq_of_forall₂ (hmethods.imp fun _ _ hmethod =>
    (generateGrpcMethod_eq_ok hmethod).1)

theorem fnName_of_generateFunction
    {withTelemetry : Bool} {rpc : ProtoRpc} {function : ServerMacros.Function}
    (hfunction : ServerMacros.generateFunction lexer cases withTelemetry rpc =
      .ok function) :
    function.fnName = intoSnakeCase cases rpc.name := by
  unfold ServerMacros.generateFunction at hfunction
  rcases bind_eq_ok.mp hfunction with ⟨fnName, hname, hfunction⟩
  rcases bind_eq_ok.mp hfunction with ⟨inputParam, _, hfunction⟩
  rcases bind_eq_ok.mp hfunction with ⟨output, _, hfunction⟩
  cases hfunction
  exact tokenStream_eq_ok hname

theorem serverFns_eq
    {withTelemetry : Bool} {crateNs : String} {grpcStructName : Option String}
    {server : ServerMacros.Server}
    (hgenerate : ServerMacros.generate lexer cases withTelemetry crateNs
      grpcStructName protoFile = .ok server) :
    serverFns server =
      (protoFile.rpc.map fun rpc => intoSnakeCase cases rpc.name) ++
        ["ping"] := by
  rcases ServerMacros.generate_eq_ok hgenerate with ⟨hfunctions, hping⟩
  have hnames : server.functions.map ServerMacros.Function.fnName =
      protoFile.rpc.map fun rpc => intoSnakeCase cases rpc.name :=
    map_eq_of_forall₂ ((forall₂_of_mapM hfunctions).imp
      fun _ _ hfunction => fnName_of_generateFunction hfunction)
  unfold serverFns
  rw [hnames, hping]
  rfl

/-- Whatever file the description was read from, the functions of the server
have different names if and only if the rpcs have, and those of the client if
also no rpc has the name of one of the client's own functions. -/
theorem generated_names_distinct_iff
    {fileName : String} {file : Except String (List UInt8)}
    (hread : readProtoFile fileName file = .ok protoFile)
    (hnames : ∀ rpc ∈ protoFile.rpc, IsRpcName rpc.name) :
    (∀ withTelemetry crateNs grpcStructName server,
      ServerMacros.generate lexer cases withTelemetry crateNs grpcStructName
          protoFile = .ok server →
        ((serverFns server).Nodup ↔
          (protoFile.rpc.map ProtoRpc.name).Nodup)) ∧
    ∀ crateNs retries overrides withTelemetry withSsh client,
      ClientMacros.generate lexer cases crateNs protoFile retries overrides
          withTelemetry = .ok client →
        ((clientFns withSsh client).Nodup ↔
          (protoFile.rpc.map ProtoRpc.name).Nodup ∧
            ∀ rpc ∈ protoFile.rpc, rpc.name ∉ takenNames withSsh) := by
  constructor
  · intro withTelemetry crateNs grpcStructName server hgenerate
    have hping : ∀ rpc ∈ protoFile.rpc,
        intoSnakeCase cases rpc.name ≠ "ping" := by
      intro rpc hrpc heq
      have hname := (intoSnakeCase_eq_iff cases (hnames rpc hrpc)
        (isRpcName_of_check "Ping" rfl (by decide))
        (by decide : intoSnakeCase asciiCase "Ping" = "ping")).mp heq
      exact noPing_of_readProtoFile hread rpc hrpc hname
    rw [serverFns_eq hgenerate, List.nodup_append,
      snakeNames_nodup_iff cases hnames]
    simpa using fun _ => hping
  · intro crateNs retries overrides withTelemetry withSsh client hgenerate
    have hown : (ownFns withSsh).Nodup := by
      cases withSsh <;> decide
    rw [clientFns, methodNames_eq hgenerate, List.nodup_append,
      snakeNames_nodup_iff cases hnames, and_iff_right hown]
    apply and_congr_right
    intro _
    constructor
    · intro hapart rpc hrpc htaken
      have hmem := (mem_ownFns_iff cases (hnames rpc hrpc) withSsh).mpr htaken
      exact hapart _ hmem _ (List.mem_map_of_mem hrpc) rfl
    · rintro hfree fn hfn other hother rfl
      rcases List.mem_map.mp hother with ⟨rpc, hrpc, rfl⟩
      exact hfree rpc hrpc
        ((mem_ownFns_iff cases (hnames rpc hrpc) withSsh).mp hfn)

/-- A service whose only rpc is called `New`. -/
def flowsText : List Char :=
  "service Flows \x7b\n  rpc New (Order) returns (Flow);\n\x7d".toList

/-- The rpc takes the name of the constructor. -/
theorem generated_names_distinct_iff_new :
    ∃ protoFile client,
      readProtoFile "flows.proto" (.ok (asBytes flowsText)) = .ok protoFile ∧
      ClientMacros.generate ClientMacros.anyTokens asciiCase "crate::flows"
        protoFile 3 none false = .ok client ∧
      clientFns false client = ["new", "get_service_name", "new"] ∧
      ((clientFns false client).Nodup ↔
        (protoFile.rpc.map ProtoRpc.name).Nodup ∧
          ∀ rpc ∈ protoFile.rpc, rpc.name ∉ takenNames false) := by
  have hread : readProtoFile "flows.proto" (.ok (asBytes flowsText)) =
      .ok ⟨"Flows", [⟨"New", "Order", "Flow"⟩]⟩ := by
    decide +kernel
  have hnames : ∀ rpc ∈ [(⟨"New", "Order", "Flow"⟩ : ProtoRpc)],
      IsRpcName rpc.name := by
    intro rpc hrpc
    rw [List.mem_singleton.mp hrpc]
    exact isRpcName_of_check "New" rfl (by decide)
  have hmethods : ∃ methods, ClientMacros.generateGrpcMethods
      ClientMacros.anyTokens asciiCase 3 ∅
      ⟨"Flows", [⟨"New", "Order", "Flow"⟩]⟩ false = .ok methods := by
    unfold ClientMacros.generateGrpcMethods ClientMacros.generateGrpcMethod
    simp only [List.mapM_cons, List.mapM_nil, ClientMacros.retriesOf_empty]
    exact ⟨_, rfl⟩
  rcases hmethods with ⟨methods, hmethods⟩
  have hclient :=
    ClientMacros.generate_without_overrides "crate::flows" rfl hmethods
  refine ⟨_, _, hread, hclient, ?_,
    (generated_names_distinct_iff hread hnames).2 _ 3 none false false _
      hclient⟩
  rw [clientFns, methodNames_eq hclient]
  decide

end Blocks

end GeneratedNames
end GrpcExtensions
