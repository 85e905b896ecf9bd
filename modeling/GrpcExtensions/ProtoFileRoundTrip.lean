import GrpcExtensions.ProtoFileText
import GrpcExtensions.ProtoPhrases

/-!
# Reading undoes rendering

A service block of semicolon-terminated rpcs, laid out in any way and with any
declarations around it that use neither `service` nor `rpc`, is read back as
it was declared.
-/

namespace GrpcExtensions
namespace ProtoFileReader

section Blocks

variable {r : Reader} {serviceName : Option String} {rpcs : List Signature}

theorem readTokens_rpcs
    (hrest : r.AtRest serviceName rpcs)
    {decls : List RpcDecl} (hlegal : ∀ d ∈ decls, d.Legal) :
    ∃ after, r.readTokens (decls.flatMap RpcDecl.tokens) = .ok after ∧
      after.AtRest serviceName (rpcs ++ declared decls) := by
  induction decls generalizing r rpcs with
  | nil => exact ⟨r, rfl, by simpa using hrest⟩
  | cons d decls ih =>
      have hd : d.Legal := hlegal d (by simp)
      have htail : ∀ e ∈ decls, e.Legal := by
        intro e he
        exact hlegal e (by simp [he])
      obtain ⟨middle, hfirst, hmiddle⟩ := readTokens_rpc hrest hd
      obtain ⟨after, hmore, hafter⟩ := ih hmiddle htail
      refine ⟨after, ?_, ?_⟩
      · rw [List.flatMap_cons, Reader.readTokens_append_of_ok hfirst, hmore]
      · rw [declared_cons, ← List.append_assoc]
        exact hafter

theorem readTokens_serviceTokens
    (hrest : r.AtRest serviceName rpcs) (name : String)
    {decls : List RpcDecl} (hlegal : ∀ d ∈ decls, d.Legal) :
    ∃ after, r.readTokens (serviceTokens name decls) = .ok after ∧
      after.AtRest (some name) (rpcs ++ declared decls) := by
  obtain ⟨named, hname, hnamed⟩ := readTokens_service hrest name
  have hopen := readToken_quiet hnamed.currentToken quiet_openBrace
  obtain ⟨after, hdecls, hafter⟩ := readTokens_rpcs hnamed hlegal
  have hclose := readToken_quiet hafter.currentToken quiet_closeBrace
  refine ⟨after, ?_, hafter⟩
  have hsplit : serviceTokens name decls =
      ["service", name] ++ (openBrace ::
        (decls.flatMap RpcDecl.tokens ++ [closeBrace])) := by
    simp [serviceTokens]
  rw [hsplit, Reader.readTokens_append_of_ok hname,
    Reader.readTokens_cons_of_ok hopen,
    Reader.readTokens_append_of_ok hdecls,
    Reader.readTokens_cons_of_ok hclose]
  rfl

end Blocks

theorem atRest_start : Reader.start.AtRest none [] :=
  ⟨rfl, rfl, rfl⟩

theorem readProtoFile_of_tokens
    {tokens : List String} {text : List Char}
    (htext : RendersFile tokens text)
    {r : Reader} (hread : Reader.start.readTokens tokens = .ok r)
    (fileName : String) :
    readProtoFile fileName (.ok (asBytes text)) = r.finish fileName := by
  rw [readProtoFile_asBytes, rendersFile_iff.mp htext, hread]
  rfl

theorem readTokens_of_readProtoFile
    {tokens : List String} {text : List Char}
    (htext : RendersFile tokens text)
    {fileName : String} {description : ProtoServiceDescription}
    (hfile : readProtoFile fileName (.ok (asBytes text)) = .ok description) :
    ∃ r, Reader.start.readTokens tokens = .ok r ∧
      r.finish fileName = .ok description := by
  rw [readProtoFile_asBytes, rendersFile_iff.mp htext] at hfile
  cases hread : Reader.start.readTokens tokens with
  | error panic =>
      rw [hread] at hfile
      cases hfile
  | ok r =>
      rw [hread] at hfile
      exact ⟨r, rfl, hfile⟩

theorem finish_eq_ok
    {r : Reader} {fileName : String} {description : ProtoServiceDescription}
    (hfinish : r.finish fileName = .ok description) :
    r.serviceName = some description.serviceName ∧
      r.rpc = description.rpc := by
  unfold Reader.finish at hfinish
  cases hname : r.serviceName with
  | none => simp [hname] at hfinish
  | some name =>
      simp only [hname, Except.ok.injEq] at hfinish
      rw [← hfinish]
      exact ⟨rfl, rfl⟩

theorem describes_finish
    {r : Reader} {name : String} {decls : List RpcDecl}
    (hname : r.serviceName = some name)
    (hrpcs : r.rpc.map ProtoRpc.signature = declared decls)
    (fileName : String) :
    Describes (r.finish fileName) name decls := by
  refine ⟨⟨name, r.rpc⟩, ?_, rfl, hrpcs⟩
  rw [Reader.finish, hname]

theorem readTokens_file
    {before after : List String} {decls : List RpcDecl}
    (hlegal : ∀ d ∈ decls, d.Legal)
    (hbefore : ∀ token ∈ before, Quiet token)
    (hafter : ∀ token ∈ after, Quiet token)
    (name : String) :
    ∃ r, Reader.start.readTokens
        (before ++ serviceTokens name decls ++ after) = .ok r ∧
      r.AtRest (some name) (declared decls) := by
  have hfirst := readTokens_quiet atRest_start.currentToken hbefore
  obtain ⟨r, hblock, hrest⟩ :=
    readTokens_serviceTokens atRest_start name hlegal
  refine ⟨r, ?_, hrest⟩
  rw [List.append_assoc, Reader.readTokens_append_of_ok hfirst,
    Reader.readTokens_append_of_ok hblock]
  exact readTokens_quiet hrest.currentToken hafter

/-- A file with one service block, among tokens that are neither `service`
nor `rpc`. -/
theorem readProtoFile_of_rendersService
    {name : String} {decls : List RpcDecl}
    {before after : List String} {text : List Char}
    (hlegal : ∀ d ∈ decls, d.Legal)
    (hbefore : ∀ token ∈ before, Quiet token)
    (hafter : ∀ token ∈ after, Quiet token)
    (htext : RendersFile
      (before ++ serviceTokens name decls ++ after) text)
    (fileName : String) :
    Describes (readProtoFile fileName (.ok (asBytes text))) name decls := by
  obtain ⟨r, hread, hrest⟩ := readTokens_file hlegal hbefore hafter name
  rw [readProtoFile_of_tokens htext hread]
  exact describes_finish hrest.serviceName hrest.rpcs fileName

/-- A small file in an unusual layout, with a comment that looks like an rpc. -/
def sampleText : List Char :=
  "syntax = \"proto3\";\r\nservice\n Files\x7b rpc\tPing(google.protobuf.Empty)
  // rpc Drop (X) returns (Y);
  returns ( google.protobuf.Empty ) ;rpc Get
  (stream files.GetRequest)returns(stream a.b.Chunk);\x7d".toList

def sampleRpcs : List RpcDecl :=
  [⟨"Ping", ⟨false, "google.protobuf.Empty"⟩,
      ⟨false, "google.protobuf.Empty"⟩⟩,
    ⟨"Get", ⟨true, "files.GetRequest"⟩, ⟨true, "a.b.Chunk"⟩⟩]

theorem readProtoFile_sampleText :
    Describes (readProtoFile "files.proto" (.ok (asBytes sampleText)))
      "Files" sampleRpcs := by
  have htext : RendersFile
      (["syntax", "=", "\"proto3\"", ";"] ++
        serviceTokens "Files" sampleRpcs ++ []) sampleText :=
    rendersFile_iff.mpr (by decide +kernel)
  exact readProtoFile_of_rendersService (by decide) (by decide) (by decide)
    htext "files.proto"

end ProtoFileReader
end GrpcExtensions
