import GrpcExtensions.ProtoStrayWords

/-!
# Several declarations in one file

The reader tracks no nesting.  All service blocks write to one list of rpcs,
and the service name is the token behind the last word `service` that is read
at rest, in a block or in any other declaration.
-/

namespace GrpcExtensions
namespace ProtoFileReader

/-- A service block, or any other declaration by its tokens. -/
inductive Declaration where
  | service (name : String) (decls : List RpcDecl)
  | other (tokens : List String)
  deriving DecidableEq

namespace Declaration

def tokens : Declaration → List String
  | .service name decls => serviceTokens name decls
  | .other tokens => tokens

def rpcs : Declaration → List RpcDecl
  | .service _ decls => decls
  | .other _ => []

/-- What the declaration gives a name to, as far as the reader reports it. -/
def names : Declaration → List String
  | .service name decls => name :: decls.map RpcDecl.name
  | .other _ => []

/-- A declaration that is no service block ends neither in `service` nor in
`rpc`. -/
def Legal : Declaration → Prop
  | .service _ decls => ∀ d ∈ decls, d.Legal
  | .other tokens => Complete tokens

instance : DecidablePred Legal
  | .service _ decls => inferInstanceAs (Decidable (∀ d ∈ decls, d.Legal))
  | .other tokens =>
      inferInstanceAs (Decidable (∀ token ∈ tokens.getLast?, Quiet token))

def Mute : Declaration → Prop
  | .service _ _ => False
  | .other tokens => ∀ token ∈ tokens, Quiet token

end Declaration

def fileRpcs (file : List Declaration) : List RpcDecl :=
  file.flatMap Declaration.rpcs

/-- The service name and the rpcs are those of one block of the file. -/
def DecidedByBlock (result : Except Panic ProtoServiceDescription)
    (file : List Declaration) : Prop :=
  ∃ name decls, .service name decls ∈ file ∧ Describes result name decls

/-- No rpc word stands alone outside the blocks. -/
def NoStrayRpc (file : List Declaration) : Prop :=
  ∀ tokens, .other tokens ∈ file → "rpc" ∉ tokens

/-- Declarations from which nothing is heard: there are none, or they begin
with a stray word `rpc` and the rpc that it begins is never stored. -/
def Unheard (rest : List Declaration) : Prop :=
  rest = [] ∨ ∃ front name back more,
    rest = .other (front ++ "rpc" :: name :: back) :: more ∧
    (∀ token ∈ front, Quiet token) ∧
    ¬ Closes (back ++ more.flatMap Declaration.tokens)

/-- One block has this name, and the others declare `Ping` only. -/
def OnlyBlock (name : String) (file : List Declaration) : Prop :=
  ∃ front decls back, file = front ++ .service name decls :: back ∧
    ∀ d ∈ fileRpcs (front ++ back), d.name = "Ping"

/-- The file up to the last block that the reader hears, the declarations
behind it that mean nothing to it, and those that it does not hear. -/
structure HeardUpTo (file front : List Declaration) (name : String)
    (decls : List RpcDecl) (between rest : List Declaration) : Prop where
  split : file = front ++ .service name decls :: (between ++ rest)
  noStrayRpc : NoStrayRpc front
  mute : ∀ d ∈ between, d.Mute
  unheard : Unheard rest
  onlyBlock : OnlyBlock name (front ++ [.service name decls])

def OneBlockHeard (file : List Declaration) : Prop :=
  ∃ front name decls between rest,
    HeardUpTo file front name decls between rest

section Reading

variable {r : Reader} {serviceName : Option String} {rpcs : List Signature}

/-- The service name behind declarations without a stray `rpc`. -/
def serviceBehind (serviceName : Option String) :
    List Declaration → Option String
  | [] => serviceName
  | .service name _ :: file => serviceBehind (some name) file
  | .other tokens :: file =>
      serviceBehind (lastService serviceName tokens) file

theorem readTokens_heard
    (hrest : r.AtRest serviceName rpcs)
    {file : List Declaration} (hlegal : ∀ d ∈ file, d.Legal)
    (hstray : NoStrayRpc file) :
    ∃ after, r.readTokens (file.flatMap Declaration.tokens) = .ok after ∧
      after.AtRest (serviceBehind serviceName file)
        (rpcs ++ declared (fileRpcs file)) := by
  induction file generalizing r serviceName rpcs with
  | nil => exact ⟨r, rfl, by simpa [fileRpcs, serviceBehind] using hrest⟩
  | cons decl file ih =>
      have htailLegal : ∀ d ∈ file, d.Legal := by
        intro d hd
        exact hlegal d (by simp [hd])
      have htailStray : NoStrayRpc file := by
        intro tokens hmem
        exact hstray tokens (List.mem_cons_of_mem decl hmem)
      have hdecl : decl.Legal := hlegal decl (by simp)
      rw [List.flatMap_cons]
      cases decl with
      | service name decls =>
          obtain ⟨middle, hfirst, hmiddle⟩ :=
            readTokens_serviceTokens hrest name hdecl
          obtain ⟨after, hread, hafter⟩ := ih hmiddle htailLegal htailStray
          refine ⟨after, ?_, ?_⟩
          · exact (Reader.readTokens_append_of_ok hfirst _).trans hread
          · have hrpcs : fileRpcs (.service name decls :: file) =
                decls ++ fileRpcs file := rfl
            rw [hrpcs, declared_append, ← List.append_assoc]
            exact hafter
      | other tokens =>
          have hrpc : "rpc" ∉ tokens := hstray tokens (by simp)
          obtain ⟨middle, hfirst, hmiddle⟩ :=
            readTokens_noRpc hrest hrpc hdecl
          obtain ⟨after, hread, hafter⟩ := ih hmiddle htailLegal htailStray
          exact ⟨after, (Reader.readTokens_append_of_ok hfirst _).trans hread,
            hafter⟩

theorem readTokens_unheard
    (hrest : r.AtRest serviceName rpcs)
    {rest : List Declaration} (hunheard : Unheard rest) :
    ∃ after, r.readTokens (rest.flatMap Declaration.tokens) = .ok after ∧
      after.serviceName = serviceName ∧
      after.rpc.map ProtoRpc.signature = rpcs := by
  rcases hunheard with rfl | ⟨front, name, back, more, rfl, hfront, hopen⟩
  · exact ⟨r, rfl, hrest.serviceName, hrest.rpcs⟩
  · have hquiet := readTokens_quiet hrest.currentToken hfront
    obtain ⟨middle, hbegin, hbegun⟩ :=
      readTokens_begin hrest.currentToken name
    obtain ⟨after, hread, hservice, hrpc⟩ :=
      readTokens_of_not_closes hbegun hopen
    have hsplit : (Declaration.other (front ++ "rpc" :: name :: back) ::
        more).flatMap Declaration.tokens =
        front ++ (["rpc", name] ++
          (back ++ more.flatMap Declaration.tokens)) := by
      simp [Declaration.tokens]
    refine ⟨after, ?_, hservice.trans hrest.serviceName, ?_⟩
    · rw [hsplit, Reader.readTokens_append_of_ok hquiet,
        Reader.readTokens_append_of_ok hbegin, hread]
    · rw [hrpc]
      exact hrest.rpcs

end Reading

section Blocks

theorem fileRpcs_append (file more : List Declaration) :
    fileRpcs (file ++ more) = fileRpcs file ++ fileRpcs more :=
  List.flatMap_append

theorem fileRpcs_of_mute
    {file : List Declaration} (hmute : ∀ d ∈ file, d.Mute) :
    fileRpcs file = [] := by
  unfold fileRpcs
  rw [List.flatMap_eq_nil_iff]
  intro decl hdecl
  have hdeclMute := hmute decl hdecl
  cases decl with
  | service name decls => exact hdeclMute.elim
  | other tokens => rfl

theorem declared_eq_nil_iff {decls : List RpcDecl} :
    declared decls = [] ↔ ∀ d ∈ decls, d.name = "Ping" := by
  simp [declared]

theorem declared_fileRpcs_iff
    (front back : List Declaration) (name : String) (decls : List RpcDecl) :
    declared (fileRpcs (front ++ .service name decls :: back)) =
        declared decls ↔
      ∀ d ∈ fileRpcs (front ++ back), d.name = "Ping" := by
  have hsplit : declared (fileRpcs (front ++ .service name decls :: back)) =
      declared (fileRpcs front) ++ (declared decls ++
        declared (fileRpcs back)) := by
    have hblock : fileRpcs (.service name decls :: back) =
        decls ++ fileRpcs back := rfl
    rw [fileRpcs_append, hblock, declared_append, declared_append]
  rw [hsplit, ← declared_eq_nil_iff, fileRpcs_append, declared_append,
    List.append_eq_nil_iff]
  constructor
  · intro heq
    have hlength := congrArg List.length heq
    simp only [List.length_append] at hlength
    constructor
    · exact List.eq_nil_of_length_eq_zero (by omega)
    · exact List.eq_nil_of_length_eq_zero (by omega)
  · rintro ⟨hfront, hback⟩
    simp [hfront, hback]

theorem serviceBehind_append
    (serviceName : Option String) (file more : List Declaration) :
    serviceBehind serviceName (file ++ more) =
      serviceBehind (serviceBehind serviceName file) more := by
  induction file generalizing serviceName with
  | nil => rfl
  | cons decl file ih =>
      cases decl with
      | service name decls => exact ih (some name)
      | other tokens => exact ih (lastService serviceName tokens)

theorem serviceBehind_of_mute
    (serviceName : Option String)
    {file : List Declaration} (hmute : ∀ d ∈ file, d.Mute) :
    serviceBehind serviceName file = serviceName := by
  induction file with
  | nil => rfl
  | cons decl file ih =>
      have hdecl := hmute decl (by simp)
      have htail : ∀ d ∈ file, d.Mute := by
        intro d hd
        exact hmute d (by simp [hd])
      cases decl with
      | service name decls => exact hdecl.elim
      | other tokens =>
          have hservice : "service" ∉ tokens := by
            intro hmem
            exact (hdecl "service" hmem).1 rfl
          rw [serviceBehind, lastService_of_noService _ hservice]
          exact ih htail

theorem serviceBehind_block
    {front between : List Declaration} {name : String} {decls : List RpcDecl}
    (hmute : ∀ d ∈ between, d.Mute) :
    serviceBehind none (front ++ .service name decls :: between) =
      some name := by
  rw [serviceBehind_append, serviceBehind]
  exact serviceBehind_of_mute _ hmute

theorem noStrayRpc_block
    {front between : List Declaration} {name : String} {decls : List RpcDecl}
    (hfront : NoStrayRpc front) (hmute : ∀ d ∈ between, d.Mute) :
    NoStrayRpc (front ++ .service name decls :: between) := by
  intro tokens hmem
  rcases List.mem_append.mp hmem with hmem | hmem
  · exact hfront tokens hmem
  · rcases List.mem_cons.mp hmem with heq | hmem
    · cases heq
    · intro hrpc
      exact (hmute _ hmem "rpc" hrpc).2 rfl

theorem readTokens_oneBlockHeard
    {file : List Declaration} (hlegal : ∀ d ∈ file, d.Legal)
    (hheard : OneBlockHeard file) :
    ∃ r name decls, .service name decls ∈ file ∧
      Reader.start.readTokens (file.flatMap Declaration.tokens) = .ok r ∧
      r.serviceName = some name ∧
      r.rpc.map ProtoRpc.signature = declared decls := by
  obtain ⟨front, name, decls, between, rest, hheard⟩ := hheard
  have hfile : file =
      (front ++ .service name decls :: between) ++ rest := by
    simpa using hheard.split
  have hheardLegal :
      ∀ d ∈ front ++ .service name decls :: between, d.Legal := by
    intro d hd
    exact hlegal d (by rw [hfile]; exact List.mem_append_left rest hd)
  obtain ⟨middle, hfirst, hmiddle⟩ := readTokens_heard atRest_start
    hheardLegal (noStrayRpc_block hheard.noStrayRpc hheard.mute)
  rw [serviceBehind_block hheard.mute, List.nil_append] at hmiddle
  obtain ⟨after, hlast, hservice, hrpcs⟩ :=
    readTokens_unheard hmiddle hheard.unheard
  obtain ⟨before, blockDecls, behind, hblock, hping⟩ := hheard.onlyBlock
  refine ⟨after, name, blockDecls, ?_, ?_, hservice, ?_⟩
  · have hmem : Declaration.service name blockDecls ∈
        front ++ [.service name decls] := by
      rw [hblock]
      simp
    rw [hheard.split]
    rcases List.mem_append.mp hmem with hmem | hmem
    · exact List.mem_append_left _ hmem
    · rw [List.mem_singleton.mp hmem]
      simp
  · rw [hfile, List.flatMap_append,
      Reader.readTokens_append_of_ok hfirst, hlast]
  · have hmutes : fileRpcs (front ++ .service name decls :: between) =
        fileRpcs (front ++ [.service name decls]) := by
      have hcons : front ++ .service name decls :: between =
          (front ++ [.service name decls]) ++ between := by simp
      rw [hcons, fileRpcs_append, fileRpcs_of_mute hheard.mute,
        List.append_nil]
    rw [hrpcs, hmutes, hblock]
    exact (declared_fileRpcs_iff before behind name blockDecls).mpr hping

end Blocks

section Converse

/-- The two words, `Ping`, and all names of blocks and rpcs. -/
def takenNames (file : List Declaration) : List String :=
  ["service", "rpc", "Ping"] ++ file.flatMap Declaration.names

/-- A stray word is followed by a token that names nothing in the file, as
the `=` behind the name of a field. -/
def StrayWordsNameNothing (file : List Declaration) : Prop :=
  ∀ tokens, .other tokens ∈ file →
    ∀ word next, [word, next] <:+: tokens → ¬ Quiet word →
      next ∉ takenNames file

theorem not_quiet_service : ¬ Quiet "service" := by
  decide

theorem not_quiet_rpc : ¬ Quiet "rpc" := by
  decide

variable {file heard rest : List Declaration}

theorem mem_takenNames_of_block
    {name : String} {decls : List RpcDecl}
    (hblock : .service name decls ∈ file) : name ∈ takenNames file := by
  apply List.mem_append_right
  rw [List.mem_flatMap]
  exact ⟨_, hblock, by simp [Declaration.names]⟩

theorem mem_takenNames_of_rpc
    {name : String} {decls : List RpcDecl} {d : RpcDecl}
    (hblock : .service name decls ∈ file) (hd : d ∈ decls) :
    d.name ∈ takenNames file := by
  apply List.mem_append_right
  rw [List.mem_flatMap]
  exact ⟨_, hblock, by
    simpa [Declaration.names] using .inr ⟨d, hd, rfl⟩⟩

/-- Where the service name comes from. -/
theorem serviceBehind_cases
    (taken : List String) (hlegal : ∀ d ∈ heard, d.Legal)
    (hstray : NoStrayRpc heard)
    (hnothing : ∀ tokens, .other tokens ∈ heard →
      ∀ next, ["service", next] <:+: tokens → next ∉ taken) :
    serviceBehind none heard = none ∨
      (∃ next, next ∉ taken ∧ serviceBehind none heard = some next) ∨
      ∃ front name decls between,
        heard = front ++ .service name decls :: between ∧
        (∀ d ∈ between, d.Mute) ∧
        serviceBehind none heard = some name := by
  induction heard using List.reverseRecOn with
  | nil => exact .inl rfl
  | append_singleton heard decl ih =>
      cases decl with
      | service name decls =>
          refine .inr (.inr ⟨heard, name, decls, [], rfl, by simp, ?_⟩)
          rw [serviceBehind_append]
          rfl
      | other tokens =>
          have hcomplete : Complete tokens :=
            hlegal (.other tokens) (by simp)
          have hbehind : serviceBehind none (heard ++ [.other tokens]) =
              lastService (serviceBehind none heard) tokens := by
            rw [serviceBehind_append]
            rfl
          rw [hbehind]
          rcases lastService_cases (serviceBehind none heard) hcomplete with
            ⟨hnone, hlast⟩ | ⟨next, hadjacent, hlast⟩
          · have hmute : Declaration.Mute (.other tokens) := by
              intro token htoken
              constructor
              · rintro rfl
                exact hnone htoken
              · rintro rfl
                exact hstray tokens (by simp) htoken
            rw [hlast]
            have hearlier := ih
              (fun d hd => hlegal d (List.mem_append_left _ hd))
              (fun tokens hmem => hstray tokens (List.mem_append_left _ hmem))
              (fun tokens hmem =>
                hnothing tokens (List.mem_append_left _ hmem))
            rcases hearlier with hempty | hother |
              ⟨front, name, decls, between, hsplit, hbetween, hname⟩
            · exact .inl hempty
            · exact .inr (.inl hother)
            · refine .inr (.inr ⟨front, name, decls,
                between ++ [.other tokens], by simp [hsplit], ?_, hname⟩)
              intro d hd
              rcases List.mem_append.mp hd with hd | hd
              · exact hbetween d hd
              · rw [List.mem_singleton.mp hd]
                exact hmute
          · rw [hlast]
            exact .inr (.inl ⟨next,
              hnothing tokens (by simp) next hadjacent, rfl⟩)

theorem exists_first_stray (file : List Declaration) :
    ∃ heard rest, file = heard ++ rest ∧ NoStrayRpc heard ∧
      (rest = [] ∨
        ∃ tokens more, rest = .other tokens :: more ∧ "rpc" ∈ tokens) := by
  by_cases hstray :
      ∀ d ∈ file, ∀ tokens, d = .other tokens → "rpc" ∉ tokens
  · refine ⟨file, [], by simp, ?_, .inl rfl⟩
    intro tokens hmem
    exact hstray _ hmem tokens rfl
  · obtain ⟨heard, decl, more, rfl, hheard, hdecl⟩ :=
      exists_first_not (fun d : Declaration =>
        ∀ tokens, d = .other tokens → "rpc" ∉ tokens) hstray
    cases decl with
    | service name decls => simp at hdecl
    | other tokens =>
        have hrpc : "rpc" ∈ tokens := by simpa using hdecl
        refine ⟨heard, _, rfl, ?_, .inr ⟨tokens, more, rfl, hrpc⟩⟩
        intro other hmem
        exact hheard _ hmem other rfl

theorem closes_rpc (d : RpcDecl) : Closes d.tokens := by
  have hclose : [")"].Sublist d.head :=
    List.singleton_sublist.mpr (by simp [RpcDecl.head])
  exact hclose.append (List.Sublist.refl [";"])

theorem decls_eq_nil_of_unheard
    (hunheard : Unheard rest)
    {name : String} {decls : List RpcDecl}
    (hblock : .service name decls ∈ rest) : decls = [] := by
  rcases hunheard with rfl | ⟨front, word, back, more, rfl, _, hopen⟩
  · simp at hblock
  · have hmore : .service name decls ∈ more := by
      rcases List.mem_cons.mp hblock with heq | hmore
      · cases heq
      · exact hmore
    cases decls with
    | nil => rfl
    | cons d decls =>
        have hrpc : d.tokens.Sublist (serviceTokens name (d :: decls)) := by
          unfold serviceTokens
          rw [List.flatMap_cons]
          refine List.Sublist.trans ?_ (List.sublist_append_left _ _)
          refine List.Sublist.trans ?_ (List.sublist_append_right _ _)
          exact List.sublist_append_left _ _
        have hall : (serviceTokens name (d :: decls)).Sublist
            (more.flatMap Declaration.tokens) := by
          rw [List.flatMap_def]
          exact List.sublist_flatten_of_mem
            (List.mem_map_of_mem (f := Declaration.tokens) hmore)
        exact absurd (((closes_rpc d).trans hrpc).trans
          (hall.trans (List.sublist_append_right back _))) hopen

theorem onlyBlock_of_declared
    {front between : List Declaration} {name : String}
    {decls blockDecls : List RpcDecl}
    (hbetween : ∀ d ∈ between, d.Mute) (hunheard : Unheard rest)
    (hblock : .service name blockDecls ∈
      front ++ .service name decls :: (between ++ rest))
    (hdeclared : declared (fileRpcs (front ++ [.service name decls])) =
      declared blockDecls) :
    OnlyBlock name (front ++ [.service name decls]) := by
  by_cases hheard : .service name blockDecls ∈ front ++ [.service name decls]
  · obtain ⟨before, behind, hsplit⟩ := List.append_of_mem hheard
    rw [hsplit] at hdeclared
    exact ⟨before, blockDecls, behind, hsplit,
      (declared_fileRpcs_iff before behind name blockDecls).mp hdeclared⟩
  · have hrest : .service name blockDecls ∈ rest := by
      have hcons : front ++ .service name decls :: (between ++ rest) =
          (front ++ [.service name decls]) ++ (between ++ rest) := by simp
      rw [hcons] at hblock
      rcases List.mem_append.mp hblock with hblock | hblock
      · exact absurd hblock hheard
      · rcases List.mem_append.mp hblock with hblock | hblock
        · exact (hbetween _ hblock).elim
        · exact hblock
    rw [decls_eq_nil_of_unheard hunheard hrest, declared_nil,
      fileRpcs_append, declared_append, List.append_eq_nil_iff] at hdeclared
    refine ⟨front, decls, [], rfl, ?_⟩
    rw [List.append_nil]
    exact declared_eq_nil_iff.mp hdeclared.1

theorem oneBlockHeard_of_declared
    (hfile : file = heard ++ rest) (hlegal : ∀ d ∈ file, d.Legal)
    (hstray : NoStrayRpc heard) (hnothing : StrayWordsNameNothing file)
    (hunheard : Unheard rest)
    {name : String} {decls : List RpcDecl}
    (hblock : .service name decls ∈ file)
    (hname : serviceBehind none heard = some name)
    (hdeclared : declared (fileRpcs heard) = declared decls) :
    OneBlockHeard file := by
  have hheard : ∀ d ∈ heard, d ∈ file := by
    intro d hd
    rw [hfile]
    exact List.mem_append_left rest hd
  have hcases := serviceBehind_cases (takenNames file)
    (fun d hd => hlegal d (hheard d hd)) hstray
    (fun tokens hmem next hadjacent =>
      hnothing tokens (hheard _ hmem) "service" next hadjacent
        not_quiet_service)
  rw [hname] at hcases
  rcases hcases with hnone | ⟨next, hnext, heq⟩ |
    ⟨front, last, lastDecls, between, rfl, hbetween, heq⟩
  · cases hnone
  · cases heq
    exact absurd (mem_takenNames_of_block hblock) hnext
  · cases heq
    have hsplit : file =
        front ++ .service name lastDecls :: (between ++ rest) := by
      simpa using hfile
    have hmutes : fileRpcs (front ++ .service name lastDecls :: between) =
        fileRpcs (front ++ [.service name lastDecls]) := by
      have hcons : front ++ .service name lastDecls :: between =
          (front ++ [.service name lastDecls]) ++ between := by simp
      rw [hcons, fileRpcs_append, fileRpcs_of_mute hbetween, List.append_nil]
    rw [hmutes] at hdeclared
    refine ⟨front, name, lastDecls, between, rest, hsplit, ?_, hbetween,
      hunheard, ?_⟩
    · intro tokens hmem
      exact hstray tokens (List.mem_append_left _ hmem)
    · rw [hsplit] at hblock
      exact onlyBlock_of_declared hbetween hunheard hblock hdeclared

/-- A stray `rpc` that is read at rest, if nothing of that name is stored. -/
theorem unheard_of_absent
    {tokens : List String} {more : List Declaration}
    {middle r : Reader} {serviceName : Option String} {rpcs : List Signature}
    (hrest : middle.AtRest serviceName rpcs)
    (hcomplete : Complete tokens) (hrpc : "rpc" ∈ tokens)
    {taken : List String} (hwords : "rpc" ∈ taken) (hping : "Ping" ∈ taken)
    (hnothing : ∀ word next, [word, next] <:+: tokens → ¬ Quiet word →
      next ∉ taken)
    (hread : middle.readTokens
      ((Declaration.other tokens :: more).flatMap Declaration.tokens) = .ok r)
    (hrpcs : ∀ rpc ∈ r.rpc, rpc.name ∈ taken)
    (hservice : ∀ name ∈ r.serviceName, name ∈ taken) :
    Unheard (.other tokens :: more) ∧ r.serviceName = serviceName ∧
      r.rpc.map ProtoRpc.signature = rpcs := by
  obtain ⟨front, tail, rfl, hfront⟩ := List.eq_append_cons_of_mem hrpc
  cases tail with
  | nil => exact absurd (hcomplete "rpc" (by simp)) not_quiet_rpc
  | cons word back =>
      have hword : word ∉ taken :=
        hnothing "rpc" word ⟨front, back, by simp⟩ not_quiet_rpc
      have hfrontComplete : Complete front := by
        intro token htoken
        obtain ⟨init, rfl⟩ := List.getLast?_eq_some_iff.mp htoken
        constructor
        · rintro rfl
          exact hnothing "service" "rpc" ⟨init, word :: back, by simp⟩
            not_quiet_service hwords
        · rintro rfl
          exact hfront (by simp)
      obtain ⟨second, hsecond, hsecondRest⟩ :=
        readTokens_noRpc hrest hfront hfrontComplete
      obtain ⟨third, hthird, hbegun⟩ :=
        readTokens_begin hsecondRest.currentToken word
      have hsplit : (Declaration.other (front ++ "rpc" :: word :: back) ::
          more).flatMap Declaration.tokens =
          front ++ (["rpc", word] ++
            (back ++ more.flatMap Declaration.tokens)) := by
        simp [Declaration.tokens]
      rw [hsplit, Reader.readTokens_append_of_ok hsecond,
        Reader.readTokens_append_of_ok hthird] at hread
      have hne : word ≠ "Ping" := by
        rintro rfl
        exact hword hping
      have habsent : ∀ rpc ∈ r.rpc, rpc.name ≠ word := by
        rintro rpc hmem rfl
        exact hword (hrpcs rpc hmem)
      obtain ⟨hopen, hname, hsame⟩ :=
        not_closes_of_absent hbegun hne hread habsent
      rw [hsecondRest.serviceName] at hname
      rcases lastService_cases serviceName hfrontComplete with
        ⟨hnone, hlast⟩ | ⟨next, hadjacent, hlast⟩
      · refine ⟨.inr ⟨front, word, back, more, rfl, ?_, hopen⟩,
          hname.trans hlast, ?_⟩
        · intro token htoken
          constructor
          · rintro rfl
            exact hnone htoken
          · rintro rfl
            exact hfront htoken
        · rw [hsame]
          exact hsecondRest.rpcs
      · have hnext : next ∉ taken :=
          hnothing "service" next
            (hadjacent.trans ⟨[], "rpc" :: word :: back, by simp⟩)
            not_quiet_service
        exact absurd (hservice next (hname.trans hlast)) hnext

theorem oneBlockHeard_of_read
    (hlegal : ∀ d ∈ file, d.Legal) (hnothing : StrayWordsNameNothing file)
    {r : Reader}
    (hread : Reader.start.readTokens (file.flatMap Declaration.tokens) =
      .ok r)
    {name : String} {decls : List RpcDecl}
    (hblock : .service name decls ∈ file)
    (hname : r.serviceName = some name)
    (hrpcs : r.rpc.map ProtoRpc.signature = declared decls) :
    OneBlockHeard file := by
  obtain ⟨heard, rest, hfile, hstray, hrest⟩ := exists_first_stray file
  have hheard : ∀ d ∈ heard, d.Legal := by
    intro d hd
    exact hlegal d (by rw [hfile]; exact List.mem_append_left rest hd)
  obtain ⟨middle, hfirst, hmiddle⟩ :=
    readTokens_heard atRest_start hheard hstray
  rw [List.nil_append] at hmiddle
  rw [hfile, List.flatMap_append, Reader.readTokens_append_of_ok hfirst]
    at hread
  rcases hrest with rfl | ⟨tokens, more, rfl, hrpc⟩
  · cases hread
    exact oneBlockHeard_of_declared hfile hlegal hstray hnothing (.inl rfl)
      hblock (hmiddle.serviceName.symm.trans hname)
      (hmiddle.rpcs.symm.trans hrpcs)
  · have hmem : .other tokens ∈ file := by simp [hfile]
    have htaken : ∀ rpc ∈ r.rpc, rpc.name ∈ takenNames file := by
      intro rpc hmemRpc
      have hsignature : rpc.signature ∈ declared decls := by
        rw [← hrpcs]
        exact List.mem_map_of_mem hmemRpc
      obtain ⟨d, hd, heq⟩ := List.mem_map.mp hsignature
      have hnames : d.name = rpc.name := congrArg Prod.fst heq
      rw [← hnames]
      exact mem_takenNames_of_rpc hblock (List.mem_filter.mp hd).1
    have hservice : ∀ other ∈ r.serviceName, other ∈ takenNames file := by
      intro other hother
      rw [hname] at hother
      cases hother
      exact mem_takenNames_of_block hblock
    obtain ⟨hunheard, hsameName, hsameRpcs⟩ :=
      unheard_of_absent hmiddle (hlegal _ hmem) hrpc
        (by simp [takenNames]) (by simp [takenNames])
        (hnothing tokens hmem) hread htaken hservice
    exact oneBlockHeard_of_declared hfile hlegal hstray hnothing hunheard
      hblock (hsameName.symm.trans hname) (hsameRpcs.symm.trans hrpcs)

end Converse

/-- The other declarations hold any tokens.  The converse is about files in
which no stray word stands before the name of a block or of an rpc. -/
theorem decidedByBlock_of_rendersFile
    {file : List Declaration} {text : List Char}
    (hlegal : ∀ d ∈ file, d.Legal)
    (htext : RendersFile (file.flatMap Declaration.tokens) text)
    (fileName : String) :
    (OneBlockHeard file →
      DecidedByBlock (readProtoFile fileName (.ok (asBytes text))) file) ∧
    (StrayWordsNameNothing file →
      DecidedByBlock (readProtoFile fileName (.ok (asBytes text))) file →
      OneBlockHeard file) := by
  constructor
  · intro hheard
    obtain ⟨r, name, decls, hblock, hread, hname, hrpcs⟩ :=
      readTokens_oneBlockHeard hlegal hheard
    refine ⟨name, decls, hblock, ?_⟩
    rw [readProtoFile_of_tokens htext hread]
    exact describes_finish hname hrpcs fileName
  · rintro hnothing ⟨name, decls, hblock, description, hfile, hname, hrpcs⟩
    obtain ⟨r, hread, hfinish⟩ := readTokens_of_readProtoFile htext hfile
    obtain ⟨hservice, hstored⟩ := finish_eq_ok hfinish
    rw [hname] at hservice
    rw [← hstored] at hrpcs
    exact oneBlockHeard_of_read hlegal hnothing hread hblock hservice hrpcs

def getDecl : RpcDecl :=
  ⟨"Get", ⟨false, "Req"⟩, ⟨true, "Resp"⟩⟩

/-- A message with one field. -/
def messageTokens (name field : String) : List String :=
  ["message", name, openBrace, "string", field, "=", "1", ";", closeBrace]

/-- A field `service` before the block and a field `rpc` behind it do no
harm. -/
def harmlessFile : List Declaration :=
  [.other (messageTokens "Req" "service"), .service "Files" [getDecl],
    .other (messageTokens "Resp" "rpc")]

def harmlessText : List Char :=
  "message Req { string service = 1; }
service Files { rpc Get(Req) returns (stream Resp); }
message Resp { string rpc = 1; }".toList

theorem harmlessFile_decidedByBlock :
    DecidedByBlock
      (readProtoFile "files.proto" (.ok (asBytes harmlessText)))
      harmlessFile := by
  have htext : RendersFile (harmlessFile.flatMap Declaration.tokens)
      harmlessText :=
    rendersFile_iff.mpr (by decide +kernel)
  have hstray : NoStrayRpc [.other (messageTokens "Req" "service")] := by
    intro tokens hmem
    cases List.mem_singleton.mp hmem
    decide
  have hunheard : Unheard [.other (messageTokens "Resp" "rpc")] :=
    .inr ⟨["message", "Resp", openBrace, "string"], "=",
      ["1", ";", closeBrace], [], rfl, by decide, by decide⟩
  have honly : OnlyBlock "Files"
      [.other (messageTokens "Req" "service"), .service "Files" [getDecl]] :=
    ⟨[.other (messageTokens "Req" "service")], [getDecl], [], rfl,
      by decide⟩
  have hheard : OneBlockHeard harmlessFile :=
    ⟨[.other (messageTokens "Req" "service")], "Files", [getDecl], [],
      [.other (messageTokens "Resp" "rpc")], rfl, hstray, by simp, hunheard,
      honly⟩
  exact (decidedByBlock_of_rendersFile (by decide) htext
    "files.proto").1 hheard

/-- The same field behind the block takes the place of the service name. -/
def misledFile : List Declaration :=
  [.service "Files" [getDecl], .other (messageTokens "Req" "service")]

def misledText : List Char :=
  "service Files { rpc Get(Req) returns (stream Resp); }
message Req { string service = 1; }".toList

theorem misledFile_not_decidedByBlock :
    (∀ d ∈ misledFile, d.Legal) ∧
      RendersFile (misledFile.flatMap Declaration.tokens) misledText ∧
      readProtoFile "files.proto" (.ok (asBytes misledText)) =
        .ok ⟨"=", [⟨"Get", "Req", "stream Resp"⟩]⟩ ∧
      ¬ DecidedByBlock
        (readProtoFile "files.proto" (.ok (asBytes misledText)))
        misledFile := by
  have htext : RendersFile (misledFile.flatMap Declaration.tokens)
      misledText :=
    rendersFile_iff.mpr (by decide +kernel)
  have hread : readProtoFile "files.proto" (.ok (asBytes misledText)) =
      .ok ⟨"=", [⟨"Get", "Req", "stream Resp"⟩]⟩ := by
    rw [readProtoFile_asBytes]
    rfl
  refine ⟨by decide, htext, hread, ?_⟩
  rw [hread]
  rintro ⟨name, decls, hblock, description, hdescription, hname, _⟩
  cases hdescription
  simp [misledFile, ← hname] at hblock

end ProtoFileReader
end GrpcExtensions
