import GrpcExtensions.PingLoop
import Mathlib.Data.List.TakeWhile

/-!
# The path of a unix socket

`create_unix_socket_channel` puts the configured path behind an authority,
parses the whole as a url and connects to the path component of what it gets
back.  A character that ends a component of a url cuts the path there, and a
leading `~` becomes a part of the authority.
-/

namespace GrpcExtensions
namespace UnixSocketPath

open PingLoop (Env GrpcConnectUrl startsWith)
open PortForwardsPool (Panic)

variable {Credentials Endpoint : Type}

section Components

def EndsAuthority (c : Char) : Bool :=
  c == '/' || c == '?' || c == '#'

def EndsPath (c : Char) : Bool :=
  c == '?' || c == '#'

/-- The path component of what stands behind the scheme. -/
def pathComponent (text : List Char) : List Char :=
  (text.dropWhile fun c => !EndsAuthority c).takeWhile fun c => !EndsPath c

end Components

/-- The parser of urls, with its law for a url that has a path. -/
structure UriParser where
  Uri : Type
  fromStr : String → Except String Uri
  path : Uri → String
  path_eq : ∀ (text : String) (uri : Uri),
    fromStr ("http://" ++ text) = .ok uri → pathComponent text.toList ≠ [] →
      (path uri).toList = pathComponent text.toList

section Source

variable (parser : UriParser) (env : Env Credentials Endpoint)

/-- The path that `create_unix_socket_channel` hands to
`UnixStream::connect`. -/
def connectPath (unixSocketPath : String) : Except Panic String :=
  match parser.fromStr ("http://unix.socket" ++ unixSocketPath) with
  | .error _ =>
      .error (.message ("Failed to create unix socket uri with path:" ++
        unixSocketPath ++ " for service " ++ env.serviceName))
  | .ok uri => .ok (parser.path uri)

/-- The path that a client configured with this url connects to, if the url
is that of a unix socket. -/
def socketPath (url : String) : Option (Except Panic String) :=
  let connectUrl := GrpcConnectUrl.ofString env url
  if connectUrl.isUnixSocket then
    some (connectPath parser env (connectUrl.getGrpcHost env))
  else none

/-- The environment of a client that parses its urls by this parser. -/
def withParser : Env Credentials Endpoint :=
  { env with uriFromStr := fun text => (parser.fromStr text).map fun _ => () }

end Source

theorem createUnixSocketChannel_eq
    (parser : UriParser) (env : Env Credentials Endpoint)
    (unixSocketPath : String) (outcome : GrpcChannel.ConnectOutcome) :
    PingLoop.createUnixSocketChannel (withParser parser env) unixSocketPath
        outcome =
      (connectPath parser env unixSocketPath).map fun _ => outcome := by
  unfold PingLoop.createUnixSocketChannel connectPath withParser
  dsimp only
  cases parser.fromStr ("http://unix.socket" ++ unixSocketPath) <;> rfl

/-- A leading `~` stands for the home directory. -/
def configuredPath (home url : String) : String :=
  if startsWith url "~" then home ++ String.ofList url.toList.tail else url

/-- The components of a url leave this path in one piece. -/
def Plain (url : String) : Prop :=
  '?' ∉ url.toList ∧ '#' ∉ url.toList

section Paths

theorem takeWhile_endsPath_eq_iff (text : List Char) :
    (text.takeWhile fun c => !EndsPath c) = text ↔
      '?' ∉ text ∧ '#' ∉ text := by
  rw [List.takeWhile_eq_self_iff]
  constructor
  · intro hall
    constructor
    · intro hmem
      have hends := hall '?' hmem
      contradiction
    · intro hmem
      have hends := hall '#' hmem
      contradiction
  · intro hplain c hc
    have hquery : c ≠ '?' := fun heq => hplain.1 (heq ▸ hc)
    have hfragment : c ≠ '#' := fun heq => hplain.2 (heq ▸ hc)
    simp [EndsPath, hquery, hfragment]

theorem startsWith_iff (text start : String) :
    startsWith text start = true ↔
      ∃ rest, text.toList = start.toList ++ rest := by
  rw [startsWith, List.isPrefixOf_iff_prefix]
  constructor
  · intro ⟨rest, hrest⟩
    exact ⟨rest, hrest.symm⟩
  · intro ⟨rest, hrest⟩
    exact ⟨rest, hrest.symm⟩

theorem isUnixSocket_iff (env : Env Credentials Endpoint) (url : String) :
    (GrpcConnectUrl.ofString env url).isUnixSocket = true ↔
      (∃ rest, url.toList = '/' :: rest) ∨
        ∃ rest, url.toList = '~' :: '/' :: rest := by
  have hofString : (GrpcConnectUrl.ofString env url).isUnixSocket =
      (startsWith url "/" || startsWith url "~/") := by
    unfold GrpcConnectUrl.ofString
    split
    · next hstarts => rw [hstarts]; rfl
    · next hstarts => rw [Bool.eq_false_iff.mpr hstarts]; rfl
  rw [hofString, Bool.or_eq_true, startsWith_iff, startsWith_iff]
  rfl

theorem getGrpcHost_of_isUnixSocket
    {env : Env Credentials Endpoint} {url : String}
    (hsocket : (GrpcConnectUrl.ofString env url).isUnixSocket = true) :
    (GrpcConnectUrl.ofString env url).getGrpcHost env = url := by
  unfold GrpcConnectUrl.ofString at hsocket ⊢
  split
  · rfl
  · next hstarts =>
      rw [if_neg hstarts] at hsocket
      contradiction

/-- Up to its first `?` or `#`, an accepted path is the path connected to;
a `~` in front of it is lost. -/
theorem socketPath_eq
    {parser : UriParser} {env : Env Credentials Endpoint} {url : String}
    {uri : parser.Uri} {rest : List Char}
    (hsocket : (GrpcConnectUrl.ofString env url).isUnixSocket = true)
    (haccepted : parser.fromStr ("http://unix.socket" ++ url) = .ok uri)
    (hurl : url.toList = '/' :: rest ∨ url.toList = '~' :: '/' :: rest) :
    socketPath parser env url = some (.ok (String.ofList
      ('/' :: rest.takeWhile fun c => !EndsPath c))) := by
  have hcomponent : pathComponent ("unix.socket" ++ url).toList =
      '/' :: rest.takeWhile fun c => !EndsPath c := by
    rw [String.toList_append]
    cases hurl with
    | inl habsolute => rw [habsolute]; rfl
    | inr htilde => rw [htilde]; rfl
  have haccepted' :
      parser.fromStr ("http://" ++ ("unix.socket" ++ url)) = .ok uri := by
    rw [← String.append_assoc]
    exact haccepted
  have hpath := parser.path_eq _ uri haccepted' (by
    rw [hcomponent]
    exact List.cons_ne_nil _ _)
  rw [hcomponent] at hpath
  rw [socketPath, if_pos hsocket, getGrpcHost_of_isUnixSocket hsocket,
    connectPath, haccepted, ← hpath, String.ofList_toList]

end Paths

/-- A unix socket is connected to as configured if and only if its url has no
`?` and no `#`, and starts with `/` unless the home directory is empty. -/
theorem socketPath_configured_iff
    {parser : UriParser} {env : Env Credentials Endpoint} (home : String)
    {url : String}
    (hsocket : (GrpcConnectUrl.ofString env url).isUnixSocket = true)
    (haccepted : ∃ uri, parser.fromStr ("http://unix.socket" ++ url) =
      .ok uri) :
    socketPath parser env url = some (.ok (configuredPath home url)) ↔
      Plain url ∧ (startsWith url "/" = true ∨ home = "") := by
  rcases haccepted with ⟨uri, haccepted⟩
  cases (isUnixSocket_iff env url).mp hsocket with
  | inl habsolute =>
      rcases habsolute with ⟨rest, hurl⟩
      have hconfigured : (configuredPath home url).toList = '/' :: rest := by
        simp [configuredPath, startsWith, hurl]
      have hstarts : startsWith url "/" = true := by
        simp [startsWith, hurl]
      rw [socketPath_eq hsocket haccepted (Or.inl hurl), Option.some.injEq,
        Except.ok.injEq, ← String.toList_inj, String.toList_ofList,
        hconfigured, List.cons.injEq, takeWhile_endsPath_eq_iff, Plain, hurl]
      simp [hstarts]
  | inr htilde =>
      rcases htilde with ⟨rest, hurl⟩
      have hconfigured : (configuredPath home url).toList =
          home.toList ++ '/' :: rest := by
        simp [configuredPath, startsWith, hurl]
      have hstarts : startsWith url "/" = false := by
        rw [startsWith, hurl]
        rfl
      rw [socketPath_eq hsocket haccepted (Or.inr hurl), Option.some.injEq,
        Except.ok.injEq, ← String.toList_inj, String.toList_ofList,
        hconfigured, hstarts]
      constructor
      · intro heq
        -- a cut path is shorter than the configured one
        have hlength := congrArg List.length heq
        have hcut := (List.takeWhile_prefix (l := rest)
          fun c => !EndsPath c).length_le
        simp only [List.length_append, List.length_cons] at hlength
        have hhome : home.toList = [] := by
          apply List.length_eq_zero_iff.mp
          omega
        rw [hhome, List.nil_append, List.cons.injEq,
          takeWhile_endsPath_eq_iff] at heq
        refine ⟨?_, Or.inr ?_⟩
        · simpa [Plain, hurl] using heq.2
        · exact String.toList_inj.mp hhome
      · intro ⟨hplain, hhome⟩
        have hempty : home = "" := by simpa using hhome
        have hrest : '?' ∉ rest ∧ '#' ∉ rest := by
          simpa [Plain, hurl] using hplain
        rw [hempty, (takeWhile_endsPath_eq_iff rest).mpr hrest]
        rfl

/-- A parser that takes every text of printable ASCII characters behind the
scheme. -/
def printableUri : UriParser where
  Uri := String
  fromStr text :=
    if text.toList.all fun c => 33 ≤ c.toNat && c.toNat < 127 then .ok text
    else .error "invalid uri character"
  path uri := String.ofList (pathComponent (uri.toList.drop 7))
  path_eq text uri haccepted _ := by
    split at haccepted
    · cases haccepted
      simp
    · contradiction

theorem socketPath_configured_iff_plain :
    socketPath printableUri PingLoop.overSshEnv "/tmp/test.sock" =
        some (.ok (configuredPath "/root" "/tmp/test.sock")) ↔
      Plain "/tmp/test.sock" ∧
        (startsWith "/tmp/test.sock" "/" = true ∨ "/root" = "") :=
  socketPath_configured_iff "/root" rfl ⟨_, rfl⟩

/-- A socket in the home directory is looked for in the root directory, and a
`?` ends the path. -/
theorem tilde_and_query_are_lost :
    (socketPath printableUri PingLoop.overSshEnv "~/my.sock" =
        some (.ok "/my.sock") ∧
      socketPath printableUri PingLoop.overSshEnv "~/my.sock" ≠
        some (.ok (configuredPath "/root" "~/my.sock"))) ∧
    socketPath printableUri PingLoop.overSshEnv "/run/a?b.sock" =
        some (.ok "/run/a") ∧
      socketPath printableUri PingLoop.overSshEnv "/run/a?b.sock" ≠
        some (.ok (configuredPath "/root" "/run/a?b.sock")) := by
  have htilde : socketPath printableUri PingLoop.overSshEnv "~/my.sock" =
      some (.ok "/my.sock") := rfl
  have hquery : socketPath printableUri PingLoop.overSshEnv "/run/a?b.sock" =
      some (.ok "/run/a") := rfl
  refine ⟨⟨htilde, ?_⟩, hquery, ?_⟩
  · rw [htilde]
    intro heq
    have hpath := Except.ok.inj (Option.some.inj heq)
    exact absurd hpath (by decide)
  · rw [hquery]
    intro heq
    have hpath := Except.ok.inj (Option.some.inj heq)
    exact absurd hpath (by decide)

end UnixSocketPath
end GrpcExtensions
