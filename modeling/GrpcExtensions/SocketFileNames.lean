import GrpcExtensions.PortForwardsPool
import GrpcExtensions.DecimalNumbers

/-!
# Telling SSH targets apart by their socket files

The name of a socket file joins a user, a host, a port and the remote host by
`-`, `_` and `--`, and user and host names have these characters too.  A file
name can be read back for one target exactly if none of its names can be cut
at a separator.
-/

namespace GrpcExtensions
namespace SocketFileNames

open PortForwardsPool (Call Names State socketOf step)

universe u

section Splits

variable {α : Type u} {x : α} {front back otherFront otherBack : List α}

/-- Of two splits at one separator, one comes first. -/
theorem append_cons_cases
    (heq : front ++ x :: back = otherFront ++ x :: otherBack) :
    (front = otherFront ∧ back = otherBack) ∨
      (∃ mid, otherFront = front ++ x :: mid ∧
        back = mid ++ x :: otherBack) ∨
      ∃ mid, front = otherFront ++ x :: mid ∧
        otherBack = mid ++ x :: back := by
  rcases List.append_eq_append_iff.mp heq with
      ⟨mid, hfront, hback⟩ | ⟨mid, hfront, hback⟩
  · cases mid with
    | nil =>
        cases hback
        exact Or.inl ⟨by rw [hfront, List.append_nil], rfl⟩
    | cons y mid =>
        cases hback
        exact Or.inr (Or.inl ⟨mid, hfront, rfl⟩)
  · cases mid with
    | nil =>
        cases hback
        exact Or.inl ⟨by rw [hfront, List.append_nil], rfl⟩
    | cons y mid =>
        cases hback
        exact Or.inr (Or.inr ⟨mid, hfront, rfl⟩)

theorem split_at_last
    (hback : x ∉ back) (hother : x ∉ otherBack)
    (heq : front ++ x :: back = otherFront ++ x :: otherBack) :
    front = otherFront ∧ back = otherBack := by
  rcases append_cons_cases heq with hsame | ⟨mid, _, rfl⟩ | ⟨mid, _, rfl⟩
  · exact hsame
  · simp at hback
  · simp at hother

theorem split_at_first
    (hfront : x ∉ front) (hother : x ∉ otherFront)
    (heq : front ++ x :: back = otherFront ++ x :: otherBack) :
    front = otherFront ∧ back = otherBack := by
  rcases append_cons_cases heq with hsame | ⟨mid, rfl, _⟩ | ⟨mid, rfl, _⟩
  · exact hsame
  · simp at hother
  · simp at hfront

/-- The only split that leaves something on both sides. -/
theorem split_unique
    (hfront : x ∉ front.tail) (hback : x ∉ back.dropLast)
    (hotherFront : otherFront ≠ []) (hotherBack : otherBack ≠ [])
    (heq : front ++ x :: back = otherFront ++ x :: otherBack) :
    front = otherFront ∧ back = otherBack := by
  rcases append_cons_cases heq with hsame | ⟨mid, _, rfl⟩ | ⟨mid, rfl, _⟩
  · exact hsame
  · rw [List.dropLast_append_of_ne_nil (by simp),
      List.dropLast_cons_of_ne_nil hotherBack] at hback
    simp at hback
  · rw [List.tail_append_of_ne_nil hotherFront] at hfront
    simp at hfront

end Splits

section Targets

def NameChar (c : Char) : Prop :=
  c.isAlphanum = true ∨ c = '-' ∨ c = '_' ∨ c = '.'

instance (c : Char) : Decidable (NameChar c) :=
  inferInstanceAs (Decidable (_ ∨ _))

/-- A user name or a host name. -/
structure Name where
  chars : List Char
  nonempty : chars ≠ []
  legal : ∀ c ∈ chars, NameChar c

def Name.ofText (text : String) (hnonempty : text.toList ≠ [])
    (hlegal : (text.toList.all fun c => decide (NameChar c)) = true) : Name :=
  ⟨text.toList, hnonempty, by simpa using hlegal⟩

structure SshCredentials where
  userName : Name
  host : Name
  port : ℕ
  port_lt : port < 65536

structure RemoteEndpoint where
  host : Name
  port : Option ℕ
  port_lt : ∀ p ∈ port, p < 65536

abbrev Target := SshCredentials × RemoteEndpoint

theorem Name.ext {name other : Name} (hchars : name.chars = other.chars) :
    name = other := by
  cases name
  cases other
  cases hchars
  rfl

theorem target_ext
    {t other : Target} (huser : t.1.userName = other.1.userName)
    (hhost : t.1.host = other.1.host) (hport : t.1.port = other.1.port)
    (hremote : t.2.host = other.2.host)
    (hremotePort : t.2.port = other.2.port) : t = other := by
  rcases t with ⟨⟨_, _, _, _⟩, _, _, _⟩
  rcases other with ⟨⟨_, _, _, _⟩, _, _, _⟩
  cases huser
  cases hhost
  cases hport
  cases hremote
  cases hremotePort
  rfl

/-- How credentials and endpoints are displayed as a whole plays no part in
the names of sockets. -/
structure Displays where
  credentialsToString : SshCredentials → String
  asStr : RemoteEndpoint → String

def Displays.names (displays : Displays) :
    Names SshCredentials RemoteEndpoint where
  credentialsToString := displays.credentialsToString
  getHostPort c := (String.ofList c.host.chars, c.port)
  getUserName c := String.ofList c.userName.chars
  asStr := displays.asStr
  getHost e := String.ofList e.host.chars
  getPort := RemoteEndpoint.port

end Targets

section Texts

/-- The SSH port between its separators, with the remote host behind it. -/
def portAndHost (port : ℕ) (host : List Char) : List Char :=
  '_' :: (Nat.toDigits 10 port ++ '-' :: '-' :: host)

def body (t : Target) : List Char :=
  t.1.userName.chars ++
    '-' :: (t.1.host.chars ++ portAndHost t.1.port t.2.host.chars)

def portDigits : Option ℕ → List Char
  | some port => Nat.toDigits 10 port
  | none => []

theorem not_mem_toDigits {c : Char} (port : ℕ) (hc : c.isDigit = false) :
    c ∉ Nat.toDigits 10 port := by
  intro hmem
  rw [DecimalNumbers.isDigit_of_mem_toDigits hmem] at hc
  contradiction

theorem toDigits_inj {port other : ℕ}
    (heq : Nat.toDigits 10 port = Nat.toDigits 10 other) : port = other := by
  have hread := congrArg (fun text => Nat.ofDigitChars 10 text 0) heq
  simpa [Nat.ofDigitChars_toDigits] using hread

theorem not_mem_portDigits (port : Option ℕ) : '_' ∉ portDigits port := by
  cases port with
  | none => simp [portDigits]
  | some port => exact not_mem_toDigits port rfl

theorem portDigits_inj {port other : Option ℕ}
    (heq : portDigits port = portDigits other) : port = other := by
  cases port with
  | none =>
      cases other with
      | none => rfl
      | some other => exact absurd heq.symm Nat.toDigits_ne_nil
  | some port =>
      cases other with
      | none => exact absurd heq Nat.toDigits_ne_nil
      | some other => exact congrArg some (toDigits_inj heq)

theorem socketOf_eq
    (displays : Displays) (home : Option String) (t : Target) :
    socketOf displays.names home t =
      home.getD "/tmp" ++ "/grpc-" ++ String.ofList t.1.userName.chars ++
        "-" ++ String.ofList t.1.host.chars ++ "_" ++ t.1.port.repr ++ "--" ++
        String.ofList t.2.host.chars ++ "_" ++
        (t.2.port.map Nat.repr).getD "" ++ ".sock" := by
  rcases t with ⟨credentials, host, port, hport⟩
  cases home <;> cases port <;> rfl

theorem toList_socketOf
    (displays : Displays) (home : Option String) (t : Target) :
    (socketOf displays.names home t).toList =
      (home.getD "/tmp").toList ++ "/grpc-".toList ++
        (body t ++ '_' :: portDigits t.2.port) ++ ".sock".toList := by
  rw [socketOf_eq]
  cases t.2.port <;> simp [body, portAndHost, portDigits]

theorem socketOf_eq_iff
    (displays : Displays) (home : Option String) (t other : Target) :
    socketOf displays.names home t = socketOf displays.names home other ↔
      body t = body other ∧ t.2.port = other.2.port := by
  rw [← String.toList_inj, toList_socketOf, toList_socketOf,
    List.append_left_inj, List.append_right_inj]
  constructor
  · intro heq
    rcases split_at_last (not_mem_portDigits _)
      (not_mem_portDigits _) heq with ⟨hbody, hport⟩
    exact ⟨hbody, portDigits_inj hport⟩
  · rintro ⟨hbody, hport⟩
    rw [hbody, hport]

/-- A `_` behind a port lies behind the `--` too. -/
theorem portAndHost_split
    {port : ℕ} {host mid rest : List Char}
    (heq : Nat.toDigits 10 port ++ '-' :: '-' :: host = mid ++ '_' :: rest) :
    ∃ front, mid = Nat.toDigits 10 port ++ '-' :: '-' :: front ∧
      host = front ++ '_' :: rest := by
  rcases List.append_eq_append_iff.mp heq with
      ⟨tail, rfl, htail⟩ | ⟨tail, hdigits, htail⟩
  · match tail, htail with
    | [], htail => simp at htail
    | [c], htail => simp at htail
    | c :: d :: front, htail =>
        cases htail
        exact ⟨front, rfl, rfl⟩
  · have hnot := not_mem_toDigits (c := '_') port rfl
    cases tail with
    | nil => simp at htail
    | cons c tail =>
        cases htail
        rw [hdigits] at hnot
        simp at hnot

/-- Of two readings of one text, one finds the port first. -/
theorem portAndHost_cases
    {front otherFront : List Char} {port otherPort : ℕ}
    {host otherHost : List Char}
    (heq : front ++ portAndHost port host =
      otherFront ++ portAndHost otherPort otherHost) :
    (front = otherFront ∧ port = otherPort ∧ host = otherHost) ∨
      (∃ mid, otherFront = front ++ portAndHost port mid ∧
        host = mid ++ portAndHost otherPort otherHost) ∨
      ∃ mid, front = otherFront ++ portAndHost otherPort mid ∧
        otherHost = mid ++ portAndHost port host := by
  rcases append_cons_cases heq with
      ⟨hfront, hback⟩ | ⟨mid, hfront, hback⟩ | ⟨mid, hfront, hback⟩
  · rcases split_at_first (not_mem_toDigits _ rfl)
      (not_mem_toDigits _ rfl) hback with ⟨hdigits, hrest⟩
    cases hrest
    exact Or.inl ⟨hfront, toDigits_inj hdigits, rfl⟩
  · rcases portAndHost_split hback with ⟨host, rfl, hhost⟩
    exact Or.inr (Or.inl ⟨host, hfront, hhost⟩)
  · rcases portAndHost_split hback with ⟨host, rfl, hhost⟩
    exact Or.inr (Or.inr ⟨host, hfront, hhost⟩)

end Texts

section Exclusive

/-- None of the names can be cut at a separator: `-` stands in the user name
and in the host name at the outer end only, and the remote host holds no port
between its separators. -/
def Unambiguous (t : Target) : Prop :=
  '-' ∉ t.1.userName.chars.tail ∧ '-' ∉ t.1.host.chars.dropLast ∧
    ¬ ∃ front port back, port < 65536 ∧ back ≠ [] ∧
      t.2.host.chars = front ++ portAndHost port back

theorem body_inj_of_unambiguous
    {t other : Target} (hclear : Unambiguous t)
    (heq : body t = body other) :
    t.1.userName = other.1.userName ∧ t.1.host = other.1.host ∧
      t.1.port = other.1.port ∧ t.2.host = other.2.host := by
  rcases hclear with ⟨huser, hhost, hremote⟩
  rw [body, body, ← List.cons_append, ← List.cons_append,
    ← List.append_assoc, ← List.append_assoc] at heq
  rcases portAndHost_cases heq with
      ⟨hnames, hport, hremoteHost⟩ | ⟨mid, _, hmid⟩ | ⟨mid, hmid, _⟩
  · rcases split_unique huser hhost
      other.1.userName.nonempty other.1.host.nonempty hnames with
        ⟨huserName, hhostName⟩
    exact ⟨Name.ext huserName, Name.ext hhostName, hport,
      Name.ext hremoteHost⟩
  · exact absurd ⟨mid, other.1.port, other.2.host.chars, other.1.port_lt,
      other.2.host.nonempty, hmid⟩ hremote
  · -- the port would have been found inside of the host name
    rw [List.append_assoc, List.cons_append] at hmid
    obtain ⟨_, hhostName⟩ := split_unique huser hhost
      other.1.userName.nonempty (by simp [portAndHost]) hmid
    rw [hhostName, portAndHost, List.dropLast_append_of_ne_nil (by simp),
      List.dropLast_cons_of_ne_nil (by simp),
      List.dropLast_append_of_ne_nil (by simp),
      List.dropLast_cons_of_ne_nil (by simp)] at hhost
    simp at hhost

theorem nameChar_of_mem_portAndHost
    {port : ℕ} {host : List Char} (hhost : ∀ c ∈ host, NameChar c)
    {c : Char} (hc : c ∈ portAndHost port host) : NameChar c := by
  rw [portAndHost, List.mem_cons, List.mem_append, List.mem_cons,
    List.mem_cons] at hc
  rcases hc with rfl | hdigit | rfl | rfl | hc
  · simp [NameChar]
  · have hisDigit := DecimalNumbers.isDigit_of_mem_toDigits hdigit
    simp [NameChar, Char.isAlphanum, hisDigit]
  · simp [NameChar]
  · simp [NameChar]
  · exact hhost c hc

end Exclusive

section Collisions

variable (t : Target)

/-- The user name is cut at a `-`, and its rest goes to the host. -/
theorem exists_other_of_userName
    (hmem : '-' ∈ t.1.userName.chars.tail) :
    ∃ other, other ≠ t ∧ body other = body t ∧ other.2 = t.2 := by
  rcases List.append_of_mem hmem with ⟨front, back, htail⟩
  cases hchars : t.1.userName.chars with
  | nil => exact absurd hchars t.1.userName.nonempty
  | cons c tail =>
      rw [hchars, List.tail_cons] at htail
      subst htail
      have hlegal := t.1.userName.legal
      rw [hchars, List.forall_mem_cons, List.forall_mem_append,
        List.forall_mem_cons] at hlegal
      rcases hlegal with ⟨hc, hfront, hdash, hback⟩
      let userName : Name :=
        ⟨c :: front, by simp, List.forall_mem_cons.mpr ⟨hc, hfront⟩⟩
      let host : Name :=
        ⟨back ++ '-' :: t.1.host.chars, by simp,
          List.forall_mem_append.mpr ⟨hback,
            List.forall_mem_cons.mpr ⟨hdash, t.1.host.legal⟩⟩⟩
      refine ⟨({ t.1 with userName, host }, t.2), ?_, ?_, rfl⟩
      · intro heq
        have hsame : (c :: front) = t.1.userName.chars :=
          congrArg (fun t : Target => t.1.userName.chars) heq
        rw [hchars] at hsame
        simp at hsame
      · simp [body, userName, host, hchars]

/-- The host name is cut at a `-`, and its front goes to the user. -/
theorem exists_other_of_host
    (hmem : '-' ∈ t.1.host.chars.dropLast) :
    ∃ other, other ≠ t ∧ body other = body t ∧ other.2 = t.2 := by
  rcases List.append_of_mem hmem with ⟨front, back, hinit⟩
  have hchars : t.1.host.chars = front ++ '-' :: (back ++
      [t.1.host.chars.getLast t.1.host.nonempty]) := by
    rw [← List.cons_append, ← List.append_assoc, ← hinit,
      List.dropLast_concat_getLast]
  generalize t.1.host.chars.getLast t.1.host.nonempty = c at hchars
  have hlegal := t.1.host.legal
  rw [hchars, List.forall_mem_append, List.forall_mem_cons] at hlegal
  rcases hlegal with ⟨hfront, hdash, hlast⟩
  let userName : Name :=
    ⟨t.1.userName.chars ++ '-' :: front, by simp,
      List.forall_mem_append.mpr ⟨t.1.userName.legal,
        List.forall_mem_cons.mpr ⟨hdash, hfront⟩⟩⟩
  let host : Name := ⟨back ++ [c], by simp, hlast⟩
  refine ⟨({ t.1 with userName, host }, t.2), ?_, ?_, rfl⟩
  · intro heq
    have hsame : t.1.userName.chars ++ '-' :: front = t.1.userName.chars :=
      congrArg (fun t : Target => t.1.userName.chars) heq
    simp at hsame
  · simp [body, userName, host, hchars]

/-- The remote host is cut at a port, and its front goes to the host. -/
theorem exists_other_of_remoteHost
    {front back : List Char} {port : ℕ} (hport : port < 65536)
    (hback : back ≠ [])
    (hchars : t.2.host.chars = front ++ portAndHost port back) :
    ∃ other, other ≠ t ∧ body other = body t ∧
      other.2.port = t.2.port := by
  have hlegal := t.2.host.legal
  rw [hchars, List.forall_mem_append] at hlegal
  rcases hlegal with ⟨hfront, hrest⟩
  let host : Name :=
    ⟨t.1.host.chars ++ portAndHost t.1.port front, by simp [portAndHost],
      List.forall_mem_append.mpr ⟨t.1.host.legal,
        fun _ => nameChar_of_mem_portAndHost hfront⟩⟩
  let remoteHost : Name :=
    ⟨back, hback, fun c hc => hrest c (by simp [portAndHost, hc])⟩
  refine ⟨({ t.1 with host, port, port_lt := hport },
    { t.2 with host := remoteHost }), ?_, ?_, rfl⟩
  · intro heq
    have hsame : t.1.host.chars ++ portAndHost t.1.port front =
        t.1.host.chars :=
      congrArg (fun t : Target => t.1.host.chars) heq
    simp [portAndHost] at hsame
  · simp [body, host, remoteHost, hchars, portAndHost]

end Collisions

section Tunnels

variable (displays : Displays) (home : Option String)

theorem socketOf_unique_iff (t : Target) :
    (∀ other, socketOf displays.names home other =
        socketOf displays.names home t → other = t) ↔
      Unambiguous t := by
  simp only [socketOf_eq_iff]
  constructor
  · intro hunique
    refine ⟨fun hmem => ?_, fun hmem => ?_, ?_⟩
    · rcases exists_other_of_userName t hmem with ⟨other, hne, hbody, hremote⟩
      exact hne (hunique other
        ⟨hbody, congrArg RemoteEndpoint.port hremote⟩)
    · rcases exists_other_of_host t hmem with ⟨other, hne, hbody, hremote⟩
      exact hne (hunique other
        ⟨hbody, congrArg RemoteEndpoint.port hremote⟩)
    · rintro ⟨front, port, back, hport, hback, hchars⟩
      rcases exists_other_of_remoteHost t hport hback hchars with
          ⟨other, hne, hbody, hremote⟩
      exact hne (hunique other ⟨hbody, hremote⟩)
  · intro hclear other hsame
    rcases body_inj_of_unambiguous hclear hsame.1.symm with
        ⟨huser, hhost, hsshPort, hremote⟩
    exact (target_ext huser hhost hsshPort hremote hsame.2.symm).symm

/-- A call of `start_port_forward` for this target, and whether the session
can start the tunnel. -/
structure Attempt where
  target : Target
  result : Except String Unit

/-- The tunnel that a session starts leads to the target it was started
for. -/
def Attempt.call (attempt : Attempt) :
    Call SshCredentials RemoteEndpoint Target where
  credentials := attempt.target.1
  endpoint := attempt.target.2
  result := attempt.result.map fun _ => attempt.target

abbrev Pool := State SshCredentials RemoteEndpoint Target

def attemptStep (pool : Pool) (attempt : Attempt) : Option Pool :=
  step displays.names home pool attempt.call

/-- Every tunnel listens on the socket of its own target. -/
def Listening (pool : Pool) : Prop :=
  ∀ key tunnel, pool.portForwards key = some tunnel →
    socketOf displays.names home tunnel = key

/-- The socket file of this target is that of no other target, and whoever
connects to it is never served by the tunnel of another. -/
def OwnSocket (t : Target) : Prop :=
  (∀ other, socketOf displays.names home other =
      socketOf displays.names home t → other = t) ∧
    ∀ attempts pool, TransitionSystem.exec (attemptStep displays home)
        PortForwardsPool.new attempts = some pool →
      ∀ tunnel, pool.portForwards (socketOf displays.names home t) =
        some tunnel → tunnel = t

variable {displays home}

theorem tunnel_of_started
    {pool : Pool} {attempt : Attempt} {tunnel : Target}
    (hstarted : (PortForwardsPool.call displays.names home pool
      attempt.call).1 = .started tunnel) : tunnel = attempt.target := by
  have hresult := PortForwardsPool.result_of_started hstarted
  unfold Attempt.call at hresult
  cases hattempt : attempt.result with
  | error err => simp [hattempt, Except.map] at hresult
  | ok _ => simpa [hattempt, Except.map, eq_comm] using hresult

theorem Listening.step
    {pool next : Pool} {attempt : Attempt}
    (hlistening : Listening displays home pool)
    (hstep : attemptStep displays home pool attempt = some next) :
    Listening displays home next := by
  rcases PortForwardsPool.step_cases hstep with
      ⟨rfl, _⟩ | ⟨tunnel, hstarted, rfl⟩
  · exact hlistening
  · intro key stored hstored
    dsimp only at hstored
    by_cases hkey : key = socketOf displays.names home attempt.call.target
    · subst hkey
      rw [Function.update_self] at hstored
      cases hstored
      rw [tunnel_of_started hstarted]
      rfl
    · rw [Function.update_of_ne hkey] at hstored
      exact hlistening key stored hstored

theorem exec_listening
    {attempts : List Attempt} {pool : Pool}
    (hrun : TransitionSystem.exec (attemptStep displays home)
      PortForwardsPool.new attempts = some pool) :
    Listening displays home pool :=
  TransitionSystem.exec_invariant
    (fun _ _ _ hlistening hstep => hlistening.step hstep)
    (fun _ _ hstored => by simp [PortForwardsPool.new] at hstored) hrun

variable (displays home)

/-- A target has a socket file of its own if and only if none of its names
can be cut at a separator. -/
theorem ownSocket_iff_unambiguous (t : Target) :
    OwnSocket displays home t ↔ Unambiguous t := by
  rw [← socketOf_unique_iff displays home]
  refine and_iff_left_of_imp fun hunique => ?_
  intro attempts pool hrun tunnel hstored
  exact hunique tunnel (exec_listening hrun _ _ hstored)

end Tunnels

section Collision

def plainDisplays : Displays where
  credentialsToString c := String.ofList c.userName.chars ++ "@" ++
    String.ofList c.host.chars ++ ":" ++ c.port.repr
  asStr e := String.ofList e.host.chars ++ ":" ++ (e.port.getD 0).repr

/-- The target `a-b@c:22->r:80`. -/
def dashedUser : Target :=
  (⟨.ofText "a-b" (by decide) (by decide), .ofText "c" (by decide) (by decide),
      22, by decide⟩,
    ⟨.ofText "r" (by decide) (by decide), some 80, by decide⟩)

/-- The target `a@b-c:22->r:80`. -/
def dashedHost : Target :=
  (⟨.ofText "a" (by decide) (by decide), .ofText "b-c" (by decide) (by decide),
      22, by decide⟩,
    ⟨.ofText "r" (by decide) (by decide), some 80, by decide⟩)

theorem dashed_names_share_socket :
    socketOf plainDisplays.names (some "/home/me") dashedUser =
        "/home/me/grpc-a-b-c_22--r_80.sock" ∧
      socketOf plainDisplays.names (some "/home/me") dashedHost =
        "/home/me/grpc-a-b-c_22--r_80.sock" ∧
      ¬ OwnSocket plainDisplays (some "/home/me") dashedUser := by
  refine ⟨rfl, rfl, fun hown => ?_⟩
  have hsame := hown.1 dashedHost rfl
  have huser := congrArg (fun t : Target => t.1.userName.chars) hsame
  simp [dashedHost, dashedUser, Name.ofText] at huser

end Collision

end SocketFileNames
end GrpcExtensions
