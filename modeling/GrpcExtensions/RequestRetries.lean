import GrpcExtensions.GrpcChannel

/-!
# Requests with retries

The four retry loops of the request builders.  They repeat a request after
any error, whether the channel was lost or the server has answered with an
application status.  A request is thus sent again only after a disconnect
exactly when no attempt that has others left is answered.
-/

namespace GrpcExtensions
namespace GrpcChannel

universe u v w

variable {ρ : Type u} {β : Type v} {γ : Type w}

structure StreamedResponse (β : Type v) where
  streamToRead : β
  requestTimeout : ℕ

/-- The input stream of a request is named by its contract as well. -/
structure RequestBuilderWithRetries (ρ : Type u) where
  inputContract : ρ
  requestTimeout : ℕ
  maxAttemptsAmount : ℕ

structure RequestBuilderWithInputStreamWithRetries (ρ : Type u) where
  inputContract : ρ
  requestTimeout : ℕ
  maxAttemptsAmount : ℕ

section Builders

variable (env : Env β) (client : Client ρ β)

def RequestBuilderWithRetries.getResponse
    (builder : RequestBuilderWithRetries ρ) :
    Except GrpcReadError β × Client ρ β :=
  BoundedRetry.loop (Client.execute env builder.inputContract) id
    builder.maxAttemptsAmount 0 client

def RequestBuilderWithRetries.getStreamedResponse
    (builder : RequestBuilderWithRetries ρ) :
    Except GrpcReadError (StreamedResponse β) × Client ρ β :=
  BoundedRetry.loop
    (Client.executeWithResponseAsStream env builder.inputContract)
    (StreamedResponse.mk · builder.requestTimeout)
    builder.maxAttemptsAmount 0 client

def RequestBuilderWithInputStreamWithRetries.getResponse
    (builder : RequestBuilderWithInputStreamWithRetries ρ) :
    Except GrpcReadError β × Client ρ β :=
  BoundedRetry.loop (Client.executeInputAsStream env builder.inputContract)
    id builder.maxAttemptsAmount 0 client

def RequestBuilderWithInputStreamWithRetries.getStreamedResponse
    (builder : RequestBuilderWithInputStreamWithRetries ρ) :
    Except GrpcReadError (StreamedResponse β) × Client ρ β :=
  BoundedRetry.loop
    (Client.executeInputAsStreamResponseAsStream env builder.inputContract)
    (StreamedResponse.mk · builder.requestTimeout)
    builder.maxAttemptsAmount 0 client

end Builders

/-- Once a call of the run is answered by the server, it is the last call and
its status is the result. -/
def ResentOnlyAfterDisconnect
    (client : Client ρ β) (outcome : Except GrpcReadError γ × Client ρ β) :
    Prop :=
  ∀ (earlier : List (Call ρ β)) (call : Call ρ β)
    (later : List (Call ρ β)) (status : Status),
    outcome.2.calls = client.calls ++ (earlier ++ call :: later) →
    call.AnsweredWith status →
    later = [] ∧ outcome.1 = .error (.tonicStatus status)

/-- The outcome of an attempt is not an answer of the server. -/
def NotAnswered (outcome : Except GrpcReadError β) : Prop :=
  ∀ status, outcome = .error (.tonicStatus status) → status.code = .unknown

theorem notAnswered_ok (result : β) :
    NotAnswered (.ok result : Except GrpcReadError β) := by
  intro status hstatus
  contradiction

/-- A call that the server did not answer leaves the condition to the calls
after it. -/
theorem resent_iff_of_unanswered
    {client after : Client ρ β}
    {outcome : Except GrpcReadError γ × Client ρ β} {new : List (Call ρ β)}
    (hcalls : after.calls = client.calls ++ new)
    (hunanswered : ∀ call ∈ new, ∀ status, ¬ call.AnsweredWith status)
    (hextends : after.calls <+: outcome.2.calls) :
    ResentOnlyAfterDisconnect client outcome ↔
      ResentOnlyAfterDisconnect after outcome := by
  constructor
  · intro hresent earlier call later status hsplit hanswered
    apply hresent (new ++ earlier) call later status _ hanswered
    rw [hsplit, hcalls, List.append_assoc, List.append_assoc]
  · intro hresent earlier call later status hsplit hanswered
    obtain ⟨rest, hrest⟩ := hextends
    have hall : client.calls ++ (new ++ rest) =
        client.calls ++ (earlier ++ call :: later) := by
      rw [← List.append_assoc, ← hcalls, hrest, hsplit]
    have htail := List.append_cancel_left hall
    rcases List.append_eq_append_iff.mp htail with
      ⟨between, hearlier, hafter⟩ | ⟨between, hnew, hafter⟩
    · apply hresent between call later status _ hanswered
      rw [← hrest, hafter]
    · cases between with
      | nil =>
          apply hresent [] call later status _ hanswered
          rw [← hrest]
          simpa using hafter.symm
      | cons first between =>
          injection hafter with hfirst _
          subst first
          have hmem : call ∈ new := by simp [hnew]
          exact absurd hanswered (hunanswered call hmem status)

/-- One attempt makes at most one call, and returns its answer. -/
theorem Attempted.resentOnlyAfterDisconnect
    {request : ρ} {client after : Client ρ β}
    {result : Except GrpcReadError β} {returned : Except GrpcReadError γ}
    (hattempted : Attempted request client result after)
    (hreturned : ∀ err, result = .error err → returned = .error err) :
    ResentOnlyAfterDisconnect client (returned, after) := by
  intro earlier call later status hsplit ⟨houtcome, hcode⟩
  have hone : ∀ only : Call ρ β,
      after.calls = client.calls ++ [only] →
        only = call ∧ later = [] := by
    intro only hcalls
    rw [show after.calls = _ from hsplit] at hcalls
    have htail := List.append_cancel_left hcalls
    cases earlier with
    | nil =>
        injection htail with hcall hlater
        exact ⟨hcall.symm, hlater⟩
    | cons first earlier =>
        injection htail with _ hnil
        simp at hnil
  cases hattempted with
  | noChannel hholder herr hnone hcalls =>
      rw [show after.calls = _ from hsplit] at hcalls
      simp at hcalls
  | response hheld hcalls =>
      obtain ⟨rfl, _⟩ := hone _ hcalls
      contradiction
  | timeout hdropped hcalls =>
      obtain ⟨rfl, _⟩ := hone _ hcalls
      contradiction
  | dead hunknown hdropped hcalls =>
      obtain ⟨rfl, _⟩ := hone _ hcalls
      injection houtcome with hstatus
      rw [hstatus] at hunknown
      exact absurd hunknown hcode
  | answered hknown hheld hcalls =>
      obtain ⟨rfl, hlater⟩ := hone _ hcalls
      injection houtcome with hstatus
      rw [← hstatus]
      exact ⟨hlater, hreturned _ rfl⟩

section Retry

variable {env : Env β} {request : ρ} {onOk : β → γ}

theorem Attempted.calls_extends
    {client after : Client ρ β} {result : Except GrpcReadError β}
    (hattempted : Attempted request client result after) :
    client.calls <+: after.calls := by
  cases hattempted with
  | noChannel hholder herr hnone hcalls =>
      exact hcalls ▸ List.prefix_refl after.calls
  | response hheld hcalls => exact ⟨_, hcalls.symm⟩
  | timeout hdropped hcalls => exact ⟨_, hcalls.symm⟩
  | dead hunknown hdropped hcalls => exact ⟨_, hcalls.symm⟩
  | answered hknown hheld hcalls => exact ⟨_, hcalls.symm⟩

theorem retry_calls_extends (left : ℕ) (client : Client ρ β) :
    client.calls <+:
      (BoundedRetry.retry (Client.executeOn env request) onOk left
        client).2.calls := by
  induction left, client using
      BoundedRetry.retry_induction (Client.executeOn env request) with
  | done hexecute =>
      rw [BoundedRetry.retry_of_ok hexecute]
      exact (executeOn_attempted hexecute).calls_extends
  | last hexecute =>
      rw [BoundedRetry.retry_zero_of_error hexecute]
      exact (executeOn_attempted hexecute).calls_extends
  | again hexecute ih =>
      rw [BoundedRetry.retry_succ_of_error hexecute]
      exact (executeOn_attempted hexecute).calls_extends.trans ih

/-- A loop that starts with a channel calls the executor. -/
theorem retry_calls_of_held
    {client : Client ρ β} (left : ℕ) {channel : ChannelId}
    (hheld : client.holder = some channel) :
    ∃ call later,
      (BoundedRetry.retry (Client.executeOn env request) onOk left
        client).2.calls = client.calls ++ call :: later := by
  cases hexecute : client.executeOn env request with
  | mk result after =>
      have hattempted := executeOn_attempted hexecute
      have hcall : ∃ call, after.calls = client.calls ++ [call] := by
        cases hattempted with
        | noChannel hholder herr hnone hcalls =>
            rw [hheld] at hholder
            contradiction
        | response hheld hcalls => exact ⟨_, hcalls⟩
        | timeout hdropped hcalls => exact ⟨_, hcalls⟩
        | dead hunknown hdropped hcalls => exact ⟨_, hcalls⟩
        | answered hknown hheld hcalls => exact ⟨_, hcalls⟩
      obtain ⟨call, hcall⟩ := hcall
      cases result with
      | ok answer =>
          rw [BoundedRetry.retry_of_ok hexecute]
          exact ⟨call, [], hcall⟩
      | error err =>
          cases left with
          | zero =>
              rw [BoundedRetry.retry_zero_of_error hexecute]
              exact ⟨call, [], hcall⟩
          | succ left =>
              rw [BoundedRetry.retry_succ_of_error hexecute]
              obtain ⟨later, hlater⟩ :=
                @retry_calls_extends _ _ _ env request onOk left after
              refine ⟨call, later, ?_⟩
              rw [← hlater, hcall, List.append_assoc,
                List.singleton_append]

theorem retry_resent_iff (left : ℕ) (client : Client ρ β) :
    ResentOnlyAfterDisconnect client
        (BoundedRetry.retry (Client.executeOn env request) onOk left
          client) ↔
      BoundedRetry.BeforeLast (Client.executeOn env request) (left + 1)
        client NotAnswered := by
  induction left, client using
      BoundedRetry.retry_induction (Client.executeOn env request) with
  | done hexecute =>
      rw [BoundedRetry.retry_of_ok hexecute]
      exact iff_of_true
        ((executeOn_attempted hexecute).resentOnlyAfterDisconnect (by simp))
        (BoundedRetry.beforeLast_of_ok notAnswered_ok hexecute _)
  | @last client err after hexecute =>
      rw [BoundedRetry.retry_zero_of_error hexecute]
      exact iff_of_true
        ((executeOn_attempted hexecute).resentOnlyAfterDisconnect (by simp))
        (BoundedRetry.beforeLast_of_le_one (Nat.le_refl 1) client)
  | @again left client err after hexecute ih =>
      have hattempted := executeOn_attempted hexecute
      rw [BoundedRetry.retry_succ_of_error hexecute,
        BoundedRetry.beforeLast_iff_of_error hexecute]
      have hextends :=
        @retry_calls_extends _ _ _ env request onOk left after
      have hrest : ∀ new, after.calls = client.calls ++ new →
          (∀ call ∈ new, ∀ status, ¬ call.AnsweredWith status) →
          NotAnswered (.error err : Except GrpcReadError β) →
          (ResentOnlyAfterDisconnect client
              (BoundedRetry.retry (Client.executeOn env request)
                onOk left after) ↔
            NotAnswered (.error err : Except GrpcReadError β) ∧
              BoundedRetry.BeforeLast
                (Client.executeOn env request) (left + 1) after
                NotAnswered) := by
        intro new hcalls hunanswered hnot
        rw [resent_iff_of_unanswered hcalls hunanswered hextends, ih]
        exact (and_iff_right hnot).symm
      cases hattempted with
      | noChannel hholder herr hnone hcalls =>
          apply hrest [] (by simpa using hcalls) (by simp)
          intro status hstatus
          injection hstatus with heq
          exact absurd heq (herr status)
      | timeout hdropped hcalls =>
          apply hrest _ hcalls
          · simp [Call.AnsweredWith]
          · intro status hstatus
            injection hstatus with heq
            contradiction
      | dead hunknown hdropped hcalls =>
          apply hrest _ hcalls
          · intro call hmem status ⟨houtcome, hcode⟩
            rw [List.mem_singleton.mp hmem] at houtcome
            injection houtcome with hstatus
            exact hcode (hstatus ▸ hunknown)
          · intro status hstatus
            injection hstatus with heq
            injection heq with heq
            exact heq ▸ hunknown
      | answered hknown hheld hcalls =>
          -- the channel stays, so the next attempt is a new call
          apply iff_of_false
          · intro hresent
            obtain ⟨call, later, hlater⟩ :=
              @retry_calls_of_held _ _ _ env request onOk _ left _ hheld
            have hlast := hresent [] _ (call :: later) _
              (by rw [hlater, hcalls, List.append_assoc]; rfl)
              ⟨rfl, hknown⟩
            simp at hlast
          · rintro ⟨hnot, _⟩
            exact hknown (hnot _ rfl)

theorem loop_resent_iff
    (attempt : Client ρ β → Except GrpcReadError β × Client ρ β)
    (hattempt : attempt = Client.executeOn env request)
    (maxAttempts : ℕ) (client : Client ρ β) :
    ResentOnlyAfterDisconnect client
        (BoundedRetry.loop attempt onOk maxAttempts 0 client) ↔
      BoundedRetry.BeforeLast (Client.execute env request) maxAttempts
        client NotAnswered := by
  rw [hattempt, BoundedRetry.loop_eq_retry, retry_resent_iff,
    BoundedRetry.beforeLast_sub_one_add_one]
  rfl

end Retry

/-- In each of the four loops, a request is sent again only after a
disconnect if and only if no attempt that has others left is answered by the
server with a status that leaves the channel alive. -/
theorem resent_only_after_disconnect_iff
    (env : Env β) (client : Client ρ β)
    (builder : RequestBuilderWithRetries ρ)
    (streamBuilder : RequestBuilderWithInputStreamWithRetries ρ) :
    (ResentOnlyAfterDisconnect client (builder.getResponse env client) ↔
      BoundedRetry.BeforeLast (Client.execute env builder.inputContract)
        builder.maxAttemptsAmount client NotAnswered) ∧
    (ResentOnlyAfterDisconnect client
        (builder.getStreamedResponse env client) ↔
      BoundedRetry.BeforeLast (Client.execute env builder.inputContract)
        builder.maxAttemptsAmount client NotAnswered) ∧
    (ResentOnlyAfterDisconnect client
        (streamBuilder.getResponse env client) ↔
      BoundedRetry.BeforeLast
        (Client.execute env streamBuilder.inputContract)
        streamBuilder.maxAttemptsAmount client NotAnswered) ∧
    (ResentOnlyAfterDisconnect client
        (streamBuilder.getStreamedResponse env client) ↔
      BoundedRetry.BeforeLast
        (Client.execute env streamBuilder.inputContract)
        streamBuilder.maxAttemptsAmount client NotAnswered) :=
  ⟨loop_resent_iff _ rfl _ client, loop_resent_iff _ rfl _ client,
    loop_resent_iff _ rfl _ client, loop_resent_iff _ rfl _ client⟩

/-- The server answers the first of three attempts with `AlreadyExists`; the
request is sent again and the second answer is returned. -/
theorem answered_request_is_resent :
    ∃ (env : Env ℕ) (client : Client ℕ ℕ)
        (builder : RequestBuilderWithRetries ℕ),
      (builder.getResponse env client).2.calls =
          [⟨0, 7, .status ⟨.alreadyExists, ""⟩⟩, ⟨0, 7, .response 5⟩] ∧
        ¬ ResentOnlyAfterDisconnect client
          (builder.getResponse env client) := by
  let env : Env ℕ :=
    { unixSocket := false
      connect := fun _ => .connected
      execute := fun
        | 0 => .status ⟨.alreadyExists, ""⟩
        | _ => .response 5 }
  let client : Client ℕ ℕ := { holder := some 0, connects := 1, calls := [] }
  let builder : RequestBuilderWithRetries ℕ :=
    { inputContract := 7, requestTimeout := 5, maxAttemptsAmount := 3 }
  have hcalls : (builder.getResponse env client).2.calls =
      [⟨0, 7, .status ⟨.alreadyExists, ""⟩⟩, ⟨0, 7, .response 5⟩] := by
    rw [RequestBuilderWithRetries.getResponse, BoundedRetry.loop_eq_retry]
    rfl
  refine ⟨env, client, builder, hcalls, ?_⟩
  intro hresent
  have hlast := hresent [] ⟨0, 7, .status ⟨.alreadyExists, ""⟩⟩
    [⟨0, 7, .response 5⟩] ⟨.alreadyExists, ""⟩ hcalls ⟨rfl, by simp⟩
  simp at hlast

end GrpcChannel
end GrpcExtensions
