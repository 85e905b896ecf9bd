import GrpcExtensions.RequestRetries

/-!
# The meaning of a retried request

The attempts that a retry loop makes, the channel of each of them and the
holder it leaves.  A status other than `Unknown` keeps the channel for the next
attempt; after any other failure the next attempt finds an empty holder and
connects anew.
-/

namespace GrpcExtensions
namespace GrpcChannel

universe u v w

variable {ρ : Type u} {β : Type v} {γ : Type w}

/-- The timeout is a field of the channel in the source. -/
structure RequestBuilder (ρ : Type u) where
  inputContract : ρ
  requestTimeout : ℕ

structure RequestBuilderWithInputStream (ρ : Type u) where
  inputContract : ρ
  requestTimeout : ℕ

section Builders

variable (env : Env β) (client : Client ρ β)

def RequestBuilder.withRetries (builder : RequestBuilder ρ)
    (attemptsAmount : ℕ) : RequestBuilderWithRetries ρ :=
  ⟨builder.inputContract, builder.requestTimeout, attemptsAmount⟩

def RequestBuilder.getResponse (builder : RequestBuilder ρ) :
    Except GrpcReadError β × Client ρ β :=
  client.execute env builder.inputContract

def RequestBuilder.getStreamedResponse (builder : RequestBuilder ρ) :
    Except GrpcReadError (StreamedResponse β) × Client ρ β :=
  match client.executeWithResponseAsStream env builder.inputContract with
  | (.ok result, after) => (.ok ⟨result, builder.requestTimeout⟩, after)
  | (.error err, after) => (.error err, after)

def RequestBuilderWithInputStream.withRetries
    (builder : RequestBuilderWithInputStream ρ) (attemptsAmount : ℕ) :
    RequestBuilderWithInputStreamWithRetries ρ :=
  ⟨builder.inputContract, builder.requestTimeout, attemptsAmount⟩

def RequestBuilderWithInputStream.getResponse
    (builder : RequestBuilderWithInputStream ρ) :
    Except GrpcReadError β × Client ρ β :=
  client.executeInputAsStream env builder.inputContract

def RequestBuilderWithInputStream.getStreamedResponse
    (builder : RequestBuilderWithInputStream ρ) :
    Except GrpcReadError (StreamedResponse β) × Client ρ β :=
  match client.executeInputAsStreamResponseAsStream env
      builder.inputContract with
  | (.ok streamToRead, after) =>
      (.ok ⟨streamToRead, builder.requestTimeout⟩, after)
  | (.error err, after) => (.error err, after)

end Builders

/-- A client whose holder is empty or has a channel that some connect made. -/
structure Start (ρ : Type u) (β : Type v) where
  client : Client ρ β
  named : ∀ channel, client.holder = some channel → channel < client.connects

def Client.new : Client ρ β where
  holder := none
  connects := 0
  calls := []

namespace Start

/-- A client that has not connected yet. -/
def empty : Start ρ β where
  client := Client.new
  named := by
    intro channel hheld
    contradiction

/-- A client whose first connect has succeeded. -/
def held : Start ρ β where
  client := { Client.new with holder := some 0, connects := 1 }
  named := by
    intro channel hheld
    cases hheld
    exact Nat.one_pos

end Start

abbrev Attempt (ρ : Type u) (β : Type v) :=
  BoundedRetry.Attempt (Client ρ β) GrpcReadError β

namespace Attempt

variable (a : Attempt ρ β)

def calls : List (Call ρ β) :=
  a.after.calls.drop a.before.calls.length

def channel : Option ChannelId :=
  a.calls.head?.map Call.channel

def Failed : Prop :=
  ∃ err, a.result = .error err

/-- A failed connect, a timeout or the status `Unknown`. -/
def Lost : Prop :=
  a.Failed ∧ NotAnswered a.result

/-- The attempt finds no channel: it makes a new one, or gives up after five
connects without a call. -/
def StartsAfresh : Prop :=
  a.before.holder = none ∧
    ((∃ failures < 5, a.channel = some (a.before.connects + failures) ∧
        a.after.connects = a.before.connects + failures + 1) ∨
      a.channel = none ∧ a.after.connects = a.before.connects + 5)

def Next (a b : Attempt ρ β) : Prop :=
  ((∃ channel, a.channel = some channel ∧ b.channel = some channel) ↔
      a.Failed ∧ ¬ a.Lost) ∧
    (a.Lost → b.StartsAfresh)

end Attempt

section Executor

def ExecuteOutcome.toResult : ExecuteOutcome β → Except GrpcReadError β
  | .response result => .ok result
  | .timeout => .error .timeout
  | .status answer => .error (.tonicStatus answer)

def ExecuteOutcome.holder (channel : ChannelId) :
    ExecuteOutcome β → Option ChannelId
  | .response _ => some channel
  | .timeout => none
  | .status answer => if answer.code = .unknown then none else some channel

theorem holder_unknown
    (channel : ChannelId) {answer : Status} (hcode : answer.code = .unknown) :
    (.status answer : ExecuteOutcome β).holder channel = none := by
  simp [ExecuteOutcome.holder, hcode]

theorem holder_answered
    (channel : ChannelId) {answer : Status} (hcode : answer.code ≠ .unknown) :
    (.status answer : ExecuteOutcome β).holder channel = some channel := by
  simp [ExecuteOutcome.holder, hcode]

/-- An attempt, with the connects it makes. -/
inductive Made (request : ρ) (client : Client ρ β) :
    Except GrpcReadError β → Client ρ β → Prop where
  | noChannel {err : GrpcReadError} {after : Client ρ β}
      (hgot : GotChannel client (.error err) after) :
      Made request client (.error err) after
  | called {channel : ChannelId} {connected : Client ρ β}
      (hgot : GotChannel client (.ok channel) connected)
      (outcome : ExecuteOutcome β) :
      Made request client outcome.toResult
        { holder := outcome.holder channel
          connects := connected.connects
          calls := client.calls ++ [⟨channel, request, outcome⟩] }

theorem GotChannel.holder_eq
    {client after : Client ρ β} {channel : ChannelId}
    (hgot : GotChannel client (.ok channel) after) :
    after.holder = some channel := by
  cases hgot with
  | held hheld => exact hheld
  | created _ _ => rfl

theorem GotChannel.calls_eq
    {client after : Client ρ β} {outcome : Except GrpcReadError ChannelId}
    (hgot : GotChannel client outcome after) : after.calls = client.calls := by
  cases hgot with
  | held _ => rfl
  | created _ _ => rfl
  | failed _ _ => rfl

theorem executeOn_made
    {env : Env β} {request : ρ} {client after : Client ρ β}
    {result : Except GrpcReadError β}
    (hexecute : client.executeOn env request = (result, after)) :
    Made request client result after := by
  unfold Client.executeOn at hexecute
  cases hget : client.getChannel env with
  | mk outcome connected =>
      have hgot := getChannel_got hget
      have hcalls := hgot.calls_eq
      rw [hget] at hexecute
      cases outcome with
      | error err =>
          cases hexecute
          exact .noChannel hgot
      | ok channel =>
          have hheld := hgot.holder_eq
          have hmade := @Made.called _ _ request _ _ _ hgot
          unfold Client.callExecutor at hexecute
          rw [← hcalls] at hmade
          cases houtcome : env.execute connected.calls.length with
          | response answer =>
              simp only [houtcome] at hexecute
              cases hexecute
              rw [hheld]
              exact hmade (.response answer)
          | timeout =>
              simp only [houtcome] at hexecute
              cases hexecute
              exact hmade .timeout
          | status answer =>
              have hstatus := hmade (.status answer)
              simp only [houtcome, dropChannelIfNeeded_holder] at hexecute
              cases hexecute
              by_cases hcode : answer.code = .unknown
              · rw [holder_unknown channel hcode] at hstatus
                rw [if_pos hcode]
                exact hstatus
              · rw [holder_answered channel hcode] at hstatus
                rw [if_neg hcode, hheld]
                exact hstatus

end Executor

/-- Channels are named by the connects that made them. -/
def Client.Named (client : Client ρ β) : Prop :=
  ∀ channel, client.holder = some channel → channel < client.connects

section OneAttempt

variable {request : ρ} {a : Attempt ρ β}

theorem calls_of_append
    {call : Call ρ β} (hcalls : a.after.calls = a.before.calls ++ [call]) :
    a.calls = [call] := by
  rw [Attempt.calls, hcalls, List.drop_left]

theorem calls_of_eq (hcalls : a.after.calls = a.before.calls) :
    a.calls = [] := by
  rw [Attempt.calls, hcalls, List.drop_length]

theorem GotChannel.named
    {client after : Client ρ β} {outcome : Except GrpcReadError ChannelId}
    (hgot : GotChannel client outcome after) (hnamed : client.Named) :
    after.Named := by
  cases hgot with
  | held hheld => exact hnamed
  | created hnone hfailures =>
      intro channel hchannel
      cases hchannel
      exact Nat.lt_succ_self _
  | failed hnone herr =>
      intro channel hchannel
      rw [show client.holder = some channel from hchannel] at hnone
      cases hnone

theorem eq_of_holder
    {channel held : ChannelId} {outcome : ExecuteOutcome β}
    (hheld : outcome.holder channel = some held) : held = channel := by
  cases outcome with
  | response _ =>
      cases hheld
      rfl
  | timeout => cases hheld
  | status answer =>
      by_cases hcode : answer.code = .unknown
      · rw [holder_unknown channel hcode] at hheld
        cases hheld
      · rw [holder_answered channel hcode] at hheld
        cases hheld
        rfl

theorem Made.named
    {client after : Client ρ β} {result : Except GrpcReadError β}
    (hmade : Made request client result after) (hnamed : client.Named) :
    after.Named := by
  cases hmade with
  | noChannel hgot => exact hgot.named hnamed
  | called hgot outcome =>
      intro held hheld
      rw [eq_of_holder hheld]
      exact hgot.named hnamed _ hgot.holder_eq

/-- The holder after an executor call, by the error that is returned. -/
theorem lost_iff_holder_none
    {outcome : ExecuteOutcome β} (hresult : a.result = outcome.toResult)
    (channel : ChannelId) : a.Lost ↔ outcome.holder channel = none := by
  unfold Attempt.Lost Attempt.Failed NotAnswered
  rw [hresult]
  cases outcome with
  | response result => simp [ExecuteOutcome.toResult, ExecuteOutcome.holder]
  | timeout => simp [ExecuteOutcome.toResult, ExecuteOutcome.holder]
  | status answer => simp [ExecuteOutcome.toResult, ExecuteOutcome.holder]

/-- What an attempt leaves in the holder and where it has run. -/
structure AttemptSpec (a : Attempt ρ β) : Prop where
  lost : a.Lost → a.after.holder = none
  kept : ¬ a.Lost → ∃ channel, a.channel = some channel ∧
    a.after.holder = some channel
  reused : ∀ channel, a.before.holder = some channel →
    a.channel = some channel
  afresh : a.before.holder = none → a.StartsAfresh
  named : ∀ channel, a.channel = some channel → channel < a.after.connects
  connects : a.before.connects ≤ a.after.connects
  atMostOne : a.after.calls = a.before.calls ++ a.calls
  noChannel : a.channel = none → a.calls = [] ∧ a.Lost ∧
    a.after.connects = a.before.connects + 5

theorem spec_of_noChannel
    {client after : Client ρ β} {err : GrpcReadError}
    (hgot : GotChannel client (.error err) after) :
    AttemptSpec (⟨client, .error err, after⟩ : Attempt ρ β) := by
  cases hgot with
  | failed hnone herr =>
      have hlost : Attempt.Lost ⟨client, .error err,
          { client with connects := client.connects + 5 }⟩ := by
        refine ⟨⟨err, rfl⟩, fun status hstatus => ?_⟩
        cases hstatus
        exact absurd rfl (herr status)
      have hcalls := calls_of_eq (a := ⟨client, .error err,
        { client with connects := client.connects + 5 }⟩) rfl
      have hchannel : Attempt.channel ⟨client, .error err,
          { client with connects := client.connects + 5 }⟩ = none := by
        rw [Attempt.channel, hcalls]
        rfl
      exact
        { lost := fun _ => hnone
          kept := fun hkept => absurd hlost hkept
          reused := fun channel hheld => by
            rw [show client.holder = some channel from hheld] at hnone
            cases hnone
          afresh := fun _ => ⟨hnone, Or.inr ⟨hchannel, rfl⟩⟩
          named := fun channel hsome => by
            rw [hchannel] at hsome
            cases hsome
          connects := Nat.le_add_right _ _
          atMostOne := by rw [hcalls, List.append_nil]
          noChannel := fun _ => ⟨hcalls, hlost, rfl⟩ }

theorem spec_of_called
    {client connected : Client ρ β} {channel : ChannelId}
    (hgot : GotChannel client (.ok channel) connected)
    (hnamed : client.Named) (outcome : ExecuteOutcome β)
    {a : Attempt ρ β} (hbefore : a.before = client)
    (hresult : a.result = outcome.toResult)
    (hafter : a.after =
      { holder := outcome.holder channel
        connects := connected.connects
        calls := client.calls ++ [⟨channel, request, outcome⟩] }) :
    AttemptSpec a := by
  have hcalls : a.calls = [⟨channel, request, outcome⟩] := by
    apply calls_of_append
    rw [hafter, hbefore]
  have hchannel : a.channel = some channel := by
    rw [Attempt.channel, hcalls]
    rfl
  have hlost : a.Lost ↔ a.after.holder = none := by
    rw [lost_iff_holder_none hresult channel, hafter]
  have hconnects : a.after.connects = connected.connects := by rw [hafter]
  subst hbefore
  constructor
  · exact hlost.mp
  · intro hkept
    refine ⟨channel, hchannel, ?_⟩
    cases hheld : a.after.holder with
    | none => exact absurd (hlost.mpr hheld) hkept
    | some held =>
        rw [hafter] at hheld
        rw [eq_of_holder hheld]
  · intro held hheld
    cases hgot with
    | held hsame =>
        rw [hchannel, ← hsame, hheld]
    | created hnone _ =>
        rw [hheld] at hnone
        cases hnone
  · intro hnone
    cases hgot with
    | held hsame =>
        rw [hnone] at hsame
        cases hsame
    | created _ hfailures =>
        exact ⟨hnone, Or.inl ⟨_, hfailures, hchannel, hconnects⟩⟩
  · intro held hheld
    rw [hchannel] at hheld
    cases hheld
    rw [hconnects]
    exact hgot.named hnamed _ hgot.holder_eq
  · rw [hconnects]
    cases hgot with
    | held _ => exact le_rfl
    | created _ _ => exact Nat.le_add_right_of_le (Nat.le_add_right _ _)
  · rw [hcalls, hafter]
  · intro hnone
    rw [hchannel] at hnone
    cases hnone

theorem Made.spec
    {client after : Client ρ β} {result : Except GrpcReadError β}
    (hmade : Made request client result after) (hnamed : client.Named) :
    AttemptSpec (⟨client, result, after⟩ : Attempt ρ β) := by
  cases hmade with
  | noChannel hgot => exact spec_of_noChannel hgot
  | called hgot outcome =>
      exact spec_of_called hgot hnamed outcome rfl rfl rfl

/-- Which channel an attempt runs on is decided by the attempt before it. -/
theorem AttemptSpec.next
    {b : Attempt ρ β} (ha : AttemptSpec a) (hb : AttemptSpec b)
    (hfailed : a.Failed) (hlink : a.after = b.before) : a.Next b := by
  have hlostCase : a.Lost → b.StartsAfresh := by
    intro hlost
    apply hb.afresh
    rw [← hlink]
    exact ha.lost hlost
  refine ⟨⟨?_, ?_⟩, hlostCase⟩
  · rintro ⟨channel, hfirst, hsecond⟩
    refine ⟨hfailed, fun hlost => ?_⟩
    have hold := ha.named channel hfirst
    rw [hlink] at hold
    obtain ⟨_, ⟨failures, _, hnew, _⟩ | ⟨hnone, _⟩⟩ := hlostCase hlost
    · rw [hsecond] at hnew
      cases hnew
      exact Nat.not_lt.mpr (Nat.le_add_right _ failures) hold
    · rw [hsecond] at hnone
      cases hnone
  · rintro ⟨_, hkept⟩
    obtain ⟨channel, hchannel, hheld⟩ := ha.kept hkept
    rw [hlink] at hheld
    exact ⟨channel, hchannel, hb.reused channel hheld⟩

end OneAttempt

section Loop

variable {env : Env β} {request : ρ}

theorem execute_spec
    {client after : Client ρ β} {result : Except GrpcReadError β}
    (hexecute : client.execute env request = (result, after))
    (hnamed : client.Named) :
    AttemptSpec (⟨client, result, after⟩ : Attempt ρ β) :=
  (executeOn_made hexecute).spec hnamed

theorem calls_of_getChannel_error
    {client after : Client ρ β} {result : Except GrpcReadError β}
    (hexecute : client.execute env request = (result, after))
    {err : GrpcReadError} (hget : (client.getChannel env).1 = .error err) :
    after.calls = client.calls := by
  cases hgot : client.getChannel env with
  | mk outcome connected =>
      rw [hgot] at hget
      cases hget
      unfold Client.execute Client.executeOn at hexecute
      rw [hgot] at hexecute
      cases hexecute
      exact (getChannel_got hgot).calls_eq

theorem named_of_execute
    {client after : Client ρ β} {result : Except GrpcReadError β}
    (hexecute : client.execute env request = (result, after))
    (hnamed : client.Named) : after.Named :=
  (executeOn_made hexecute).named hnamed

variable {left : ℕ} {client final : Client ρ β}
variable {attempts : List (Attempt ρ β)} {result : Except GrpcReadError β}

theorem run_spec
    (hrun : BoundedRetry.Run (Client.execute env request) left client attempts
      result final)
    (hnamed : client.Named) : ∀ a ∈ attempts, AttemptSpec a := by
  obtain ⟨hbefore, _⟩ :=
    hrun.invariant (fun _ hbefore => named_of_execute (by rfl) hbefore) hnamed
  intro a ha
  exact execute_spec (hrun.eq_of_mem a ha) (hbefore a ha)

theorem run_next
    (hrun : BoundedRetry.Run (Client.execute env request) left client attempts
      result final)
    (hnamed : client.Named) : attempts.IsChain Attempt.Next := by
  induction hrun with
  | done hok => exact List.isChain_singleton _
  | last herror => exact List.isChain_singleton _
  | @again left client after _ err attempts _ herror hrest ih =>
      have hafter := named_of_execute herror hnamed
      refine (ih hafter).cons fun b hb => ?_
      have hmem : b ∈ attempts := List.mem_of_mem_head? hb
      have hlink : after = b.before := by
        obtain ⟨_, _, hhead⟩ := hrest.head?_eq
        rw [hhead] at hb
        cases hb
        rfl
      exact (execute_spec herror hnamed).next (run_spec hrest hafter b hmem)
        ⟨err, rfl⟩ hlink

theorem run_calls
    (hrun : BoundedRetry.Run (Client.execute env request) left client attempts
      result final)
    (hnamed : client.Named) :
    final.calls = client.calls ++ attempts.flatMap Attempt.calls := by
  induction hrun with
  | done hok =>
      rw [List.flatMap_singleton]
      exact (execute_spec hok hnamed).atMostOne
  | last herror =>
      rw [List.flatMap_singleton]
      exact (execute_spec herror hnamed).atMostOne
  | again herror hrest ih =>
      have hfirst := (execute_spec herror hnamed).atMostOne
      rw [ih (named_of_execute herror hnamed), List.flatMap_cons,
        ← List.append_assoc, ← hfirst]

end Loop

/-- A request with at most `maxAttempts` attempts, from `client` on: the
attempts are made one after another, and these are their channels. -/
structure RetriedRun (env : Env β) (request : ρ) (maxAttempts : ℕ)
    (client : Client ρ β) (attempts : List (Attempt ρ β))
    (result : Except GrpcReadError β) (final : Client ρ β) : Prop where
  made : ∀ a ∈ attempts,
    a.before.execute env request = (a.result, a.after)
  first : attempts.head?.map BoundedRetry.Attempt.before = some client
  linked : attempts.IsChain fun a b => a.after = b.before
  calls : final.calls = client.calls ++ attempts.flatMap Attempt.calls
  atMost : attempts.length ≤ max 1 maxAttempts
  exactly : (∀ a ∈ attempts, a.Failed) → attempts.length = max 1 maxAttempts
  firstSuccess : ∀ a ∈ attempts.dropLast, a.Failed
  next : attempts.IsChain Attempt.Next
  last : ∃ a, attempts.getLast? = some a ∧ a.result = result ∧
    a.after = final ∧
    (a.Lost → final.holder = none) ∧
    (¬ a.Lost → ∃ channel, a.channel = some channel ∧
      final.holder = some channel)
  noChannel : ∀ a ∈ attempts,
    (∃ err, (a.before.getChannel env).1 = .error err) →
      a.calls = [] ∧ a.Lost ∧ a.after.holder = none ∧
        a.after.connects = a.before.connects + 5

theorem retriedRun_of_run
    {env : Env β} {request : ρ} {maxAttempts : ℕ} {client final : Client ρ β}
    {attempts : List (Attempt ρ β)} {result : Except GrpcReadError β}
    (hrun : BoundedRetry.Run (Client.execute env request) (maxAttempts - 1)
      client attempts result final)
    (hnamed : client.Named) :
    RetriedRun env request maxAttempts client attempts result final := by
  have hspec := run_spec hrun hnamed
  have hmax : maxAttempts - 1 + 1 = max 1 maxAttempts := by omega
  constructor
  · exact hrun.eq_of_mem
  · obtain ⟨_, _, hhead⟩ := hrun.head?_eq
    rw [hhead]
    rfl
  · exact hrun.isChain
  · exact run_calls hrun hnamed
  · rw [← hmax]
    exact hrun.length_le
  · intro hfailed
    rw [← hmax]
    exact hrun.length_eq hfailed
  · exact hrun.mem_dropLast
  · exact run_next hrun hnamed
  · obtain ⟨before, hlast⟩ := hrun.getLast?_eq
    have hmem := List.mem_of_getLast? hlast
    exact ⟨_, hlast, rfl, rfl, (hspec _ hmem).lost, (hspec _ hmem).kept⟩
  · intro a ha ⟨err, hget⟩
    have hempty : a.calls = [] :=
      calls_of_eq (calls_of_getChannel_error (hrun.eq_of_mem a ha) hget)
    have hnone : a.channel = none := by
      rw [Attempt.channel, hempty]
      rfl
    obtain ⟨hcalls, hlost, hconnects⟩ := (hspec a ha).noChannel hnone
    exact ⟨hcalls, hlost, (hspec a ha).lost hlost, hconnects⟩

/-- The four loops make the same attempts, with the same calls, result and
holder, and a request of at most one attempt is the plain request. -/
theorem retried_request_meaning
    (env : Env β) (start : Start ρ β) (contract : ρ)
    (requestTimeout maxAttempts : ℕ) :
    ∃ result final,
      RetriedRun env contract maxAttempts start.client
          (BoundedRetry.history (Client.execute env contract) maxAttempts
            start.client)
          result final ∧
        (let builder : RequestBuilder ρ := ⟨contract, requestTimeout⟩
        let streamBuilder : RequestBuilderWithInputStream ρ :=
          ⟨contract, requestTimeout⟩
        let streamed : Except GrpcReadError (StreamedResponse β) :=
          result.map (StreamedResponse.mk · requestTimeout)
        (builder.withRetries maxAttempts).getResponse env start.client =
            (result, final) ∧
          (builder.withRetries maxAttempts).getStreamedResponse env
              start.client = (streamed, final) ∧
          (streamBuilder.withRetries maxAttempts).getResponse env
              start.client = (result, final) ∧
          (streamBuilder.withRetries maxAttempts).getStreamedResponse env
              start.client = (streamed, final) ∧
          (maxAttempts ≤ 1 →
            builder.getResponse env start.client = (result, final) ∧
            builder.getStreamedResponse env start.client =
              (streamed, final) ∧
            streamBuilder.getResponse env start.client = (result, final) ∧
            streamBuilder.getStreamedResponse env start.client =
              (streamed, final))) := by
  obtain ⟨result, final, hrun⟩ := BoundedRetry.run_history
    (Client.execute env contract) maxAttempts start.client
  have hplain := hrun.loop_eq id
  rw [Except.map_id] at hplain
  have hstreamed := hrun.loop_eq (StreamedResponse.mk · requestTimeout)
  refine ⟨result, final, retriedRun_of_run hrun start.named, hplain,
    hstreamed, hplain, hstreamed, fun hone => ?_⟩
  -- The loop makes its first attempt whatever the bound is.
  have hexecute : start.client.execute env contract = (result, final) := by
    have hleft : maxAttempts - 1 = 0 := by omega
    rw [hleft] at hrun
    exact hrun.attempt_eq
  have hstream : (match start.client.execute env contract with
      | (.ok result, after) => (.ok ⟨result, requestTimeout⟩, after)
      | (.error err, after) => (.error err, after)) =
      ((result.map (StreamedResponse.mk · requestTimeout), final) :
        Except GrpcReadError (StreamedResponse β) × Client ρ β) := by
    rw [hexecute]
    cases result with
    | ok result => rfl
    | error err => rfl
  exact ⟨hexecute, hstream, hexecute, hstream⟩

/-- Every connect succeeds; the calls end with a time out, with the status
`Unknown`, with an answer of the server and with a response. -/
def failingEnv : Env ℕ where
  unixSocket := false
  connect := fun _ => .connected
  execute := fun
    | 0 => .timeout
    | 1 => .status ⟨.unknown, "transport error"⟩
    | 2 => .status ⟨.alreadyExists, ""⟩
    | _ => .response 5

/-- The channels of the first two calls are lost, the third one is kept. -/
theorem retried_request_meaning_three_failures :
    ∃ result final,
      RetriedRun failingEnv 7 4 Start.held.client
          (BoundedRetry.history (Client.execute failingEnv 7) 4
            Start.held.client)
          result final ∧
        final.calls = [⟨0, 7, .timeout⟩,
          ⟨1, 7, .status ⟨.unknown, "transport error"⟩⟩,
          ⟨2, 7, .status ⟨.alreadyExists, ""⟩⟩, ⟨2, 7, .response 5⟩] ∧
        final.holder = some 2 := by
  obtain ⟨result, final, hrun, hresponse, _⟩ :=
    retried_request_meaning failingEnv Start.held 7 10 4
  have hfinal : (((⟨7, 10⟩ : RequestBuilder ℕ).withRetries 4).getResponse
      failingEnv Start.held.client).2 = final := by
    rw [hresponse]
  have hcreate : ∀ client : Client ℕ ℕ, client.createChannel failingEnv =
      (.ok client.connects, { client with
        holder := some client.connects
        connects := client.connects + 1 }) := by
    intro client
    simp only [Client.createChannel, Client.connectToUnixSocket, ite_self,
      BoundedRetry.loop_eq_retry]
    rfl
  have hanswers : failingEnv.execute 0 = .timeout ∧
      failingEnv.execute 1 = .status ⟨.unknown, "transport error"⟩ ∧
      failingEnv.execute 2 = .status ⟨.alreadyExists, ""⟩ ∧
      failingEnv.execute 3 = .response 5 := ⟨rfl, rfl, rfl, rfl⟩
  refine ⟨result, final, hrun, ?_, ?_⟩ <;>
    · rw [← hfinal, RequestBuilderWithRetries.getResponse,
        BoundedRetry.loop_eq_retry]
      simp [RequestBuilder.withRetries, BoundedRetry.retry, Client.execute,
        Client.executeOn, Client.getChannel, hcreate, Client.callExecutor,
        hanswers, Client.dropDeadChannel, Client.dropChannel,
        dropChannelIfNeeded_holder, Start.held, Client.new]

end GrpcChannel
end GrpcExtensions
