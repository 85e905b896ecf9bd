import GrpcExtensions.ChannelHolderRetries
import GrpcExtensions.RequestRuns
import Mathlib.Data.Nat.Count
import Mathlib.Data.Set.Function

/-!
# A request alone on a shared holder

A request that no other party interferes with does on the shared holder what
the retry loop of one client says: the attempts, the connects, the calls with
their channels and outcomes, the holder that it leaves and the result are the
same.  The client names a channel by the position of its connect, the shared
holder by the number of the channels made so far.
-/

namespace GrpcExtensions
namespace ChannelHolder
namespace Retried

open GrpcChannel (Call ChannelId Client ConnectOutcome Env ExecuteOutcome
  GrpcReadError)

universe u v w

variable {ρ : Type u} {β : Type v} {γ : Type w}

def runOutcome : ExecuteOutcome β → RunOutcome
  | .response _ => .response
  | .timeout => .timeout
  | .status status => .status status

/-- The channel of a call that ends, and how it ends. -/
def called (s : State) : Action → Option (ChannelId × RunOutcome)
  | .finish p outcome =>
      match s.shared.pc p with
      | .running c => some (c, outcome)
      | _ => none
  | _ => none

def connectOutcome : Action → Option ConnectOutcome
  | .connect _ outcome => some outcome
  | _ => none

def resultOf : Except GrpcReadError γ → Result
  | .ok _ => .response
  | .error _ => .error

/-- The holder has the client's channel, under its name there. -/
structure Tracks (name : ChannelId → ChannelId) (client : Client ρ β)
    (s : State) : Prop where
  holder : s.shared.holder = client.holder.map name
  named : client.Named

section Names

variable (env : Env β)

/-- The connect at this position makes a channel. -/
def Connects (k : ℕ) : Prop :=
  env.connect k = .connected

instance : DecidablePred (Connects env) := fun k =>
  match hconnect : env.connect k with
  | .connected => .isTrue hconnect
  | .failed _ => .isFalse (by simp [Connects, hconnect])
  | .timeout => .isFalse (by simp [Connects, hconnect])

/-- The channels that the first connects make. -/
def channelsMade (connects : ℕ) : ℕ :=
  Nat.count (Connects env) connects

/-- The channels of a client between two of its states: the one that it held
and those that it has made since. -/
def Known (client after : Client ρ β) (c : ChannelId) : Prop :=
  c < after.connects ∧
    (client.holder = some c ∨ (client.connects ≤ c ∧ Connects env c))

/-- Older names are kept, and the channels that are made get the next numbers
of the shared holder in the order of their connects. -/
structure Numbered (name name' : ChannelId → ChannelId)
    (client after : Client ρ β) (s t : State) : Prop where
  old : ∀ c < client.connects, name' c = name c
  new : ∀ c, client.connects ≤ c → c < after.connects → Connects env c →
    channelsMade env client.connects + name' c =
      channelsMade env c + s.shared.fresh
  fresh : channelsMade env client.connects + t.shared.fresh =
    channelsMade env after.connects + s.shared.fresh

end Names

/-- What one client does from `client` to `after`, a request does alone from
`s` to `t`. -/
structure Ran (maxAttempts : ℕ → ℕ) (env : Env β) (req : ℕ)
    (name name' : ChannelId → ChannelId) (client after : Client ρ β)
    (s : State) (acts : List Action) (t : State) : Prop where
  run : TransitionSystem.exec (step maxAttempts) s acts = some t
  own : ∀ a ∈ acts, a.party = .request req
  tracks : Tracks name' after t
  names : Numbered env name name' client after s t
  connects : ∃ count, after.connects = client.connects + count ∧
    acts.filterMap connectOutcome =
      (List.range' client.connects count).map env.connect
  held : ∀ c, after.holder = some c → Known env client after c
  calls : ∃ new, after.calls = client.calls ++ new ∧
    (∀ call ∈ new, Known env client after call.channel) ∧
    TransitionSystem.outputs (step maxAttempts) called s acts =
      new.map fun call => (name' call.channel, runOutcome call.outcome)

section Composition

variable {maxAttempts : ℕ → ℕ} {env : Env β} {req : ℕ}
variable {name name' name'' : ChannelId → ChannelId}
variable {client mid after : Client ρ β} {s m t : State}
variable {front back acts : List Action}

theorem numbered_of_same
    (name : ChannelId → ChannelId)
    (hconnects : after.connects = client.connects)
    (hfresh : t.shared.fresh = s.shared.fresh) :
    Numbered env name name client after s t := by
  constructor
  · intro c _
    rfl
  · intro c hfirst hlast _
    omega
  · rw [hconnects, hfresh]

theorem Numbered.trans
    (hfront : Numbered env name name' client mid s m)
    (hback : Numbered env name' name'' mid after m t)
    (hle : client.connects ≤ mid.connects) :
    Numbered env name name'' client after s t := by
  constructor
  · intro c hc
    rw [hback.old c (by omega), hfront.old c hc]
  · intro c hfirst hlast hmade
    have hfresh := hfront.fresh
    by_cases hmid : c < mid.connects
    · rw [hback.old c hmid]
      exact hfront.new c hfirst hmid hmade
    · have hnew := hback.new c (by omega) hlast hmade
      omega
  · have hfirst := hfront.fresh
    have hsecond := hback.fresh
    omega

theorem Known.mono {c : ChannelId}
    (hknown : Known env client mid c) (hle : mid.connects ≤ after.connects) :
    Known env client after c :=
  ⟨Nat.lt_of_lt_of_le hknown.1 hle, hknown.2⟩

/-- What is known behind a part of the run was known or has been made. -/
theorem Known.trans {c : ChannelId}
    (hheld : ∀ c, mid.holder = some c → Known env client mid c)
    (hle : client.connects ≤ mid.connects)
    (hmid : mid.connects ≤ after.connects)
    (hknown : Known env mid after c) : Known env client after c := by
  rcases hknown with ⟨hlt, hholder | ⟨hfirst, hmade⟩⟩
  · exact (hheld c hholder).mono hmid
  · exact ⟨hlt, Or.inr ⟨hle.trans hfirst, hmade⟩⟩

theorem Ran.trans
    (hfront : Ran maxAttempts env req name name' client mid s front m)
    (hback : Ran maxAttempts env req name' name'' mid after m back t) :
    Ran maxAttempts env req name name'' client after s (front ++ back) t := by
  rcases hfront.connects with ⟨first, hmid, hfirst⟩
  rcases hback.connects with ⟨second, hafter, hsecond⟩
  have hle : client.connects ≤ mid.connects := by omega
  have hmidLe : mid.connects ≤ after.connects := by omega
  constructor
  · exact TransitionSystem.exec_append_eq_some.mpr ⟨m, hfront.run, hback.run⟩
  · intro a ha
    rcases List.mem_append.mp ha with ha | ha
    · exact hfront.own a ha
    · exact hback.own a ha
  · exact hback.tracks
  · exact hfront.names.trans hback.names hle
  · refine ⟨first + second, by omega, ?_⟩
    rw [List.filterMap_append, hfirst, hsecond, hmid, ← List.map_append,
      List.range'_append_1]
  · intro c hc
    exact (hback.held c hc).trans hfront.held hle hmidLe
  · rcases hfront.calls with ⟨new, hnew, hchannels, houtputs⟩
    rcases hback.calls with ⟨new', hnew', hchannels', houtputs'⟩
    refine ⟨new ++ new', ?_, ?_, ?_⟩
    · rw [hnew', hnew, List.append_assoc]
    · intro call hcall
      rcases List.mem_append.mp hcall with hcall | hcall
      · exact (hchannels call hcall).mono hmidLe
      · exact (hchannels' call hcall).trans hfront.held hle hmidLe
    · rw [TransitionSystem.outputs_append_of_exec hfront.run, houtputs,
        houtputs', List.map_append]
      congr 1
      apply List.map_congr_left
      intro call hcall
      rw [hback.names.old _ (hchannels call hcall).1]

/-- Different channels have different names. -/
theorem Ran.injOn
    (hran : Ran maxAttempts env req name name' client after s acts t)
    (hnamed : client.Named)
    (hheld : ∀ c, client.holder = some c → name c < s.shared.fresh) :
    Set.InjOn name' {c | Known env client after c} := by
  have hold : ∀ c, client.holder = some c → name' c < s.shared.fresh := by
    intro c hc
    rw [hran.names.old c (hnamed c hc)]
    exact hheld c hc
  have hnew : ∀ c, Known env client after c → client.connects ≤ c →
      Connects env c → s.shared.fresh ≤ name' c := by
    intro c hknown hfirst hmade
    have hmono : channelsMade env client.connects ≤ channelsMade env c :=
      Nat.count_monotone _ hfirst
    have hnumber := Nat.add_le_add_right hmono s.shared.fresh
    rw [← hran.names.new c hfirst hknown.1 hmade] at hnumber
    exact Nat.le_of_add_le_add_left hnumber
  intro c hc d hd heq
  rcases hc.2 with hholder | ⟨hfirst, hmade⟩ <;>
    rcases hd.2 with hholder' | ⟨hfirst', hmade'⟩
  · exact Option.some.inj (hholder.symm.trans hholder')
  · have hlt := hold c hholder
    rw [heq] at hlt
    exact absurd (hnew d hd hfirst' hmade') (Nat.not_le.mpr hlt)
  · have hlt := hold d hholder'
    rw [← heq] at hlt
    exact absurd (hnew c hc hfirst hmade) (Nat.not_le.mpr hlt)
  · have hnumber := hran.names.new c hfirst hc.1 hmade
    have hnumber' := hran.names.new d hfirst' hd.1 hmade'
    rw [heq] at hnumber
    have hcount : channelsMade env c = channelsMade env d := by omega
    exact Nat.count_injective hmade hmade' hcount

end Composition

section Blocks

variable {maxAttempts : ℕ → ℕ} {env : Env β} {req : ℕ}
variable {name : ChannelId → ChannelId} {client : Client ρ β} {s : State}

variable (maxAttempts) in
/-- A step of the request that does not end its attempt. -/
theorem step_attempting
    {a : Action} {shared : ChannelHolder.State}
    (hown : a.party = .request req) (hnone : (s.request req).result = none)
    (hstep : ChannelHolder.step s.shared a = some shared)
    (hbusy : shared.pc (.request req) ≠ .idle) :
    step maxAttempts s a = some { s with shared := shared } := by
  unfold step
  rw [hown]
  simp only [hnone, if_true, hstep, Option.map_some, afterAction, hown]

variable (maxAttempts) in
/-- The step of the request that ends its attempt. -/
theorem step_ended
    {a : Action} {shared : ChannelHolder.State}
    (hown : a.party = .request req) (hnone : (s.request req).result = none)
    (hstep : ChannelHolder.step s.shared a = some shared)
    (hidle : shared.pc (.request req) = .idle) :
    step maxAttempts s a =
      some { shared := shared
             request := Function.update s.request req
               ((s.request req).afterAttempt (maxAttempts req)
                 (attemptResult a)) } := by
  unfold step
  rw [hown]
  simp only [hnone, if_true, hstep, Option.map_some, afterAction, hown, hidle]

theorem exec_singleton {t : State} {a : Action}
    (hstep : step maxAttempts s a = some t) :
    TransitionSystem.exec (step maxAttempts) s [a] = some t :=
  TransitionSystem.exec_cons_eq_some.mpr ⟨t, hstep, rfl⟩

theorem outputs_singleton {t : State} {a : Action}
    (hstep : step maxAttempts s a = some t) :
    TransitionSystem.outputs (step maxAttempts) called s [a] =
      (called s a).toList := by
  rw [TransitionSystem.outputs_cons_of_step hstep]
  exact List.append_nil _

/-- A step in which the client neither connects nor calls. -/
theorem ran_quiet {t : State} {a : Action}
    (hstep : step maxAttempts s a = some t)
    (hown : a.party = .request req) (htracks : Tracks name client t)
    (hfresh : t.shared.fresh = s.shared.fresh)
    (hconnect : connectOutcome a = none) (hcalled : called s a = none) :
    Ran maxAttempts env req name name client client s [a] t := by
  constructor
  · exact exec_singleton hstep
  · intro b hb
    rw [List.mem_singleton.mp hb]
    exact hown
  · exact htracks
  · exact numbered_of_same name rfl hfresh
  · exact ⟨0, rfl, by rw [List.filterMap_cons_none hconnect]; rfl⟩
  · intro c hc
    exact ⟨htracks.named c hc, Or.inl hc⟩
  · refine ⟨[], (List.append_nil _).symm, by simp, ?_⟩
    rw [outputs_singleton hstep, hcalled]
    rfl

/-- A connect that fails uses up one position. -/
theorem ran_connect {t : State} {p : Party}
    (hstep : step maxAttempts s (.connect p (env.connect client.connects)) =
      some t)
    (hown : p = .request req)
    (hfailed : env.connect client.connects ≠ .connected)
    (hfresh : t.shared.fresh = s.shared.fresh)
    (htracks : Tracks name { client with connects := client.connects + 1 } t) :
    Ran maxAttempts env req name name client
      { client with connects := client.connects + 1 } s
      [.connect p (env.connect client.connects)] t := by
  constructor
  · exact exec_singleton hstep
  · intro b hb
    rw [List.mem_singleton.mp hb]
    exact hown
  · exact htracks
  · constructor
    · intro c _
      rfl
    · intro c hfirst hlast hmade
      have heq : c = client.connects := by
        dsimp only at hlast
        omega
      rw [heq] at hmade
      exact absurd hmade hfailed
    · have hsame : channelsMade env (client.connects + 1) =
          channelsMade env client.connects :=
        Nat.count_succ_eq_count hfailed
      dsimp only
      rw [hsame, hfresh]
  · exact ⟨1, rfl, rfl⟩
  · intro c hc
    exact ⟨htracks.named c hc, Or.inl hc⟩
  · refine ⟨[], (List.append_nil _).symm, by simp, ?_⟩
    rw [outputs_singleton hstep]
    rfl

end Blocks

section Connects

variable {env : Env β} {client after : Client ρ β}

theorem connected_of_ok {channel : ChannelId}
    (honce : client.connectOnce env = (.ok channel, after)) :
    env.connect client.connects = .connected := by
  cases hconnect : env.connect client.connects with
  | connected => rfl
  | failed err => simp [Client.connectOnce, hconnect] at honce
  | timeout => simp [Client.connectOnce, hconnect] at honce

theorem not_connected_of_error {err : GrpcReadError}
    (honce : client.connectOnce env = (.error err, after)) :
    env.connect client.connects ≠ .connected := by
  intro hconnect
  simp [Client.connectOnce, hconnect] at honce

/-- A connect that fails, while others are left or for the last time. -/
theorem connect_failed
    {s : ChannelHolder.State} {p : Party} {attemptNo : ℕ}
    {outcome : ConnectOutcome} (hpc : s.pc p = .connecting attemptNo)
    (hfailed : outcome ≠ .connected) :
    ChannelHolder.step s (.connect p outcome) =
      some (if attemptNo > 3 then s.goto p .idle
        else s.goto p (.connecting (attemptNo + 1))) := by
  cases outcome with
  | connected => exact absurd rfl hfailed
  | failed err =>
      simp only [ChannelHolder.step, hpc]
      split <;> rfl
  | timeout =>
      simp only [ChannelHolder.step, hpc]
      split <;> rfl

end Connects

section Attempt

variable {maxAttempts : ℕ → ℕ} {env : Env β} {req : ℕ}

/-- Where the request is when `get_channel` has returned. -/
def Got (maxAttempts : ℕ → ℕ) (req : ℕ) (name : ChannelId → ChannelId)
    (s t : State) : Except GrpcReadError ChannelId → Prop
  | .ok channel =>
      t.shared.pc (.request req) = .running (name channel) ∧
        t.request = s.request
  | .error _ =>
      t.shared.pc (.request req) = .idle ∧
        t.request req = (s.request req).afterAttempt (maxAttempts req) .error

/-- The connect that succeeds, and the `set` of its channel. -/
theorem ran_connected
    {name : ChannelId → ChannelId} {client : Client ρ β} {s : State}
    {attemptNo : ℕ} (hpc : s.shared.pc (.request req) = .connecting attemptNo)
    (hnone : (s.request req).result = none)
    (hconnect : env.connect client.connects = .connected) :
    ∃ acts t name',
      Ran maxAttempts env req name name' client
          { client with
            holder := some client.connects
            connects := client.connects + 1 } s acts t ∧
        Got maxAttempts req name' s t (.ok client.connects) := by
  let p := Party.request req
  let connected : State :=
    { s with shared :=
        { s.shared.goto p (.installing s.shared.fresh) with
          fresh := s.shared.fresh + 1 } }
  let installed : State :=
    { s with shared :=
        { connected.shared.goto p (.running s.shared.fresh) with
          holder := some s.shared.fresh
          installs := s.shared.installs ++ [s.shared.fresh] } }
  have hfirst : step maxAttempts s (.connect p .connected) =
      some connected := by
    apply step_attempting maxAttempts rfl hnone
    · simp only [ChannelHolder.step, hpc, p]
    · simp [p]
  have hsame : (connected.request req).result = none := hnone
  have hsecond : step maxAttempts connected (.set p) = some installed := by
    apply step_attempting maxAttempts rfl hsame
    · simp only [ChannelHolder.step, connected, goto_pc_self]
      rfl
    · simp [p]
  refine ⟨[.connect p .connected, .set p], installed,
    Function.update name client.connects s.shared.fresh, ?_, ?_, rfl⟩
  · constructor
    · exact TransitionSystem.exec_cons_eq_some.mpr
        ⟨connected, hfirst, exec_singleton hsecond⟩
    · intro a ha
      rcases List.mem_cons.mp ha with rfl | ha
      · rfl
      · rw [List.mem_singleton.mp ha]
        rfl
    · constructor
      · simp [installed]
      · intro channel hchannel
        cases hchannel
        exact Nat.lt_succ_self _
    · have hsucc : channelsMade env (client.connects + 1) =
          channelsMade env client.connects + 1 :=
        Nat.count_succ_eq_succ_count hconnect
      constructor
      · intro c hc
        exact Function.update_of_ne (Nat.ne_of_lt hc) _ _
      · intro c hfirst hlast _
        have heq : c = client.connects := by
          dsimp only at hlast
          omega
        rw [heq, Function.update_self]
      · have hnext : installed.shared.fresh = s.shared.fresh + 1 := rfl
        dsimp only
        rw [hsucc, hnext]
        omega
    · refine ⟨1, rfl, ?_⟩
      simp [connectOutcome, hconnect]
    · intro c hc
      cases hc
      exact ⟨Nat.lt_succ_self _, Or.inr ⟨le_rfl, hconnect⟩⟩
    · refine ⟨[], (List.append_nil _).symm, by simp, ?_⟩
      rw [TransitionSystem.outputs_cons_of_step hfirst,
        outputs_singleton hsecond]
      rfl
  · simp [installed, p]

theorem Ran.then_got
    {name name' name'' : ChannelId → ChannelId}
    {client mid after : Client ρ β} {s m : State} {front : List Action}
    {outcome : Except GrpcReadError ChannelId}
    (hfront : Ran maxAttempts env req name name' client mid s front m)
    (hsame : m.request = s.request)
    (hback : ∃ acts t, Ran maxAttempts env req name' name'' mid after m acts t ∧
      Got maxAttempts req name'' m t outcome) :
    ∃ acts t, Ran maxAttempts env req name name'' client after s acts t ∧
      Got maxAttempts req name'' s t outcome := by
  rcases hback with ⟨acts, t, hran, hgot⟩
  refine ⟨front ++ acts, t, hfront.trans hran, ?_⟩
  cases outcome with
  | ok channel => exact ⟨hgot.1, hgot.2.trans hsame⟩
  | error err => exact ⟨hgot.1, by rw [hgot.2, hsame]⟩

variable (maxAttempts) in
/-- The connect loop, from one of its turns on. -/
theorem ran_connects
    {left : ℕ} {client after : Client ρ β}
    {outcome : Except GrpcReadError ChannelId}
    {name : ChannelId → ChannelId} {s : State} {attemptNo : ℕ}
    (hloop : BoundedRetry.retry (Client.connectOnce env) id left client =
      (outcome, after))
    (hturn : attemptNo + left = 4)
    (hpc : s.shared.pc (.request req) = .connecting attemptNo)
    (hnone : (s.request req).result = none)
    (htracks : Tracks name client s) :
    ∃ name' acts t, Ran maxAttempts env req name name' client after s acts t ∧
      Got maxAttempts req name' s t outcome := by
  induction left, client using
      BoundedRetry.retry_induction (Client.connectOnce env)
      generalizing name s attemptNo with
  | done hok =>
      rw [BoundedRetry.retry_of_ok hok] at hloop
      cases hloop
      have hconnect := connected_of_ok hok
      rcases GrpcChannel.connectOnce_ok hok with ⟨rfl, rfl⟩
      rcases ran_connected hpc hnone hconnect with
        ⟨acts, t, name', hran, hgot⟩
      exact ⟨name', acts, t, hran, hgot⟩
  | @last client err mid herror =>
      rw [BoundedRetry.retry_zero_of_error herror] at hloop
      cases hloop
      have hfailed := connect_failed hpc (not_connected_of_error herror)
      rcases GrpcChannel.connectOnce_error herror with ⟨_, rfl⟩
      rw [if_pos (by omega)] at hfailed
      have hstep := step_ended maxAttempts
        rfl hnone hfailed (goto_pc_self ..)
      have hafter : ∀ t : State, t.shared.holder = s.shared.holder →
          Tracks name { client with connects := client.connects + 1 } t :=
        fun t heq => ⟨heq.trans htracks.holder,
          fun c hc => Nat.lt_succ_of_lt (htracks.named c hc)⟩
      exact ⟨name, _, _, ran_connect hstep rfl
        (not_connected_of_error herror) rfl (hafter _ rfl),
        goto_pc_self .., Function.update_self ..⟩
  | @again left client err mid herror ih =>
      rw [BoundedRetry.retry_succ_of_error herror] at hloop
      have hfailed := connect_failed hpc (not_connected_of_error herror)
      rcases GrpcChannel.connectOnce_error herror with ⟨_, rfl⟩
      rw [if_neg (by omega)] at hfailed
      have hstep := step_attempting maxAttempts
        rfl hnone hfailed (by simp)
      let m : State :=
        { s with shared :=
            s.shared.goto (.request req) (.connecting (attemptNo + 1)) }
      have hmid : Tracks name
          { client with connects := client.connects + 1 } m :=
        ⟨htracks.holder, fun c hc => Nat.lt_succ_of_lt (htracks.named c hc)⟩
      have hnext : m.shared.pc (.request req) = .connecting (attemptNo + 1) :=
        goto_pc_self ..
      rcases ih hloop (by omega) hnext hnone hmid with ⟨name', hrest⟩
      exact ⟨name', (ran_connect hstep rfl (not_connected_of_error herror) rfl
        hmid).then_got rfl hrest⟩

variable (maxAttempts) in
/-- `get_channel` on the shared holder. -/
theorem ran_getChannel
    {client after : Client ρ β} {outcome : Except GrpcReadError ChannelId}
    {name : ChannelId → ChannelId} {s : State}
    (hget : client.getChannel env = (outcome, after))
    (hidle : s.shared.pc (.request req) = .idle)
    (hnone : (s.request req).result = none)
    (htracks : Tracks name client s) :
    ∃ name' acts t, Ran maxAttempts env req name name' client after s acts t ∧
      Got maxAttempts req name' s t outcome := by
  cases hholder : client.holder with
  | some channel =>
      rw [Client.getChannel, hholder] at hget
      cases hget
      have hheld : s.shared.holder = some (name channel) := by
        rw [htracks.holder, hholder]
        rfl
      have hget : ChannelHolder.step s.shared (.get (.request req)) =
          some (s.shared.goto (.request req) (.running (name channel))) := by
        simp only [ChannelHolder.step, hidle, hheld]
      have hstep := step_attempting maxAttempts
        rfl hnone hget (by simp)
      exact ⟨name, _, _, ran_quiet hstep rfl ⟨htracks.holder, htracks.named⟩
        rfl rfl rfl, goto_pc_self .., rfl⟩
  | none =>
      have hempty : s.shared.holder = none := by
        rw [htracks.holder, hholder]
        rfl
      rw [Client.getChannel, hholder] at hget
      have hloop : BoundedRetry.retry (Client.connectOnce env) id 4 client =
          (outcome, after) := by
        rw [← hget]
        simp only [Client.createChannel, Client.connectToUnixSocket, ite_self,
          BoundedRetry.loop_eq_retry]
      have hget : ChannelHolder.step s.shared (.get (.request req)) =
          some (s.shared.goto (.request req) (.connecting 0)) := by
        simp only [ChannelHolder.step, hidle, hempty]
      have hstep := step_attempting maxAttempts
        rfl hnone hget (by simp)
      let m : State :=
        { s with shared := s.shared.goto (.request req) (.connecting 0) }
      have hmid : Tracks name client m := ⟨htracks.holder, htracks.named⟩
      have hnext : m.shared.pc (.request req) = .connecting 0 :=
        goto_pc_self ..
      have hfree : (m.request req).result = none := hnone
      rcases ran_connects maxAttempts hloop rfl hnext hfree
          hmid with ⟨name', hrest⟩
      exact ⟨name', (ran_quiet hstep rfl hmid rfl rfl rfl).then_got rfl hrest⟩

/-- The client has called its executor on a channel. -/
def afterCall (client : Client ρ β) (channel : ChannelId) (contract : ρ)
    (outcome : ExecuteOutcome β) : Client ρ β :=
  { client with calls := client.calls ++ [⟨channel, contract, outcome⟩] }

/-- Where the request is when `execute` has returned. -/
def Executed (maxAttempts : ℕ → ℕ) (req : ℕ) (s t : State)
    (result : Except GrpcReadError γ) : Prop :=
  t.shared.pc (.request req) = .idle ∧
    t.request req =
      (s.request req).afterAttempt (maxAttempts req) (resultOf result)

theorem canMeet_runOutcome (outcome : ExecuteOutcome β) :
    (Party.request req).canMeet (runOutcome outcome) = true := by
  cases outcome <;> rfl

section Call

variable {client : Client ρ β} {name : ChannelId → ChannelId} {s : State}
variable {channel : ChannelId} {contract : ρ} {outcome : ExecuteOutcome β}

theorem called_finish
    (hpc : s.shared.pc (.request req) = .running (name channel)) :
    called s (.finish (.request req) (runOutcome outcome)) =
      some (name channel, runOutcome outcome) := by
  simp only [called, hpc]

/-- The call ends and the channel stays where it is. -/
theorem ran_answered
    (hpc : s.shared.pc (.request req) = .running (name channel))
    (hnone : (s.request req).result = none)
    (hheld : client.holder = some channel)
    (halive : (runOutcome outcome).dropsChannel = false)
    (htracks : Tracks name client s) :
    ∃ acts t,
      Ran maxAttempts env req name name client
          (afterCall client channel contract outcome) s acts t ∧
        t.shared.pc (.request req) = .idle ∧
        t.request req = (s.request req).afterAttempt (maxAttempts req)
          (attemptResult
            (.finish (.request req) (runOutcome outcome))) := by
  have hfinish : ChannelHolder.step s.shared
      (.finish (.request req) (runOutcome outcome)) =
        some (s.shared.goto (.request req) .idle) := by
    simp only [ChannelHolder.step, hpc, canMeet_runOutcome, halive, if_true,
      Bool.false_eq_true, if_false]
  have hstep := step_ended maxAttempts rfl
    hnone hfinish (goto_pc_self ..)
  refine ⟨_, _, ⟨exec_singleton hstep, ?_, ?_, numbered_of_same name rfl rfl,
    ⟨0, rfl, rfl⟩, ?_, ⟨[⟨channel, contract, outcome⟩], rfl, ?_, ?_⟩⟩,
    goto_pc_self .., Function.update_self ..⟩
  · intro a ha
    rw [List.mem_singleton.mp ha]
    rfl
  · exact ⟨htracks.holder, htracks.named⟩
  · intro c hc
    exact ⟨htracks.named c hc, Or.inl hc⟩
  · intro call hcall
    rw [List.mem_singleton.mp hcall]
    exact ⟨htracks.named channel hheld, Or.inl hheld⟩
  · rw [outputs_singleton hstep, called_finish hpc]
    rfl

/-- The call fails and the holder is emptied. -/
theorem ran_dropped
    (hpc : s.shared.pc (.request req) = .running (name channel))
    (hnone : (s.request req).result = none)
    (hheld : client.holder = some channel)
    (hdead : (runOutcome outcome).dropsChannel = true)
    (htracks : Tracks name client s) :
    ∃ acts t,
      Ran maxAttempts env req name name client
          (afterCall client channel contract outcome).dropChannel s acts t ∧
        t.shared.pc (.request req) = .idle ∧
        t.request req =
          (s.request req).afterAttempt (maxAttempts req) .error := by
  let failed : State :=
    { s with shared :=
        s.shared.goto (.request req) (.dropping (name channel)) }
  have hfinish : ChannelHolder.step s.shared
      (.finish (.request req) (runOutcome outcome)) = some failed.shared := by
    simp only [ChannelHolder.step, hpc, canMeet_runOutcome, hdead, if_true,
      failed]
  have hfirst := step_attempting maxAttempts
    rfl hnone hfinish (by simp [failed])
  have hsame : (failed.request req).result = none := hnone
  have hdrop : ChannelHolder.step failed.shared (.drop (.request req)) =
      some { failed.shared.goto (.request req) .idle with
        holder := none } := by
    simp only [ChannelHolder.step, failed, goto_pc_self]
  have hsecond := step_ended maxAttempts rfl
    hsame hdrop (goto_pc_self ..)
  refine ⟨_, _, ⟨TransitionSystem.exec_cons_eq_some.mpr
      ⟨_, hfirst, exec_singleton hsecond⟩, ?_, ?_,
    numbered_of_same name rfl rfl, ⟨0, rfl, rfl⟩, ?_,
    ⟨[⟨channel, contract, outcome⟩], rfl, ?_, ?_⟩⟩,
    goto_pc_self .., Function.update_self ..⟩
  · intro a ha
    rcases List.mem_cons.mp ha with rfl | ha
    · rfl
    · rw [List.mem_singleton.mp ha]
      rfl
  · constructor
    · rfl
    · intro c hc
      contradiction
  · intro c hc
    contradiction
  · intro call hcall
    rw [List.mem_singleton.mp hcall]
    exact ⟨htracks.named channel hheld, Or.inl hheld⟩
  · rw [TransitionSystem.outputs_cons_of_step hfirst,
      outputs_singleton hsecond, called_finish hpc]
    rfl

variable (maxAttempts) in
/-- The executor is called on the channel and its outcome is looked at. -/
theorem ran_call
    {result : Except GrpcReadError β} {after : Client ρ β}
    (hcall :
      (match client.callExecutor env contract channel with
      | (.timeout, after) => (.error .timeout, after.dropDeadChannel)
      | (.response result, after) => (.ok result, after)
      | (.status status, after) =>
          (.error (.tonicStatus status),
            (after.dropChannelIfNeeded (.tonicStatus status)).2)) =
        (result, after))
    (hpc : s.shared.pc (.request req) = .running (name channel))
    (hnone : (s.request req).result = none)
    (hheld : client.holder = some channel)
    (htracks : Tracks name client s) :
    ∃ acts t, Ran maxAttempts env req name name client after s acts t ∧
      Executed maxAttempts req s t result := by
  unfold Client.callExecutor at hcall
  cases houtcome : env.execute client.calls.length with
  | timeout =>
      simp only [houtcome] at hcall
      cases hcall
      have hdead : (runOutcome (.timeout : ExecuteOutcome β)).dropsChannel =
          true := rfl
      exact ran_dropped hpc hnone hheld hdead htracks
  | response answer =>
      simp only [houtcome] at hcall
      cases hcall
      have halive : (runOutcome (.response answer)).dropsChannel = false := rfl
      exact ran_answered hpc hnone hheld halive htracks
  | status status =>
      simp only [houtcome, GrpcChannel.dropChannelIfNeeded_holder] at hcall
      cases hcall
      have hdrops : (runOutcome
          (.status status : ExecuteOutcome β)).dropsChannel =
          (GrpcReadError.tonicStatus status).declaresDead := rfl
      by_cases hcode : status.code = .unknown
      · rw [if_pos hcode]
        have hdead : (runOutcome
            (.status status : ExecuteOutcome β)).dropsChannel = true := by
          simp [hdrops, GrpcReadError.declaresDead, hcode]
        exact ran_dropped hpc hnone hheld hdead htracks
      · rw [if_neg hcode]
        have halive : (runOutcome
            (.status status : ExecuteOutcome β)).dropsChannel = false := by
          simp [hdrops, GrpcReadError.declaresDead, hcode]
        exact ran_answered hpc hnone hheld halive htracks

end Call

variable (maxAttempts) in
/-- One attempt. -/
theorem ran_execute
    {client after : Client ρ β} {contract : ρ}
    {result : Except GrpcReadError β}
    {name : ChannelId → ChannelId} {s : State}
    (hexecute : client.executeOn env contract = (result, after))
    (hidle : s.shared.pc (.request req) = .idle)
    (hnone : (s.request req).result = none)
    (htracks : Tracks name client s) :
    ∃ name' acts t, Ran maxAttempts env req name name' client after s acts t ∧
      Executed maxAttempts req s t result := by
  unfold Client.executeOn at hexecute
  cases hget : client.getChannel env with
  | mk outcome connected =>
      rw [hget] at hexecute
      rcases ran_getChannel maxAttempts hget hidle hnone
          htracks with ⟨name', front, m, hfront, hgot⟩
      cases outcome with
      | error err =>
          cases hexecute
          exact ⟨name', front, m, hfront, hgot⟩
      | ok channel =>
          have hheld := (GrpcChannel.getChannel_got hget).holder_eq
          have hsame : (m.request req).result = none := by
            rw [hgot.2]
            exact hnone
          rcases ran_call maxAttempts hexecute hgot.1 hsame hheld
              hfront.tracks with ⟨back, t, hback, hend⟩
          refine ⟨name', front ++ back, t, hfront.trans hback, hend.1, ?_⟩
          rw [hend.2, hgot.2]

end Attempt

section Loop

variable {maxAttempts : ℕ → ℕ} {env : Env β} {contract : ρ} {req : ℕ}

/-- The attempts of a retry loop, from one of them on. -/
theorem ran_attempts
    {left attemptNo : ℕ} {client after : Client ρ β}
    {attempts : List (BoundedRetry.Attempt (Client ρ β) GrpcReadError β)}
    {result : Except GrpcReadError β}
    {name : ChannelId → ChannelId} {s : State}
    (hattempts : BoundedRetry.Run (Client.executeOn env contract) left client
      attempts result after)
    (hleft : left = maxAttempts req - (attemptNo + 1))
    (hidle : s.shared.pc (.request req) = .idle)
    (hrequest : s.request req = ⟨attemptNo, none⟩)
    (htracks : Tracks name client s) :
    ∃ name' acts t, Ran maxAttempts env req name name' client after s acts t ∧
      t.shared.pc (.request req) = .idle ∧
      (t.request req).result = some (resultOf result) ∧
      (t.request req).attemptsMade = attemptNo + attempts.length := by
  have hnone : (s.request req).result = none := by rw [hrequest]
  induction hattempts generalizing name s attemptNo with
  | done hok =>
      rcases ran_execute maxAttempts hok hidle hnone htracks
        with ⟨name', acts, t, hran, hend⟩
      refine ⟨name', acts, t, hran, hend.1, ?_, ?_⟩ <;>
        · rw [hend.2, hrequest]
          rfl
  | last herror =>
      have hlast : attemptNo + 1 ≥ maxAttempts req := by omega
      rcases ran_execute maxAttempts herror hidle hnone
        htracks with ⟨name', acts, t, hran, hend⟩
      refine ⟨name', acts, t, hran, hend.1, ?_, ?_⟩ <;>
        · rw [hend.2, hrequest]
          simp [resultOf, Request.afterAttempt, hlast, Request.attemptsMade]
  | @again left client mid final err attempts result herror _ ih =>
      have hmore : ¬ attemptNo + 1 ≥ maxAttempts req := by omega
      rcases ran_execute maxAttempts herror hidle hnone
        htracks with ⟨name', front, m, hfront, hend⟩
      have hagain : m.request req = ⟨attemptNo + 1, none⟩ := by
        rw [hend.2, hrequest]
        simp only [resultOf, Request.afterAttempt, if_neg hmore]
      rcases ih (by omega) hend.1 hagain hfront.tracks (by rw [hagain]) with
        ⟨name'', back, t, hback, hreturned, hresult, hmade⟩
      refine ⟨name'', front ++ back, t, hfront.trans hback, hreturned,
        hresult, ?_⟩
      rw [hmade, List.length_cons]
      omega

theorem resultOf_map (onOk : β → γ) (result : Except GrpcReadError β) :
    resultOf (result.map onOk) = resultOf result := by
  cases result <;> rfl

end Loop

/-- The outcome of a retry loop is that of a run in which the request is alone:
it returns the same result after as many attempts, with the same connects,
calls and holder, and the channels differ in their names only. -/
def Refined (maxAttempts : ℕ → ℕ) (env : Env β) (contract : ρ) (req : ℕ)
    (name : ChannelId → ChannelId) (client : Client ρ β) (s : State)
    (outcome : Except GrpcReadError γ × Client ρ β) : Prop :=
  let attempts := BoundedRetry.history (Client.executeOn env contract)
    (maxAttempts req) client
  ∃ name' acts t,
    Ran maxAttempts env req name name' client outcome.2 s acts t ∧
      Set.InjOn name' {c | Known env client outcome.2 c} ∧
      t.shared.pc (.request req) = .idle ∧
      (t.request req).result = some (resultOf outcome.1) ∧
      (t.request req).attemptsMade = attempts.length ∧
      acts.countP (begins (.request req)) = attempts.length

section Refinement

variable {maxAttempts : ℕ → ℕ} {env : Env β} {contract : ρ} {req : ℕ}
variable {name : ChannelId → ChannelId} {client : Client ρ β} {s : State}

theorem refined_loop
    (onOk : β → γ) (hidle : s.shared.pc (.request req) = .idle)
    (hrequest : s.request req = ⟨0, none⟩) (hsound : s.shared.Sound)
    (htracks : Tracks name client s) :
    Refined maxAttempts env contract req name client s
      (BoundedRetry.loop (Client.executeOn env contract) onOk
        (maxAttempts req) 0 client) := by
  rcases BoundedRetry.run_history (Client.executeOn env contract)
      (maxAttempts req) client with ⟨result, final, hattempts⟩
  have hleft : maxAttempts req - 1 = maxAttempts req - (0 + 1) := rfl
  rcases ran_attempts hattempts hleft hidle hrequest htracks with
      ⟨name', acts, t, hran, hreturned, hresult, hmade⟩
  have hheld : ∀ c, client.holder = some c → name c < s.shared.fresh := by
    intro c hc
    have hholder : s.shared.holder = some (name c) := by
      rw [htracks.holder, hc]
      rfl
    rcases hsound.held _ hholder with ⟨older, hinstalls⟩
    apply hsound.made
    rw [hinstalls]
    exact Or.inl (List.mem_append_right older (List.mem_singleton_self _))
  have hbegun : attemptsBegun req s + acts.countP (begins (.request req)) =
      attemptsBegun req t := countP_begins hran.run
  unfold attemptsBegun at hbegun
  rw [hrequest, hidle, hreturned] at hbegun
  rw [hattempts.loop_eq onOk]
  refine ⟨name', acts, t, hran, hran.injOn htracks.named hheld, hreturned,
    ?_, ?_, ?_⟩
  · rw [hresult, resultOf_map]
  · rw [hmade, Nat.zero_add]
  · rw [hmade] at hbegun
    simpa [Request.attemptsMade, ongoing] using hbegun

end Refinement

/-- Every request that is alone on a sound holder does what its retry loop
says. -/
theorem retried_request_refines
    (env : Env β) (client : GrpcChannel.Start ρ β) (contract : ρ)
    (requestTimeout : ℕ) (maxAttempts : ℕ → ℕ) (req : ℕ)
    (name : ChannelId → ChannelId) {s : State} (hsound : s.shared.Sound)
    (hidle : s.shared.pc (.request req) = .idle)
    (hrequest : s.request req = ⟨0, none⟩)
    (hholder : s.shared.holder = client.client.holder.map name) :
    let builder : GrpcChannel.RequestBuilderWithRetries ρ :=
      ⟨contract, requestTimeout, maxAttempts req⟩
    let streamBuilder :
        GrpcChannel.RequestBuilderWithInputStreamWithRetries ρ :=
      ⟨contract, requestTimeout, maxAttempts req⟩
    Refined maxAttempts env contract req name client.client s
        (builder.getResponse env client.client) ∧
      Refined maxAttempts env contract req name client.client s
        (builder.getStreamedResponse env client.client) ∧
      Refined maxAttempts env contract req name client.client s
        (streamBuilder.getResponse env client.client) ∧
      Refined maxAttempts env contract req name client.client s
        (streamBuilder.getStreamedResponse env client.client) := by
  have htracks : Tracks name client.client s := ⟨hholder, client.named⟩
  exact ⟨refined_loop _ hidle hrequest hsound htracks,
    refined_loop _ hidle hrequest hsound htracks,
    refined_loop _ hidle hrequest hsound htracks,
    refined_loop _ hidle hrequest hsound htracks⟩

/-- The first connect times out and the first call is answered `Unknown`. -/
def flakyEnv : Env ℕ where
  unixSocket := false
  connect := fun k => if k = 0 then .timeout else .connected
  execute := fun k =>
    if k = 0 then .status ⟨.unknown, "transport error"⟩ else .response k

theorem retried_request_refines_flaky :
    let builder : GrpcChannel.RequestBuilderWithRetries ℕ := ⟨7, 10, 2⟩
    Refined (fun _ => 2) flakyEnv 7 5 (fun c => c) Client.new start
      (builder.getResponse flakyEnv Client.new) := by
  intro builder
  have hall := retried_request_refines flakyEnv .empty 7 10 (fun _ => 2) 5
    (fun c => c) (s := start) start_sound rfl rfl rfl
  exact hall.1

end Retried
end ChannelHolder
end GrpcExtensions
