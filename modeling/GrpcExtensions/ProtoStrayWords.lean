import GrpcExtensions.ProtoFileRoundTrip

/-!
# The words `service` and `rpc` outside a service block

The reader reacts to the two words wherever they stand alone.  After a word
`service` the next token becomes the service name.  After a word `rpc` the
next token becomes the name of an rpc, which is stored when a bracket is
closed and a semicolon follows, and until then nothing else is heard.
-/

namespace GrpcExtensions
namespace ProtoFileReader

theorem exists_first_not
    {α : Type} (good : α → Prop) {items : List α}
    (hbad : ¬ ∀ x ∈ items, good x) :
    ∃ front x back, items = front ++ x :: back ∧
      (∀ y ∈ front, good y) ∧ ¬ good x := by
  induction items with
  | nil => simp at hbad
  | cons x items ih =>
      by_cases hx : good x
      · have hrest : ¬ ∀ y ∈ items, good y := by
          intro hall
          apply hbad
          simpa [hx] using hall
        obtain ⟨front, y, back, rfl, hfront, hy⟩ := ih hrest
        refine ⟨x :: front, y, back, rfl, ?_, hy⟩
        simpa [hx] using hfront
      · exact ⟨[], x, items, rfl, by simp, hx⟩

section Calls

variable {r base : Reader} {name : String}

/-- An rpc of this name was begun at rest in the state `base`. -/
structure Reader.Begun (r base : Reader) (name : String)
    (current : CurrentToken) : Prop where
  currentToken : r.currentToken = current
  serviceName : r.serviceName = base.serviceName
  rpc : r.rpc = base.rpc
  rpcName : r.rpcName = some name

theorem readTokens_begin
    (hrest : base.currentToken = .none) (name : String) :
    ∃ after, base.readTokens ["rpc", name] = .ok after ∧
      after.Begun base name .rpcExpectingInputParameter := by
  refine ⟨{ base with
      rpcName := some name
      inputParamName := ""
      outParamName := ""
      currentToken := .rpcExpectingInputParameter }, ?_, rfl, rfl, rfl, rfl⟩
  rw [Reader.readTokens_cons_of_ok (Reader.Reads.rpc hrest).readToken_eq]
  rfl

theorem readToken_input_begun
    (hbegun : r.Begun base name .rpcExpectingInputParameter)
    {token : String} (hclose : token ≠ ")") :
    ∃ after, r.readToken token = .ok after ∧
      after.Begun base name .rpcExpectingInputParameter := by
  by_cases hopen : token = "("
  · subst hopen
    exact ⟨r, (Reader.Reads.inputOpen hbegun.currentToken).readToken_eq,
      hbegun⟩
  · exact ⟨_, readToken_input hbegun.currentToken hopen hclose,
      hbegun.currentToken, hbegun.serviceName, hbegun.rpc, hbegun.rpcName⟩

theorem readToken_output_begun
    (hbegun : r.Begun base name .rpcExpectingOutputParameter)
    {token : String} (hend : token ≠ ";") :
    ∃ after, r.readToken token = .ok after ∧
      after.Begun base name .rpcExpectingOutputParameter := by
  have hcurrent := hbegun.currentToken
  by_cases hskipped : token = "returns" ∨ token = "(" ∨ token = ")"
  · exact ⟨r, (Reader.Reads.outputSkipped hcurrent hskipped).readToken_eq,
      hbegun⟩
  · exact ⟨_, (Reader.Reads.outputWord hcurrent hskipped hend).readToken_eq,
      hcurrent, hbegun.serviceName, hbegun.rpc, hbegun.rpcName⟩

theorem readTokens_input_begun
    (hbegun : r.Begun base name .rpcExpectingInputParameter)
    {tokens : List String} (hclose : ")" ∉ tokens) :
    ∃ after, r.readTokens tokens = .ok after ∧
      after.Begun base name .rpcExpectingInputParameter := by
  have hallowed : ∀ token ∈ tokens, token ≠ ")" := by
    rintro token htoken rfl
    exact hclose htoken
  exact Reader.readTokens_keeps
    (fun _ _ hkept hallowed => readToken_input_begun hkept hallowed)
    hbegun hallowed

theorem readTokens_output_begun
    (hbegun : r.Begun base name .rpcExpectingOutputParameter)
    {tokens : List String} (hend : ";" ∉ tokens) :
    ∃ after, r.readTokens tokens = .ok after ∧
      after.Begun base name .rpcExpectingOutputParameter := by
  have hallowed : ∀ token ∈ tokens, token ≠ ";" := by
    rintro token htoken rfl
    exact hend htoken
  exact Reader.readTokens_keeps
    (fun _ _ hkept hallowed => readToken_output_begun hkept hallowed)
    hbegun hallowed

theorem readToken_close
    (hbegun : r.Begun base name .rpcExpectingInputParameter) :
    ∃ after, r.readToken ")" = .ok after ∧
      after.Begun base name .rpcExpectingOutputParameter := by
  exact ⟨_, (Reader.Reads.inputClose hbegun.currentToken).readToken_eq, rfl,
    hbegun.serviceName, hbegun.rpc, hbegun.rpcName⟩

theorem readToken_store
    (hbegun : r.Begun base name .rpcExpectingOutputParameter)
    (hping : name ≠ "Ping") :
    ∃ after rpc, r.readToken ";" = .ok after ∧
      after.rpc = base.rpc ++ [rpc] ∧ rpc.name = name := by
  have hstore : r.storeRpc = .ok { r with
      rpc := base.rpc ++ [⟨name, r.inputParamName, r.outParamName⟩]
      currentToken := .none } := by
    simp [Reader.storeRpc, hbegun.rpcName, hbegun.rpc, hping]
  exact ⟨_, _, (Reader.Reads.stored hbegun.currentToken hstore).readToken_eq,
    rfl, rfl⟩

/-- A bracket is closed and a semicolon comes after it. -/
def Closes (tokens : List String) : Prop :=
  [")", ";"].Sublist tokens

instance : DecidablePred Closes :=
  fun tokens => inferInstanceAs (Decidable ([")", ";"].Sublist tokens))

theorem closes_append_iff
    {inner outer : List String} (hinner : ")" ∉ inner) :
    Closes (inner ++ ")" :: outer) ↔ ";" ∈ outer := by
  unfold Closes
  induction inner with
  | nil =>
      rw [List.nil_append, List.cons_sublist_cons, List.singleton_sublist]
  | cons token inner ih =>
      have htoken : ")" ≠ token := by
        intro heq
        simp [heq] at hinner
      have htail : ")" ∉ inner := by
        intro hmem
        simp [hmem] at hinner
      rw [List.cons_append, ← ih htail]
      constructor
      · intro hsub
        cases hsub with
        | cons _ hrest => exact hrest
        | cons_cons _ _ => exact absurd rfl htoken
      · intro hsub
        exact hsub.cons token

theorem readTokens_of_not_closes
    (hbegun : r.Begun base name .rpcExpectingInputParameter)
    {tokens : List String} (hopen : ¬ Closes tokens) :
    ∃ after, r.readTokens tokens = .ok after ∧
      after.serviceName = base.serviceName ∧ after.rpc = base.rpc := by
  by_cases hclose : ")" ∈ tokens
  · obtain ⟨inner, outer, rfl, hinner⟩ :=
      List.eq_append_cons_of_mem hclose
    have hend : ";" ∉ outer := by
      rwa [closes_append_iff hinner] at hopen
    obtain ⟨first, hfirst, hbegunFirst⟩ :=
      readTokens_input_begun hbegun hinner
    obtain ⟨second, hsecond, hbegunSecond⟩ := readToken_close hbegunFirst
    obtain ⟨after, hlast, hafter⟩ := readTokens_output_begun hbegunSecond hend
    refine ⟨after, ?_, hafter.serviceName, hafter.rpc⟩
    rw [Reader.readTokens_append_of_ok hfirst,
      Reader.readTokens_cons_of_ok hsecond, hlast]
  · obtain ⟨after, hread, hafter⟩ := readTokens_input_begun hbegun hclose
    exact ⟨after, hread, hafter.serviceName, hafter.rpc⟩

theorem readTokens_of_closes
    (hbegun : r.Begun base name .rpcExpectingInputParameter)
    (hping : name ≠ "Ping")
    {tokens : List String} (hcloses : Closes tokens) :
    ∃ front back after rpc, tokens = front ++ back ∧
      r.readTokens front = .ok after ∧
      after.rpc = base.rpc ++ [rpc] ∧ rpc.name = name := by
  have hclose : ")" ∈ tokens := hcloses.subset (by simp)
  obtain ⟨inner, outer, rfl, hinner⟩ := List.eq_append_cons_of_mem hclose
  have hend : ";" ∈ outer := (closes_append_iff hinner).mp hcloses
  obtain ⟨middle, back, rfl, hmiddle⟩ := List.eq_append_cons_of_mem hend
  obtain ⟨first, hfirst, hbegunFirst⟩ := readTokens_input_begun hbegun hinner
  obtain ⟨second, hsecond, hbegunSecond⟩ := readToken_close hbegunFirst
  obtain ⟨third, hthird, hbegunThird⟩ :=
    readTokens_output_begun hbegunSecond hmiddle
  obtain ⟨after, rpc, hlast, hrpc, hname⟩ := readToken_store hbegunThird hping
  refine ⟨inner ++ ")" :: (middle ++ [";"]), back, after, rpc, by simp, ?_,
    hrpc, hname⟩
  rw [Reader.readTokens_append_of_ok hfirst,
    Reader.readTokens_cons_of_ok hsecond,
    Reader.readTokens_append_of_ok hthird,
    Reader.readTokens_cons_of_ok hlast]
  rfl

/-- What reading one token can do. -/
structure Reader.Effects (r : Reader) (token : String) (after : Reader) :
    Prop where
  rpc : r.rpc <+: after.rpc
  serviceName : after.serviceName = r.serviceName ∨
    r.currentToken = .service ∧ after.serviceName = some token
  service : after.currentToken = .service →
    r.currentToken = .none ∧ token = "service"

theorem effects_of_storeRpc
    {stored : Reader} (hstore : r.storeRpc = .ok stored) (token : String) :
    r.Effects token stored := by
  unfold Reader.storeRpc at hstore
  cases hname : r.rpcName with
  | none => simp [hname] at hstore
  | some name =>
      simp only [hname, Except.ok.injEq] at hstore
      rw [← hstore]
      refine ⟨?_, .inl rfl, by simp⟩
      by_cases hping : name = "Ping" <;> simp [hping]

theorem effects_of_readToken
    {after : Reader} {token : String} (hread : r.readToken token = .ok after) :
    r.Effects token after := by
  have hsame : r.currentToken ≠ .service → r.Effects token r := by
    intro hcurrent
    exact ⟨List.prefix_refl _, .inl rfl, fun h => absurd h hcurrent⟩
  cases Reader.reads_of_readToken hread with
  | quiet hcurrent hquiet => exact hsame (by simp [hcurrent])
  | service hcurrent =>
      exact ⟨List.prefix_refl _, .inl rfl, fun _ => ⟨hcurrent, rfl⟩⟩
  | rpc hcurrent => exact ⟨List.prefix_refl _, .inl rfl, by simp⟩
  | serviceName _ hcurrent =>
      exact ⟨List.prefix_refl _, .inr ⟨hcurrent, rfl⟩, by simp⟩
  | rpcName _ hcurrent => exact ⟨List.prefix_refl _, .inl rfl, by simp⟩
  | inputOpen hcurrent => exact hsame (by simp [hcurrent])
  | inputClose hcurrent => exact ⟨List.prefix_refl _, .inl rfl, by simp⟩
  | inputWord hcurrent hopen hclose =>
      exact ⟨List.prefix_refl _, .inl rfl, by simp [hcurrent]⟩
  | outputSkipped hcurrent hskipped => exact hsame (by simp [hcurrent])
  | outputWord hcurrent hskipped hend =>
      exact ⟨List.prefix_refl _, .inl rfl, by simp [hcurrent]⟩
  | stored hcurrent hstore =>
      have hstored := effects_of_storeRpc hstore ";"
      exact ⟨hstored.rpc, hstored.serviceName, hstored.service⟩

theorem readTokens_cons_eq_ok
    {after : Reader} {token : String} {tokens : List String}
    (hread : r.readTokens (token :: tokens) = .ok after) :
    ∃ middle, r.readToken token = .ok middle ∧
      middle.readTokens tokens = .ok after := by
  unfold Reader.readTokens at hread
  rw [List.foldlM_cons] at hread
  cases hfirst : r.readToken token with
  | error panic =>
      rw [hfirst] at hread
      cases hread
  | ok middle =>
      rw [hfirst] at hread
      exact ⟨middle, rfl, hread⟩

theorem readTokens_monotone
    {after : Reader} {tokens : List String}
    (hread : r.readTokens tokens = .ok after) :
    r.rpc <+: after.rpc := by
  induction tokens generalizing r with
  | nil =>
      cases hread
      exact List.prefix_refl _
  | cons token tokens ih =>
      obtain ⟨middle, hfirst, hrest⟩ := readTokens_cons_eq_ok hread
      exact (effects_of_readToken hfirst).rpc.trans (ih hrest)

/-- An rpc that is not among those read was never stored. -/
theorem not_closes_of_absent
    (hbegun : r.Begun base name .rpcExpectingInputParameter)
    (hping : name ≠ "Ping")
    {after : Reader} {tokens : List String}
    (hread : r.readTokens tokens = .ok after)
    (habsent : ∀ rpc ∈ after.rpc, rpc.name ≠ name) :
    ¬ Closes tokens ∧ after.serviceName = base.serviceName ∧
      after.rpc = base.rpc := by
  have hopen : ¬ Closes tokens := by
    intro hcloses
    obtain ⟨front, back, middle, rpc, rfl, hfront, hrpc, hname⟩ :=
      readTokens_of_closes hbegun hping hcloses
    rw [Reader.readTokens_append_of_ok hfront] at hread
    have hmem : rpc ∈ middle.rpc := by simp [hrpc]
    exact habsent rpc ((readTokens_monotone hread).subset hmem) hname
  obtain ⟨last, hlast, hservice, hrpc⟩ :=
    readTokens_of_not_closes hbegun hopen
  rw [hlast] at hread
  cases hread
  exact ⟨hopen, hservice, hrpc⟩

end Calls

section Names

/-- The service name behind tokens without the word `rpc`. -/
def lastService (serviceName : Option String) : List String → Option String
  | [] => serviceName
  | [_] => serviceName
  | token :: next :: tokens =>
      if token = "service" then lastService (some next) tokens
      else lastService serviceName (next :: tokens)

/-- The last token is one that the reader passes over. -/
def Complete (tokens : List String) : Prop :=
  ∀ token ∈ tokens.getLast?, Quiet token

theorem complete_of_cons
    {token : String} {tokens : List String}
    (hcomplete : Complete (token :: tokens)) : Complete tokens := by
  cases tokens with
  | nil => simp [Complete]
  | cons next tokens => simpa [Complete] using hcomplete

theorem lastService_of_noService
    (serviceName : Option String)
    {tokens : List String} (hservice : "service" ∉ tokens) :
    lastService serviceName tokens = serviceName := by
  fun_induction lastService serviceName tokens with
  | case1 serviceName => rfl
  | case2 serviceName token => rfl
  | case3 serviceName next tokens ih => simp at hservice
  | case4 serviceName token next tokens hne ih =>
      apply ih
      intro hmem
      exact hservice (List.mem_cons_of_mem token hmem)

theorem readTokens_noRpc
    {r : Reader} {serviceName : Option String} {rpcs : List Signature}
    (hrest : r.AtRest serviceName rpcs)
    {tokens : List String} (hrpc : "rpc" ∉ tokens)
    (hcomplete : Complete tokens) :
    ∃ after, r.readTokens tokens = .ok after ∧
      after.AtRest (lastService serviceName tokens) rpcs := by
  fun_induction lastService serviceName tokens generalizing r with
  | case1 serviceName => exact ⟨r, rfl, hrest⟩
  | case2 serviceName token =>
      have hquiet : Quiet token := hcomplete token (by simp)
      have hread := readToken_quiet hrest.currentToken hquiet
      exact ⟨r, Reader.readTokens_cons_of_ok hread [], hrest⟩
  | case3 serviceName next tokens ih =>
      obtain ⟨middle, hservice, hmiddle⟩ := readTokens_service hrest next
      have htail : "rpc" ∉ tokens := by
        intro hmem
        simp [hmem] at hrpc
      obtain ⟨after, hread, hafter⟩ := ih hmiddle htail
        (complete_of_cons (complete_of_cons hcomplete))
      refine ⟨after, ?_, hafter⟩
      exact (Reader.readTokens_append_of_ok hservice tokens).trans hread
  | case4 serviceName token next tokens hservice ih =>
      have hquiet : Quiet token := by
        refine ⟨hservice, ?_⟩
        rintro rfl
        simp at hrpc
      have htail : "rpc" ∉ next :: tokens := by
        intro hmem
        exact hrpc (List.mem_cons_of_mem token hmem)
      rw [Reader.readTokens_cons_of_ok
        (readToken_quiet hrest.currentToken hquiet)]
      exact ih hrest htail (complete_of_cons hcomplete)

theorem lastService_cases
    (serviceName : Option String)
    {tokens : List String} (hcomplete : Complete tokens) :
    ("service" ∉ tokens ∧ lastService serviceName tokens = serviceName) ∨
      ∃ next, ["service", next] <:+: tokens ∧
        lastService serviceName tokens = some next := by
  fun_induction lastService serviceName tokens with
  | case1 serviceName => exact .inl ⟨by simp, rfl⟩
  | case2 serviceName token =>
      have hquiet : Quiet token := hcomplete token (by simp)
      exact .inl ⟨by simpa using Ne.symm hquiet.1, rfl⟩
  | case3 serviceName next tokens ih =>
      rcases ih (complete_of_cons (complete_of_cons hcomplete)) with
        ⟨_, hlast⟩ | ⟨other, hadjacent, hlast⟩
      · exact .inr ⟨next, ⟨[], tokens, rfl⟩, hlast⟩
      · exact .inr ⟨other, hadjacent.trans ⟨["service", next], [], by simp⟩,
          hlast⟩
  | case4 serviceName token next tokens hservice ih =>
      rcases ih (complete_of_cons hcomplete) with
        ⟨hnone, hlast⟩ | ⟨other, hadjacent, hlast⟩
      · refine .inl ⟨?_, hlast⟩
        intro hmem
        rcases List.mem_cons.mp hmem with heq | hmem
        · exact hservice heq.symm
        · exact hnone hmem
      · exact .inr ⟨other, hadjacent.trans ⟨[token], [], by simp⟩, hlast⟩

end Names

end ProtoFileReader
end GrpcExtensions
