import GrpcExtensions.ReadGrpcStream
import GrpcExtensions.ServerStream

/-!
# What a client collects of a server's stream

A function of `grpc_server_streams.rs` makes contracts of a source, and a
function of `read_grpc_stream.rs` makes a collection of the contracts that it
reads.  If the client can tell from a contract what it was made of, then a
collection is made of an initial part of the source, and of the whole source
if and only if nothing panicked and no send timed out.  A collector that
returns normally does not tell the client which it was.
-/

namespace GrpcExtensions
namespace CollectedStreams

open ChannelTask (Message Task carried)
open GrpcChannel (GrpcReadError Status)
open LastInsertion (DistinctKeys lastValue)
open ReadGrpcStream
open ServerStream (Call Mapped chunkLoop sendLoop)

universe v

variable {ι β δ ε κ ν : Type}

section Sends

/-- The contract tells what it was made of. -/
def Unpacks (unpack : β → List ι) (m : Message ι (Except ε β)) : Prop :=
  ∃ contract, m.contract = .ok contract ∧ unpack contract = m.items

/-- What the arguments of a call make of the source can be undone. -/
def Packs (unpack : β → List ι) : Call ι β → Prop
  | .sendSingleItemToStream item => unpack item = [item]
  | .sendFromIterator _ into =>
      ∀ itm contract, into itm = some contract → unpack contract = [itm]
  | .sendFromIteratorWithTransformation _ mapping =>
      ∀ itm contract, mapping itm = some contract → unpack contract = [itm]
  | .sendVecToStreamByChunks _ _ _ mapping transformToContract =>
      ∀ items dests contract, Mapped mapping items dests →
        transformToContract dests = some contract → unpack contract = items
  | .sendHashMapToStream _ mapping =>
      ∀ key value contract, mapping key value = some contract →
        unpack contract = [(key, value)]

variable {P : Message ι (Except ε β) → Prop}

theorem sendLoop_sends
    {mapping : ι → Option β}
    (hmapping : ∀ itm contract, mapping itm = some contract →
      P ⟨.ok contract, [itm]⟩) (src : List ι) :
    (sendLoop mapping src : Task ι (Except ε β)).Sends P := by
  induction src with
  | nil => trivial
  | cons itm src ih =>
      rw [sendLoop]
      cases hcontract : mapping itm with
      | none => trivial
      | some contract =>
          refine ⟨hmapping itm contract hcontract, ?_⟩
          intro result
          cases result with
          | sent => exact ih
          | timeout => trivial
          | closed => trivial

theorem chunkLoop_sends
    {mapping : ι → Option δ} {transformToContract : List δ → Option β}
    (htransform : ∀ items dests contract, Mapped mapping items dests →
      transformToContract dests = some contract → P ⟨.ok contract, items⟩)
    (chunkSize : ℕ) (src : List ι) {chunk : List δ} {items : List ι}
    (hchunk : Mapped mapping items chunk) :
    (chunkLoop chunkSize mapping transformToContract src chunk items :
      Task ι (Except ε β)).Sends P := by
  induction src generalizing chunk items with
  | nil =>
      rw [chunkLoop]
      by_cases hne : chunk = []
      · rw [hne]
        trivial
      · rw [ServerStream.chunkTail_of_ne_nil transformToContract hne]
        cases hcontract : transformToContract chunk with
        | none => trivial
        | some contract =>
            exact ⟨htransform items chunk contract hchunk hcontract,
              fun _ => trivial⟩
  | cons itm src ih =>
      rw [chunkLoop]
      cases hdest : mapping itm with
      | none => trivial
      | some dest =>
          have hlonger : Mapped mapping (items ++ [itm]) (chunk ++ [dest]) :=
            List.rel_append hchunk (.cons hdest .nil)
          dsimp only
          split
          next => exact ih hlonger
          next =>
            cases hcontract : transformToContract (chunk ++ [dest]) with
            | none => trivial
            | some contract =>
                refine ⟨htransform _ _ contract hlonger hcontract, ?_⟩
                intro result
                cases result with
                | sent => exact ih .nil
                | timeout => trivial
                | closed => trivial

theorem stream_sends
    {unpack : β → List ι} {call : Call ι β} (hpacks : Packs unpack call) :
    (call.stream ε).task.Sends (Unpacks unpack) := by
  cases call with
  | sendSingleItemToStream item =>
      exact ⟨⟨item, rfl, hpacks⟩, fun _ => trivial⟩
  | sendFromIterator src into =>
      exact sendLoop_sends
        (fun itm contract hinto => ⟨contract, rfl, hpacks itm contract hinto⟩)
        src
  | sendFromIteratorWithTransformation src mapping =>
      exact sendLoop_sends
        (fun itm contract hmap => ⟨contract, rfl, hpacks itm contract hmap⟩)
        src
  | sendVecToStreamByChunks sizeOfDest src chunkSize mapping transform =>
      simp only [Call.stream, ServerStream.sendVecToStreamByChunks]
      split
      next => trivial
      next =>
        exact chunkLoop_sends
          (fun items dests contract hmapped htransform =>
            ⟨contract, rfl, hpacks items dests contract hmapped htransform⟩)
          chunkSize src .nil
  | sendHashMapToStream src mapping =>
      exact sendLoop_sends
        (fun entry contract hmap =>
          ⟨contract, rfl, hpacks entry.1 entry.2 contract hmap⟩) src

end Sends

section Reads

def readEvent : Except Status β → ReadEvent β
  | .ok contract => .item contract
  | .error err => .status err

def readEvents (messages : List (Message ι (Except Status β))) :
    List (ReadEvent β) :=
  messages.map fun m => readEvent m.contract

/-- What the reads of a client give: all that the stream has given and its
end, or a part of it and a failure of the transport or of the client's
clock. -/
inductive Reads (s : ChannelTask.State ι (Except Status β)) :
    List (ReadEvent β) → Prop
  | ended : s.channel.finished = true → Reads s (readEvents s.channel.received)
  | failed {messages : List (Message ι (Except Status β))}
      {event : ReadEvent β} :
      messages <+: s.channel.received → (∀ item, event ≠ .item item) →
      Reads s (readEvents messages ++ [event])

theorem firstFailure_append_failure
    (events : List (ReadEvent β)) {event : ReadEvent β}
    (hfailure : ∀ item, event ≠ .item item) :
    firstFailure (events ++ [event]) ≠ none := by
  induction events with
  | nil =>
      cases event with
      | item item => exact absurd rfl (hfailure item)
      | status err => simp [firstFailure]
      | timeout => simp [firstFailure]
  | cons first events ih =>
      cases first with
      | item item => exact ih
      | status err => simp [firstFailure]
      | timeout => simp [firstFailure]

/-- Reads without a failure give all the contracts. -/
theorem unpack_readEvents
    {unpack : β → List ι} {messages : List (Message ι (Except Status β))}
    (hunpacks : ∀ m ∈ messages, Unpacks unpack m) :
    (itemsBefore (readEvents messages)).flatMap unpack =
      carried messages := by
  induction messages with
  | nil => rfl
  | cons m messages ih =>
      rcases hunpacks m List.mem_cons_self with ⟨contract, hok, hitems⟩
      have hrest := ih fun m hm => hunpacks m (List.mem_cons_of_mem _ hm)
      unfold readEvents at hrest ⊢
      rw [List.map_cons, hok, readEvent, itemsBefore, List.flatMap_cons,
        hrest, hitems]
      rfl

/-- The client has been given the whole source. -/
def Complete (call : Call ι β) (acts : List ChannelTask.Action) : Prop :=
  call.NothingPanics ∧
    TransitionSystem.Along ChannelTask.step (fun _ a => a ≠ .timeout)
      (call.start Status) acts

variable {call : Call ι β} {acts : List ChannelTask.Action}
variable {s : ChannelTask.State ι (Except Status β)}

theorem carried_received_iff
    (hrun : TransitionSystem.exec ChannelTask.step (call.start Status) acts =
      some s) (hfinished : s.channel.finished = true) :
    carried s.channel.received <+: (call.stream Status).src ∧
      (carried s.channel.received = (call.stream Status).src ↔
        Complete call acts) := by
  have hstops := call.task_stopsOnFailure (ε := Status)
  have hsound := ChannelTask.exec_sound hstops hrun
  have hinitial := call.delivered_prefix (ε := Status)
  have hreach : carried s.channel.received <+:
      (call.stream Status).task.delivered := by
    rw [hsound.carried_received hfinished]
    exact hsound.reach
  refine ⟨hreach.trans hinitial, ?_⟩
  rw [Complete, ← call.delivered_iff_nothingPanics (ε := Status), Call.start,
    ← ChannelTask.delivered_iff_no_timeout hstops hrun hfinished]
  constructor
  · intro hall
    rw [hall] at hreach
    have hsame := hinitial.eq_of_length_le hreach.length_le
    exact ⟨hsame, hall.trans hsame.symm⟩
  · rintro ⟨hsame, hall⟩
    exact hall.trans hsame

theorem unpack_of_reads
    {unpack : β → List ι} (hpacks : Packs unpack call)
    (hrun : TransitionSystem.exec ChannelTask.step (call.start Status) acts =
      some s)
    {events : List (ReadEvent β)} (hreads : Reads s events)
    (hnone : firstFailure events = none) :
    (itemsBefore events).flatMap unpack <+: (call.stream Status).src ∧
      ((itemsBefore events).flatMap unpack = (call.stream Status).src ↔
        Complete call acts) := by
  cases hreads with
  | ended hfinished =>
      rw [unpack_readEvents]
      · exact carried_received_iff hrun hfinished
      · intro m hm
        exact ChannelTask.exec_sends (stream_sends hpacks) hrun m
          (s.channel.received_prefix_placed.subset hm)
  | failed hinitial hfailure =>
      exact absurd hnone (firstFailure_append_failure _ hfailure)

end Reads

section Collections

variable {call : Call ι β} {acts : List ChannelTask.Action}
variable {s : ChannelTask.State ι (Except Status β)}

theorem firstFailure_of_readLoop
    {σ : Type v} {add : σ → β → σ} {start result : σ}
    {events : List (ReadEvent β)}
    (hok : readLoop add start events = .ok result) :
    firstFailure events = none := by
  rw [readLoop_eq] at hok
  split at hok
  next hnone => exact hnone
  next => contradiction

/-- A vector that a client has collected is made of an initial part of the
source, chunked or not, and of all of it if and only if the server has got
through. -/
theorem collected_vec
    {TDest : Type v} {into : β → TDest} {unpack : TDest → List ι}
    (hpacks : Packs (unpack ∘ into) call)
    (hrun : TransitionSystem.exec ChannelTask.step (call.start Status) acts =
      some s)
    {events : List (ReadEvent β)} (hreads : Reads s events)
    {result : List TDest} (hok : asVec into events = .ok result) :
    result.flatMap unpack <+: (call.stream Status).src ∧
      (result.flatMap unpack = (call.stream Status).src ↔
        Complete call acts) := by
  have hnone := firstFailure_of_readLoop hok
  have hitems := unpack_of_reads hpacks hrun hreads hnone
  have hresult := readLoop_of_no_failure
    (fun result item => result ++ [into item]) hnone []
  rw [foldl_append_singleton, List.nil_append] at hresult
  rw [asVec, hresult, Except.ok.injEq] at hok
  rw [← hok, List.flatMap_map]
  exact hitems

/-- Five items in chunks of two: the client undoes the chunks. -/
theorem collected_vec_of_chunks :
    ∃ (call : Call ℕ (List ℕ)) (acts : List ChannelTask.Action)
      (s : ChannelTask.State ℕ (Except Status (List ℕ))),
      call = .sendVecToStreamByChunks 8 [1, 2, 3, 4, 5] 2 some some ∧
        TransitionSystem.exec ChannelTask.step (call.start Status) acts =
          some s ∧
        asVec id (readEvents s.channel.received) =
          .ok [[1, 2], [3, 4], [5]] ∧
        ([[1, 2], [3, 4], [5]].flatMap id = [1, 2, 3, 4, 5] ↔
          Complete call acts) := by
  have hrun : TransitionSystem.exec ChannelTask.step
      ((Call.sendVecToStreamByChunks 8 [1, 2, 3, 4, 5] 2 some some).start
        Status)
      [.send, .recv, .send, .send, .finish, .recv, .recv, .recv] =
        some _ := rfl
  have hpacks : Packs (id ∘ id) (Call.sendVecToStreamByChunks 8
      [1, 2, 3, 4, 5] 2 (some : ℕ → Option ℕ) some) := by
    rintro items dests contract hmapped ⟨⟩
    change dests = items
    induction hmapped with
    | nil => rfl
    | cons hdest _ ih =>
        cases hdest
        rw [ih]
  exact ⟨_, _, _, rfl, hrun, rfl,
    (collected_vec hpacks hrun (.ended rfl) rfl).2⟩

/-- The keys and values that are read are entries in the order they were
sent. -/
theorem getKey_of_reads
    {entries : List (κ × ν)} {mapping : κ → ν → Option β}
    {getKey : β → κ × ν}
    (hinverse : ∀ key value contract, mapping key value = some contract →
      getKey contract = (key, value))
    {acts : List ChannelTask.Action}
    {s : ChannelTask.State (κ × ν) (Except Status β)}
    (hrun : TransitionSystem.exec ChannelTask.step
      ((Call.sendHashMapToStream entries mapping).start Status) acts = some s)
    {events : List (ReadEvent β)} (hreads : Reads s events)
    (hnone : firstFailure events = none) :
    (itemsBefore events).map getKey <+: entries ∧
      ((itemsBefore events).map getKey = entries ↔
        Complete (Call.sendHashMapToStream entries mapping) acts) := by
  have hpacks : Packs (fun contract => [getKey contract])
      (Call.sendHashMapToStream entries mapping) := by
    intro key value contract hcontract
    exact congrArg (fun entry => [entry])
      (hinverse key value contract hcontract)
  have hitems := unpack_of_reads hpacks hrun hreads hnone
  rw [← List.map_eq_flatMap] at hitems
  exact hitems

variable [BEq κ] [LawfulBEq κ] [Hashable κ]

/-- The entries of a map, in any order, have a key once each and are found
again under it. -/
theorem distinctKeys_of_perm
    {src : Std.HashMap κ ν} {entries : List (κ × ν)}
    (hentries : entries.Perm src.toList) : DistinctKeys entries := by
  apply hentries.symm.pairwise Std.HashMap.distinct_keys_toList
  intro a b hne
  rwa [BEq.comm]

theorem lastValue_of_perm
    {src : Std.HashMap κ ν} {entries : List (κ × ν)}
    (hentries : entries.Perm src.toList) (key : κ) :
    lastValue key entries = src[key]? := by
  apply Option.ext
  intro value
  rw [LastInsertion.lastValue_eq_some_iff (distinctKeys_of_perm hentries),
    hentries.mem_iff, Std.HashMap.mem_toList_iff_getElem?_eq_some]

theorem asHashMap_getElem?
    {getKey : β → κ × ν} {events : List (ReadEvent β)}
    {result : Std.HashMap κ ν} (hok : asHashMap getKey events = .ok result)
    (key : κ) :
    result[key]? = lastValue key ((itemsBefore events).map getKey) := by
  have hresult := readLoop_of_no_failure
    (fun (result : Std.HashMap κ ν) item =>
      result.insert (getKey item).1 (getKey item).2)
    (firstFailure_of_readLoop hok) ∅
  rw [asHashMap, hresult, Except.ok.injEq] at hok
  rw [← hok]
  exact LastInsertion.hashMap_getElem? getKey _ key

/-- A map that is sent entry by entry, in any order, and collected again has
only entries of the map, and all of them if and only if the server has got
through.  The two collectors agree. -/
theorem collected_maps
    [Ord κ] [Std.TransOrd κ] [Std.LawfulBEqOrd κ]
    {src : Std.HashMap κ ν} {entries : List (κ × ν)}
    (hentries : entries.Perm src.toList)
    {mapping : κ → ν → Option β} {getKey : β → κ × ν}
    (hinverse : ∀ key value contract, mapping key value = some contract →
      getKey contract = (key, value))
    {acts : List ChannelTask.Action}
    {s : ChannelTask.State (κ × ν) (Except Status β)}
    (hrun : TransitionSystem.exec ChannelTask.step
      ((Call.sendHashMapToStream entries mapping).start Status) acts = some s)
    {events : List (ReadEvent β)} (hreads : Reads s events)
    {result : Std.HashMap κ ν} (hok : asHashMap getKey events = .ok result) :
    (∀ (key : κ) (value : ν), result[key]? = some value →
        src[key]? = some value) ∧
      ((∀ key : κ, result[key]? = src[key]?) ↔
        Complete (Call.sendHashMapToStream entries mapping) acts) ∧
      ∃ tree, asBTreeMap getKey events = .ok tree ∧
        ∀ key : κ, tree[key]? = result[key]? := by
  have hnone := firstFailure_of_readLoop hok
  have hfound := asHashMap_getElem? hok
  have hdistinct := distinctKeys_of_perm hentries
  rcases getKey_of_reads hinverse hrun hreads hnone with
      ⟨hinitial, hcomplete⟩
  refine ⟨?_, ?_, ?_⟩
  · intro key value hvalue
    have hkept := hdistinct.sublist hinitial.sublist
    rw [hfound, LastInsertion.lastValue_eq_some_iff hkept] at hvalue
    have hmem := hentries.mem_iff.mp (hinitial.subset hvalue)
    exact Std.HashMap.mem_toList_iff_getElem?_eq_some.mp hmem
  · rw [← hcomplete,
      ← LastInsertion.lastValue_prefix_iff hdistinct hinitial]
    simp only [hfound, lastValue_of_perm hentries]
  · refine ⟨_, readLoop_of_no_failure _ hnone ∅, ?_⟩
    intro key
    rw [hfound]
    exact LastInsertion.treeMap_getElem? getKey _ key

/-- The first entry is read before the second is sent. -/
theorem collected_maps_of_two :
    ∃ (src : Std.HashMap ℕ ℕ) (entries : List (ℕ × ℕ))
      (acts : List ChannelTask.Action)
      (s : ChannelTask.State (ℕ × ℕ) (Except Status (ℕ × ℕ)))
      (result : Std.HashMap ℕ ℕ),
      entries.Perm src.toList ∧ entries = [(1, 10), (2, 20)] ∧
        TransitionSystem.exec ChannelTask.step
          ((Call.sendHashMapToStream entries
            fun key value => some (key, value)).start Status) acts =
          some s ∧
        asHashMap id (readEvents s.channel.received) = .ok result ∧
        ((∀ key : ℕ, result[key]? = src[key]?) ↔
          Complete (Call.sendHashMapToStream entries
            fun key value => some (key, value)) acts) := by
  have hentries : [(1, 10), (2, 20)].Perm
      (((∅ : Std.HashMap ℕ ℕ).insert 2 20).insert 1 10).toList := by
    apply (Std.HashMap.toList_insert_perm.trans (.cons _ ?_)).symm
    apply (Std.HashMap.toList_insert_perm.filter _).trans
    simp
  have hrun : TransitionSystem.exec ChannelTask.step
      ((Call.sendHashMapToStream [(1, 10), (2, 20)]
        fun key value => some (key, value)).start Status)
      [.send, .recv, .send, .finish, .recv, .recv] = some _ := rfl
  have hinverse : ∀ (key value : ℕ) contract, some (key, value) =
      some contract → id contract = (key, value) := by
    rintro key value contract ⟨⟩
    rfl
  exact ⟨_, _, _, _, _, hentries, rfl, hrun, rfl,
    (collected_maps hentries hinverse hrun (.ended rfl) rfl).2.1⟩

end Collections

end CollectedStreams
end GrpcExtensions
