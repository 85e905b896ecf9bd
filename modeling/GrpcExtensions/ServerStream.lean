import GrpcExtensions.ChannelTask
import Mathlib.Algebra.GroupWithZero.Nat
import Mathlib.Data.List.Forall2

/-!
# Streams sent by a server

The functions of `grpc_server_streams.rs` spawn a task that sends a source
through a channel and hand the receiver to the client.  Each is modelled by
the task it spawns: a mapping that panics is a mapping without a value, and a
failed `send_timeout` is printed and ends the loop.  The status type `ε` is
that of the transport; none of the tasks ever sends one.
-/

namespace GrpcExtensions
namespace ServerStream

open ChannelTask

universe u

variable {ι β δ κ ν ε : Type u}

/-- A stream handed to the client, with the task that feeds it. -/
structure SendStream (ι β ε : Type u) where
  channelSize : ℕ
  src : List ι
  task : Task ι (Except ε β)

def sendSingleItemToStream (item : β) : SendStream β β ε where
  channelSize := 1
  src := [item]
  task := .sendTimeout (.ok item) [item] fun _ => .done

/-- The loop shared by the functions that send one contract for each item. -/
def sendLoop (mapping : ι → Option β) : List ι → Task ι (Except ε β)
  | [] => .done
  | itm :: src =>
      match mapping itm with
      | none => .panic
      | some contract =>
          .sendTimeout (.ok contract) [itm] fun
            | .sent => sendLoop mapping src
            | .timeout => .done
            | .closed => .done

def sendFromIteratorWithTransformation
    (src : List ι) (mapping : ι → Option β) : SendStream ι β ε where
  channelSize := 100
  src := src
  task := sendLoop mapping src

def sendFromIterator
    (src : List ι) (into : ι → Option β) : SendStream ι β ε where
  channelSize := 100
  src := src
  task := sendLoop into src

/-- The entries of the map are listed in the order it yields them. -/
def sendHashMapToStream
    (src : List (κ × ν)) (mapping : κ → ν → Option β) :
    SendStream (κ × ν) β ε where
  channelSize := 100
  src := src
  task := sendLoop (fun entry => mapping entry.1 entry.2) src

/-- What follows the loop of `send_vec_to_stream_by_chunks`.  Here and in the
loop, `items` are the source items that `chunk` was made of. -/
def chunkTail
    (transformToContract : List δ → Option β)
    (chunk : List δ) (items : List ι) : Task ι (Except ε β) :=
  if chunk.length > 0 then
    match transformToContract chunk with
    | none => .panic
    | some contract => .sendTimeout (.ok contract) items fun _ => .done
  else .done

def chunkLoop
    (chunkSize : ℕ) (mapping : ι → Option δ)
    (transformToContract : List δ → Option β) :
    List ι → List δ → List ι → Task ι (Except ε β)
  | [], chunk, items => chunkTail transformToContract chunk items
  | itm :: src, chunk, items =>
      match mapping itm with
      | none => .panic
      | some dest =>
          if (chunk ++ [dest]).length < chunkSize then
            chunkLoop chunkSize mapping transformToContract src
              (chunk ++ [dest]) (items ++ [itm])
          else
            match transformToContract (chunk ++ [dest]) with
            | none => .panic
            | some contract =>
                -- the chunk has been swapped for an empty one
                .sendTimeout (.ok contract) (items ++ [itm]) fun
                  | .sent =>
                      chunkLoop chunkSize mapping transformToContract src
                        [] []
                  | .timeout => chunkTail transformToContract [] []
                  | .closed => chunkTail transformToContract [] []

/-- The largest allocation, `isize::MAX` bytes. -/
def isizeMax : ℕ := 2 ^ 63 - 1

/-- `Vec::with_capacity(chunk_size)` panics when the bytes of that many items
exceed the largest allocation. -/
def sendVecToStreamByChunks
    (sizeOfDest : ℕ) (src : List ι) (chunkSize : ℕ)
    (mapping : ι → Option δ) (transformToContract : List δ → Option β) :
    SendStream ι β ε where
  channelSize := 100
  src := src
  task :=
    if isizeMax < chunkSize * sizeOfDest then .panic
    else chunkLoop chunkSize mapping transformToContract src [] []

/-- A call of one of the functions, with its arguments. -/
inductive Call : Type u → Type u → Type (u + 1) where
  | sendSingleItemToStream {β : Type u} (item : β) : Call β β
  | sendFromIterator {ι β : Type u} (src : List ι) (into : ι → Option β) :
      Call ι β
  | sendFromIteratorWithTransformation {ι β : Type u} (src : List ι)
      (mapping : ι → Option β) : Call ι β
  | sendVecToStreamByChunks {ι β δ : Type u} (sizeOfDest : ℕ)
      (src : List ι) (chunkSize : ℕ) (mapping : ι → Option δ)
      (transformToContract : List δ → Option β) : Call ι β
  | sendHashMapToStream {κ ν β : Type u} (src : List (κ × ν))
      (mapping : κ → ν → Option β) : Call (κ × ν) β

def Call.stream (ε : Type u) : {ι β : Type u} → Call ι β → SendStream ι β ε
  | _, _, .sendSingleItemToStream item =>
      ServerStream.sendSingleItemToStream item
  | _, _, .sendFromIterator src into =>
      ServerStream.sendFromIterator src into
  | _, _, .sendFromIteratorWithTransformation src mapping =>
      ServerStream.sendFromIteratorWithTransformation src mapping
  | _, _, .sendVecToStreamByChunks sizeOfDest src chunkSize mapping
      transformToContract =>
      ServerStream.sendVecToStreamByChunks sizeOfDest src chunkSize mapping
        transformToContract
  | _, _, .sendHashMapToStream src mapping =>
      ServerStream.sendHashMapToStream src mapping

def Call.start (ε : Type u) (call : Call ι β) :
    ChannelTask.State ι (Except ε β) :=
  ChannelTask.start (call.stream ε).channelSize (call.stream ε).task

/-- The successive pieces of length `n`, of length one if `n` is zero. -/
def chunks (n : ℕ) : List δ → List (List δ)
  | [] => []
  | x :: xs => (x :: xs.take (n - 1)) :: chunks n (xs.drop (n - 1))
termination_by xs => xs.length
decreasing_by simp only [List.length_drop, List.length_cons]; omega

/-- Nothing that the spawned task computes panics. -/
def Call.NothingPanics : {ι β : Type u} → Call ι β → Prop
  | _, _, .sendSingleItemToStream _ => True
  | _, _, .sendFromIterator src into => ∀ itm ∈ src, (into itm).isSome
  | _, _, .sendFromIteratorWithTransformation src mapping =>
      ∀ itm ∈ src, (mapping itm).isSome
  | _, _, .sendVecToStreamByChunks sizeOfDest src chunkSize mapping
      transformToContract =>
      src = [] ∨
        (chunkSize * sizeOfDest ≤ isizeMax ∧
          (∀ itm ∈ src, (mapping itm).isSome) ∧
          ∀ chunk ∈ chunks chunkSize (src.filterMap mapping),
            (transformToContract chunk).isSome)
  | _, _, .sendHashMapToStream src mapping =>
      ∀ entry ∈ src, (mapping entry.1 entry.2).isSome

/-- The mapping gave these values for these items of the source. -/
def Mapped (mapping : ι → Option δ) (items : List ι) (dests : List δ) : Prop :=
  List.Forall₂ (fun itm dest => mapping itm = some dest) items dests

/-- The mapping and the transformation gave these contracts for the pieces of
these items. -/
def MappedByChunks
    (chunkSize : ℕ) (mapping : ι → Option δ)
    (transformToContract : List δ → Option β)
    (items : List ι) (contracts : List β) : Prop :=
  ∃ dests, Mapped mapping items dests ∧
    Mapped transformToContract (chunks chunkSize dests) contracts

/-- What the arguments of a call make of some items. -/
def Call.Makes : {ι β : Type u} → Call ι β → List ι → List β → Prop
  | _, _, .sendSingleItemToStream _ => fun items contracts =>
      contracts = items
  | _, _, .sendFromIterator _ into => Mapped into
  | _, _, .sendFromIteratorWithTransformation _ mapping => Mapped mapping
  | _, _, .sendVecToStreamByChunks _ _ chunkSize mapping
      transformToContract =>
      MappedByChunks chunkSize mapping transformToContract
  | _, _, .sendHashMapToStream _ mapping =>
      Mapped fun entry => mapping entry.1 entry.2

/-- Each message is a contract, and together they are what is made of the
items that they carry. -/
def MadeOf
    (makes : List ι → List β → Prop)
    (messages : List (Message ι (Except ε β))) : Prop :=
  ∃ contracts : List β,
    messages.map Message.contract = contracts.map .ok ∧
      makes (carried messages) contracts

/-- The same of every initial part of the messages. -/
def InitiallyMadeOf
    (makes : List ι → List β → Prop)
    (messages : List (Message ι (Except ε β))) : Prop :=
  ∀ front, front <+: messages → MadeOf makes front

section Messages

variable {makes : List ι → List β → Prop} {contract : β} {items : List ι}

theorem initiallyMadeOf_nil (hempty : makes [] []) :
    InitiallyMadeOf (ε := ε) makes [] := by
  intro front hfront
  rw [List.prefix_nil.mp hfront]
  exact ⟨[], rfl, hempty⟩

theorem initiallyMadeOf_cons
    {messages : List (Message ι (Except ε β))} (hempty : makes [] [])
    (hcons : ∀ later contracts, makes later contracts →
      makes (items ++ later) (contract :: contracts))
    (hmessages : InitiallyMadeOf makes messages) :
    InitiallyMadeOf makes (⟨.ok contract, items⟩ :: messages) := by
  intro front hfront
  rcases List.prefix_cons_iff.mp hfront with rfl | ⟨rest, rfl, hrest⟩
  · exact ⟨[], rfl, hempty⟩
  · rcases hmessages rest hrest with ⟨contracts, hok, hmakes⟩
    refine ⟨contract :: contracts, ?_, hcons _ _ hmakes⟩
    rw [List.map_cons, hok, List.map_cons]

theorem initiallyMadeOf_singleton
    (hempty : makes [] []) (hone : makes items [contract]) :
    InitiallyMadeOf (ε := ε) makes [⟨.ok contract, items⟩] := by
  intro front hfront
  rcases List.prefix_cons_iff.mp hfront with rfl | ⟨rest, rfl, hrest⟩
  · exact ⟨[], rfl, hempty⟩
  · rw [List.prefix_nil.mp hrest]
    refine ⟨[contract], rfl, ?_⟩
    simpa [carried] using hone

end Messages

theorem chunks_append
    (n : ℕ) {chunk : List δ} (rest : List δ)
    (hlength : chunk.length = max 1 n) :
    chunks n (chunk ++ rest) = chunk :: chunks n rest := by
  cases chunk with
  | nil =>
      simp only [List.length_nil] at hlength
      omega
  | cons x xs =>
      have hxs : n - 1 = xs.length := by
        simp only [List.length_cons] at hlength
        omega
      rw [List.cons_append, chunks, hxs, List.take_left, List.drop_left]

theorem chunks_of_length_lt
    (n : ℕ) {chunk : List δ} (hne : chunk ≠ [])
    (hlength : chunk.length < max 1 n) : chunks n chunk = [chunk] := by
  cases chunk with
  | nil => contradiction
  | cons x xs =>
      have hxs : xs.length ≤ n - 1 := by
        simp only [List.length_cons] at hlength
        omega
      rw [chunks, List.take_of_length_le hxs, List.drop_of_length_le hxs,
        chunks]

/-- What the tasks send is never an error. -/
def Succeeds (result : Except ε β) : Prop :=
  ∃ contract, result = .ok contract

section Loop

variable (mapping : ι → Option β)

theorem sendLoop_stopsOnFailure (src : List ι) :
    (sendLoop mapping src : Task ι (Except ε β)).StopsOnFailure
      Succeeds := by
  induction src with
  | nil => exact .done
  | cons itm src ih =>
      rw [sendLoop]
      cases mapping itm with
      | none => exact .panic
      | some contract =>
          exact .sendTimeout ⟨contract, rfl⟩ (List.cons_ne_nil _ _) rfl rfl
            ih

theorem sendLoop_delivered_prefix (src : List ι) :
    (sendLoop mapping src : Task ι (Except ε β)).delivered <+: src := by
  induction src with
  | nil => exact List.prefix_refl _
  | cons itm src ih =>
      rw [sendLoop]
      cases mapping itm with
      | none => exact List.nil_prefix
      | some contract => exact (List.prefix_cons_inj itm).mpr ih

theorem sendLoop_delivered_iff (src : List ι) :
    (sendLoop mapping src : Task ι (Except ε β)).delivered = src ↔
      ∀ itm ∈ src, (mapping itm).isSome := by
  induction src with
  | nil => simp [sendLoop, Task.delivered]
  | cons itm src ih =>
      rw [sendLoop, List.forall_mem_cons, ← ih]
      cases mapping itm with
      | none => simp [Task.delivered]
      | some contract => simp [Task.delivered]

theorem sendLoop_madeOf (src : List ι) :
    InitiallyMadeOf (Mapped mapping)
      (sendLoop mapping src : Task ι (Except ε β)).messages := by
  induction src with
  | nil => exact initiallyMadeOf_nil .nil
  | cons itm src ih =>
      rw [sendLoop]
      cases hcontract : mapping itm with
      | none => exact initiallyMadeOf_nil .nil
      | some contract =>
          exact initiallyMadeOf_cons .nil
            (fun _ _ hmapped => .cons hcontract hmapped) ih

end Loop

section Chunks

variable (chunkSize : ℕ) (mapping : ι → Option δ)
  (transformToContract : List δ → Option β)

theorem chunkTail_nil :
    (chunkTail transformToContract [] [] : Task ι (Except ε β)) = .done :=
  rfl

theorem chunkTail_of_ne_nil
    {chunk : List δ} (hne : chunk ≠ []) (items : List ι) :
    (chunkTail transformToContract chunk items : Task ι (Except ε β)) =
      match transformToContract chunk with
      | none => .panic
      | some contract => .sendTimeout (.ok contract) items fun _ => .done :=
  if_pos (List.length_pos_iff.mpr hne)

theorem chunkLoop_stopsOnFailure
    (src : List ι) {chunk : List δ} {items : List ι}
    (hlength : chunk.length = items.length) :
    (chunkLoop chunkSize mapping transformToContract src chunk items :
      Task ι (Except ε β)).StopsOnFailure Succeeds := by
  induction src generalizing chunk items with
  | nil =>
      rw [chunkLoop]
      by_cases hne : chunk = []
      · have hitems : items = [] := by
          rw [hne] at hlength
          exact List.length_eq_zero_iff.mp hlength.symm
        rw [hne, hitems]
        exact .done
      · have hitems : items ≠ [] := by
          intro hnil
          rw [hnil] at hlength
          exact hne (List.length_eq_zero_iff.mp hlength)
        rw [chunkTail_of_ne_nil transformToContract hne]
        cases transformToContract chunk with
        | none => exact .panic
        | some contract =>
            exact .sendTimeout ⟨contract, rfl⟩ hitems rfl rfl .done
  | cons itm src ih =>
      rw [chunkLoop]
      cases mapping itm with
      | none => exact .panic
      | some dest =>
          dsimp only
          split
          next => exact ih (by simp [hlength])
          next =>
            cases transformToContract (chunk ++ [dest]) with
            | none => exact .panic
            | some contract =>
                exact .sendTimeout ⟨contract, rfl⟩ (by simp) rfl rfl
                  (ih rfl)

theorem chunkLoop_delivered_prefix
    (src : List ι) {chunk : List δ} {items : List ι}
    (hlength : chunk.length = items.length) :
    (chunkLoop chunkSize mapping transformToContract src chunk items :
      Task ι (Except ε β)).delivered <+: items ++ src := by
  induction src generalizing chunk items with
  | nil =>
      rw [chunkLoop, List.append_nil]
      by_cases hne : chunk = []
      · subst chunk
        exact List.nil_prefix
      · rw [chunkTail_of_ne_nil transformToContract hne]
        cases transformToContract chunk with
        | none => exact List.nil_prefix
        | some contract => simp [Task.delivered]
  | cons itm src ih =>
      rw [chunkLoop]
      cases mapping itm with
      | none => exact List.nil_prefix
      | some dest =>
          dsimp only
          split
          next =>
            have hrest := @ih (chunk ++ [dest])
              (items ++ [itm]) (by simp [hlength])
            simpa using hrest
          next =>
            cases transformToContract (chunk ++ [dest]) with
            | none => exact List.nil_prefix
            | some contract =>
                have hrest := @ih [] [] rfl
                simpa [Task.delivered] using hrest

/-- With a partial chunk in hand, everything is delivered exactly when no
mapping of the remaining items and no transformation of a chunk panics. -/
theorem chunkLoop_delivered_iff
    (src : List ι) (chunk : List δ) (items : List ι)
    (hlength : chunk.length = items.length)
    (hshortChunk : chunk.length < max 1 chunkSize) :
    (chunkLoop chunkSize mapping transformToContract src chunk items :
        Task ι (Except ε β)).delivered = items ++ src ↔
      (∀ itm ∈ src, (mapping itm).isSome) ∧
        ∀ piece ∈ chunks chunkSize (chunk ++ src.filterMap mapping),
          (transformToContract piece).isSome := by
  induction src generalizing chunk items with
  | nil =>
      rw [chunkLoop, List.append_nil, List.filterMap_nil, List.append_nil]
      by_cases hne : chunk = []
      · have hitems : items = [] := by
          rw [hne] at hlength
          exact List.length_eq_zero_iff.mp hlength.symm
        subst chunk items
        simp [chunkTail_nil, Task.delivered, chunks]
      · have hitems : items ≠ [] := by
          intro hnil
          rw [hnil] at hlength
          exact hne (List.length_eq_zero_iff.mp hlength)
        rw [chunkTail_of_ne_nil transformToContract hne,
          chunks_of_length_lt chunkSize hne hshortChunk]
        cases hcontract : transformToContract chunk with
        | none => simp [Task.delivered, hcontract, hitems.symm]
        | some contract => simp [Task.delivered, hcontract]
  | cons itm src ih =>
      rw [chunkLoop, List.forall_mem_cons]
      cases hdest : mapping itm with
      | none => simp [Task.delivered]
      | some dest =>
          rw [List.filterMap_cons_some hdest]
          dsimp only
          split
          next hshort =>
            have hrest := @ih (chunk ++ [dest])
              (items ++ [itm]) (by simp [hlength]) (by omega)
            simpa using hrest
          next hlong =>
            have hfull : (chunk ++ [dest]).length = max 1 chunkSize := by
              simp only [List.length_append, List.length_singleton]
                at hlong ⊢
              omega
            have hpieces := chunks_append chunkSize
              (src.filterMap mapping) hfull
            rw [List.append_assoc, List.singleton_append] at hpieces
            rw [hpieces, List.forall_mem_cons]
            cases transformToContract (chunk ++ [dest]) with
            | none => simp [Task.delivered]
            | some contract =>
                have hrest := @ih [] [] rfl
                  (Nat.lt_of_lt_of_le Nat.one_pos (Nat.le_max_left 1 _))
                simpa [Task.delivered] using hrest

theorem mappedByChunks_nil :
    MappedByChunks chunkSize mapping transformToContract [] [] := by
  refine ⟨[], .nil, ?_⟩
  rw [chunks]
  exact .nil

/-- The contract of a full piece stands before those of the items behind it. -/
theorem mappedByChunks_append
    {piece : List δ} {items later : List ι} {contract : β}
    {contracts : List β} (hpiece : Mapped mapping items piece)
    (hfull : piece.length = max 1 chunkSize)
    (hcontract : transformToContract piece = some contract)
    (hlater : MappedByChunks chunkSize mapping transformToContract later
      contracts) :
    MappedByChunks chunkSize mapping transformToContract (items ++ later)
      (contract :: contracts) := by
  rcases hlater with ⟨dests, hdests, hcontracts⟩
  refine ⟨piece ++ dests, List.rel_append hpiece hdests, ?_⟩
  rw [chunks_append chunkSize dests hfull]
  exact .cons hcontract hcontracts

/-- A partial chunk in hand is made of `items`. -/
theorem chunkLoop_madeOf
    (src : List ι) {chunk : List δ} {items : List ι}
    (hchunk : Mapped mapping items chunk)
    (hshortChunk : chunk.length < max 1 chunkSize) :
    InitiallyMadeOf (MappedByChunks chunkSize mapping transformToContract)
      (chunkLoop chunkSize mapping transformToContract src chunk items :
        Task ι (Except ε β)).messages := by
  have hempty := mappedByChunks_nil chunkSize mapping transformToContract
  induction src generalizing chunk items with
  | nil =>
      rw [chunkLoop]
      by_cases hne : chunk = []
      · subst hne
        exact initiallyMadeOf_nil hempty
      · rw [chunkTail_of_ne_nil transformToContract hne]
        cases hcontract : transformToContract chunk with
        | none => exact initiallyMadeOf_nil hempty
        | some contract =>
            apply initiallyMadeOf_singleton hempty
            refine ⟨chunk, hchunk, ?_⟩
            rw [chunks_of_length_lt chunkSize hne hshortChunk]
            exact .cons hcontract .nil
  | cons itm src ih =>
      rw [chunkLoop]
      cases hdest : mapping itm with
      | none => exact initiallyMadeOf_nil hempty
      | some dest =>
          have hlonger : Mapped mapping (items ++ [itm]) (chunk ++ [dest]) :=
            List.rel_append hchunk (.cons hdest .nil)
          dsimp only
          split
          next hshort => exact ih hlonger (by omega)
          next hlong =>
            have hfull : (chunk ++ [dest]).length = max 1 chunkSize := by
              simp only [List.length_append, List.length_singleton]
                at hlong ⊢
              omega
            cases hcontract : transformToContract (chunk ++ [dest]) with
            | none => exact initiallyMadeOf_nil hempty
            | some contract =>
                have hrest := ih .nil
                  (Nat.lt_of_lt_of_le Nat.one_pos (Nat.le_max_left 1 _))
                exact initiallyMadeOf_cons hempty
                  (fun _ _ hlater => mappedByChunks_append chunkSize mapping
                    transformToContract hlonger hfull hcontract hlater) hrest

end Chunks

namespace Call

variable (call : Call ι β)

theorem task_stopsOnFailure :
    (call.stream ε).task.StopsOnFailure Succeeds := by
  cases call with
  | sendSingleItemToStream item =>
      exact .sendTimeout ⟨item, rfl⟩ (List.cons_ne_nil _ _) rfl rfl .done
  | sendFromIterator src into => exact sendLoop_stopsOnFailure into src
  | sendFromIteratorWithTransformation src mapping =>
      exact sendLoop_stopsOnFailure mapping src
  | sendVecToStreamByChunks sizeOfDest src chunkSize mapping transform =>
      simp only [stream, ServerStream.sendVecToStreamByChunks]
      split
      next => exact .panic
      next => exact chunkLoop_stopsOnFailure chunkSize mapping transform src rfl
  | sendHashMapToStream src mapping => exact sendLoop_stopsOnFailure _ src

theorem delivered_prefix :
    (call.stream ε).task.delivered <+:
      (call.stream ε).src := by
  cases call with
  | sendSingleItemToStream item => exact List.prefix_refl _
  | sendFromIterator src into => exact sendLoop_delivered_prefix into src
  | sendFromIteratorWithTransformation src mapping =>
      exact sendLoop_delivered_prefix mapping src
  | sendVecToStreamByChunks sizeOfDest src chunkSize mapping transform =>
      simp only [stream, ServerStream.sendVecToStreamByChunks]
      split
      next => exact List.nil_prefix
      next =>
        exact chunkLoop_delivered_prefix chunkSize mapping transform src rfl
  | sendHashMapToStream src mapping => exact sendLoop_delivered_prefix _ src

theorem delivered_iff_nothingPanics :
    (call.stream ε).task.delivered =
        (call.stream ε).src ↔ call.NothingPanics := by
  cases call with
  | sendSingleItemToStream item =>
      simp [stream, ServerStream.sendSingleItemToStream, Task.delivered,
        NothingPanics]
  | sendFromIterator src into => exact sendLoop_delivered_iff into src
  | sendFromIteratorWithTransformation src mapping =>
      exact sendLoop_delivered_iff mapping src
  | sendVecToStreamByChunks sizeOfDest src chunkSize mapping transform =>
      simp only [stream, ServerStream.sendVecToStreamByChunks, NothingPanics]
      split
      next hoverflow =>
        have hfits : ¬ chunkSize * sizeOfDest ≤ isizeMax :=
          Nat.not_le.mpr hoverflow
        simp only [Task.delivered, hfits, false_and, or_false]
        exact eq_comm
      next hfits =>
        have hloop := chunkLoop_delivered_iff (ε := ε) chunkSize mapping
          transform src [] [] rfl
          (Nat.lt_of_lt_of_le Nat.one_pos (Nat.le_max_left 1 _))
        simp only [List.nil_append] at hloop
        rw [hloop]
        constructor
        · intro hcalm
          exact .inr ⟨Nat.not_lt.mp hfits, hcalm⟩
        · rintro (rfl | ⟨_, hcalm⟩)
          · simp [chunks]
          · exact hcalm
  | sendHashMapToStream src mapping => exact sendLoop_delivered_iff _ src

theorem initiallyMadeOf :
    InitiallyMadeOf call.Makes (call.stream ε).task.messages := by
  cases call with
  | sendSingleItemToStream item => exact initiallyMadeOf_singleton rfl rfl
  | sendFromIterator src into => exact sendLoop_madeOf into src
  | sendFromIteratorWithTransformation src mapping =>
      exact sendLoop_madeOf mapping src
  | sendVecToStreamByChunks sizeOfDest src chunkSize mapping transform =>
      simp only [stream, ServerStream.sendVecToStreamByChunks]
      split
      next =>
        exact initiallyMadeOf_nil
          (mappedByChunks_nil chunkSize mapping transform)
      next =>
        exact chunkLoop_madeOf chunkSize mapping transform src .nil
          (Nat.lt_of_lt_of_le Nat.one_pos (Nat.le_max_left 1 _))
  | sendHashMapToStream src mapping => exact sendLoop_madeOf _ src

/-- The contracts that a client has read are made of the items that it has
been given. -/
theorem received_madeOf
    {acts : List Action} {s : ChannelTask.State ι (Except ε β)}
    (hrun : TransitionSystem.exec ChannelTask.step (call.start ε) acts =
      some s) : MadeOf call.Makes s.channel.received :=
  call.initiallyMadeOf _ (s.channel.received_prefix_placed.trans
    (ChannelTask.exec_messages call.task_stopsOnFailure hrun))

end Call

/-- The reader of a stream is not misled: it has seen an error, or every item
of the source has been delivered to it. -/
def NotMisled (src : List ι) (received : List (Message ι (Except ε β))) :
    Prop :=
  (∃ message ∈ received, ∃ status, message.contract = .error status) ∨
    carried received = src

/-- A client that reads a stream to its end without closing it has either seen
an error or everything, if and only if no send of the task timed out and
nothing the task computed panicked.  What it has read are the contracts that
the call makes of the items delivered to it. -/
theorem notMisled_iff
    (call : Call ι β) {acts : List Action}
    {s : ChannelTask.State ι (Except ε β)}
    (hrun : TransitionSystem.exec ChannelTask.step (call.start ε) acts =
      some s)
    (hfinished : s.channel.finished = true) :
    (NotMisled (call.stream ε).src s.channel.received ↔
      call.NothingPanics ∧
        TransitionSystem.Along ChannelTask.step (fun _ a => a ≠ .timeout)
          (call.start ε) acts) ∧
      MadeOf call.Makes s.channel.received := by
  refine ⟨?_, call.received_madeOf hrun⟩
  have hstops := call.task_stopsOnFailure (ε := ε)
  have hsound := ChannelTask.exec_sound hstops hrun
  have hreceived := hsound.carried_received hfinished
  have hdelivered :
      carried s.channel.received <+: (call.stream ε).task.delivered := by
    rw [hreceived]
    exact hsound.reach
  have hnoError : ¬ ∃ message ∈ s.channel.received, ∃ status,
      message.contract = .error status := by
    rintro ⟨message, hmem, status, herror⟩
    obtain ⟨contract, hok⟩ := hsound.contracts message
      (s.channel.received_prefix_placed.subset hmem)
    rw [hok] at herror
    contradiction
  rw [NotMisled, or_iff_right hnoError,
    ← call.delivered_iff_nothingPanics (ε := ε), Call.start,
    ← ChannelTask.delivered_iff_no_timeout hstops hrun hfinished]
  constructor
  · intro hall
    rw [hall] at hdelivered
    have hsame := call.delivered_prefix.eq_of_length_le
      hdelivered.length_le
    exact ⟨hsame, hall.trans hsame.symm⟩
  · rintro ⟨hsame, hall⟩
    exact hall.trans hsame

theorem notMisled_iff_two_chunks :
    ∃ s : ChannelTask.State ℕ (Except Unit ℕ),
      TransitionSystem.exec ChannelTask.step
          ((Call.sendVecToStreamByChunks 8 [1, 2, 3] 2 some
            fun chunk => some chunk.sum).start Unit)
          [.send, .send, .finish, .recv, .recv, .recv] = some s ∧
      (NotMisled [1, 2, 3] s.channel.received ↔
        (Call.sendVecToStreamByChunks 8 [1, 2, 3] 2 some
            fun chunk => some chunk.sum).NothingPanics ∧
          TransitionSystem.Along ChannelTask.step (fun _ a => a ≠ .timeout)
            ((Call.sendVecToStreamByChunks 8 [1, 2, 3] 2 some
              fun chunk => some chunk.sum).start Unit)
            [.send, .send, .finish, .recv, .recv, .recv]) := by
  have hrun : TransitionSystem.exec ChannelTask.step
      ((Call.sendVecToStreamByChunks 8 [1, 2, 3] 2 some
        fun chunk => some chunk.sum).start Unit)
      [.send, .send, .finish, .recv, .recv, .recv] = some _ := rfl
  exact ⟨_, hrun, (notMisled_iff _ hrun rfl).1⟩

/-- The reader starts only after the send of the last of 101 items has timed
out: it reads 100 items and then the end of the stream, and no error. -/
theorem slow_reader_sees_clean_end :
    ∃ s : ChannelTask.State ℕ (Except Unit ℕ),
      TransitionSystem.exec ChannelTask.step
          ((Call.sendFromIteratorWithTransformation (List.range 101)
            some).start Unit)
          (List.replicate 100 .send ++ [.timeout, .finish] ++
            List.replicate 101 .recv) = some s ∧
        s.channel.finished = true ∧
        ¬ NotMisled (List.range 101) s.channel.received := by
  have hrun :
      (TransitionSystem.exec ChannelTask.step
          ((Call.sendFromIteratorWithTransformation (List.range 101)
            some).start Unit)
          (List.replicate 100 .send ++ [.timeout, .finish] ++
            List.replicate 101 .recv)).map
          (fun s => (s.channel.finished,
            s.channel.received.all (fun message =>
              message.contract.isOk),
            (carried s.channel.received).length)) =
        some (true, true, 100) := by
    decide +kernel
  obtain ⟨s, hs, hread⟩ := Option.map_eq_some_iff.mp hrun
  simp only [Prod.mk.injEq, List.all_eq_true] at hread
  obtain ⟨hfinished, hok, hlength⟩ := hread
  refine ⟨s, hs, hfinished, ?_⟩
  rintro (⟨message, hmem, status, herror⟩ | hall)
  · have hgood := hok message hmem
    rw [herror] at hgood
    exact Bool.false_ne_true hgood
  · rw [hall, List.length_range] at hlength
    exact absurd hlength (by decide)

end ServerStream
end GrpcExtensions
