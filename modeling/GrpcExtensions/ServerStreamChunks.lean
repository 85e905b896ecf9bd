import GrpcExtensions.ServerStream

/-!
# Sending a vector by chunks

The contracts that `send_vec_to_stream_by_chunks` sends are those of the
successive pieces of its source.  The buffer is empty whenever a send has
failed, so nothing is sent behind a failure, the last partial chunk included.
-/

namespace GrpcExtensions
namespace ServerStream

open ChannelTask

universe u

variable {ι β δ ε : Type u}

section Pieces

theorem chunks_flatten (n : ℕ) (xs : List δ) :
    (chunks n xs).flatten = xs := by
  induction xs using chunks.induct n with
  | case1 => rw [chunks, List.flatten_nil]
  | case2 x xs ih =>
      rw [chunks, List.flatten_cons, ih, List.cons_append,
        List.take_append_drop]

theorem length_of_mem_chunks
    {n : ℕ} {xs piece : List δ} (hpiece : piece ∈ chunks n xs) :
    1 ≤ piece.length ∧ piece.length ≤ max 1 n := by
  induction xs using chunks.induct n with
  | case1 =>
      rw [chunks] at hpiece
      contradiction
  | case2 x xs ih =>
      rw [chunks, List.mem_cons] at hpiece
      rcases hpiece with rfl | hpiece
      · simp only [List.length_cons, List.length_take]
        omega
      · exact ih hpiece

theorem length_of_mem_dropLast_chunks
    {n : ℕ} {xs piece : List δ} (hpiece : piece ∈ (chunks n xs).dropLast) :
    piece.length = max 1 n := by
  induction xs using chunks.induct n with
  | case1 =>
      rw [chunks] at hpiece
      contradiction
  | case2 x xs ih =>
      rw [chunks] at hpiece
      by_cases hrest : chunks n (xs.drop (n - 1)) = []
      · rw [hrest] at hpiece
        contradiction
      · rw [List.dropLast_cons_of_ne_nil hrest, List.mem_cons] at hpiece
        rcases hpiece with rfl | hpiece
        · -- another piece follows, so this one is as long as it can be
          have hmore : xs.drop (n - 1) ≠ [] := by
            intro hnil
            rw [hnil, chunks] at hrest
            exact hrest rfl
          have hlength := List.length_pos_iff.mpr hmore
          simp only [List.length_drop] at hlength
          simp only [List.length_cons, List.length_take]
          omega
        · exact ih hpiece

theorem chunks_of_le_one {n : ℕ} (hn : n ≤ 1) (xs : List δ) :
    chunks n xs = xs.map fun x => [x] := by
  have hzero : n - 1 = 0 := by omega
  induction xs with
  | nil => rw [chunks, List.map_nil]
  | cons x xs ih =>
      rw [chunks, hzero, List.take_zero, List.drop_zero, ih, List.map_cons]

end Pieces

theorem sendLoop_contracts (mapping : ι → β) (src : List ι) :
    (sendLoop (fun itm => some (mapping itm)) src :
        Task ι (Except ε β)).contracts =
      src.map fun itm => .ok (mapping itm) := by
  induction src with
  | nil => rfl
  | cons itm src ih =>
      rw [sendLoop, Task.contracts, ih]
      rfl

/-- With a partial chunk in hand, the contracts are those of the pieces of
the chunk and what is still to be mapped. -/
theorem chunkLoop_contracts
    (chunkSize : ℕ) (mapping : ι → δ) (transformToContract : List δ → β)
    (src : List ι) {chunk : List δ} (items : List ι)
    (hshortChunk : chunk.length < max 1 chunkSize) :
    (chunkLoop chunkSize (fun itm => some (mapping itm))
        (fun piece => some (transformToContract piece)) src chunk items :
        Task ι (Except ε β)).contracts =
      (chunks chunkSize (chunk ++ src.map mapping)).map fun piece =>
        .ok (transformToContract piece) := by
  induction src generalizing chunk items with
  | nil =>
      rw [chunkLoop, List.map_nil, List.append_nil]
      by_cases hne : chunk = []
      · subst hne
        rw [chunks]
        rfl
      · rw [chunkTail_of_ne_nil _ hne,
          chunks_of_length_lt chunkSize hne hshortChunk]
        rfl
  | cons itm src ih =>
      rw [chunkLoop, List.map_cons]
      have happend : chunk ++ mapping itm :: src.map mapping =
          (chunk ++ [mapping itm]) ++ src.map mapping := by
        rw [List.append_assoc, List.singleton_append]
      dsimp only
      split
      next hshort =>
        rw [ih _ (by omega), happend]
      next hlong =>
        have hfull : (chunk ++ [mapping itm]).length = max 1 chunkSize := by
          simp only [List.length_append, List.length_singleton] at hlong ⊢
          omega
        have hempty : ([] : List δ).length < max 1 chunkSize :=
          Nat.lt_of_lt_of_le Nat.one_pos (Nat.le_max_left 1 _)
        rw [Task.contracts, ih [] hempty, happend,
          chunks_append chunkSize _ hfull]
        rfl

/-- The elements of the chunks are those of the source in their order, every
chunk but the last is full and none is empty.  If every send succeeds, all
chunks are delivered; otherwise those before the first send that fails, which
is the last one that is tried.  Chunks of at most one element deliver what the
items of the source deliver one by one. -/
theorem chunked_send_meaning
    (sizeOfDest : ℕ) (src : List ι) {chunkSize : ℕ} (mapping : ι → δ)
    (transformToContract : List δ → β)
    (hfits : chunkSize * sizeOfDest ≤ isizeMax) :
    ∃ pieces : List (List δ),
      pieces.flatten = src.map mapping ∧
      (∀ piece ∈ pieces.dropLast, piece.length = max 1 chunkSize) ∧
      (∀ last ∈ pieces.getLast?,
        1 ≤ last.length ∧ last.length ≤ max 1 chunkSize) ∧
      (src = [] → pieces = []) ∧
      ∀ outcomes : ℕ → SendResult,
        let sending : Task ι (Except ε β) :=
          (sendVecToStreamByChunks sizeOfDest src chunkSize
            (fun itm => some (mapping itm))
            fun piece => some (transformToContract piece)).task
        ((∀ k < pieces.length, outcomes k = .sent) →
          sending.deliveredContracts outcomes =
              pieces.map (fun piece => .ok (transformToContract piece)) ∧
            (sending.attempts outcomes).length = pieces.length) ∧
        (∀ k < pieces.length, (∀ j < k, outcomes j = .sent) →
          outcomes k ≠ .sent →
            sending.deliveredContracts outcomes =
                (pieces.take k).map
                  (fun piece => .ok (transformToContract piece)) ∧
              (sending.attempts outcomes).length = k + 1) ∧
        (chunkSize ≤ 1 →
          sending.deliveredContracts outcomes =
            ((sendFromIteratorWithTransformation src
                (fun itm => some (mapping itm)) :
                SendStream ι δ ε).task.deliveredContracts outcomes).map
              (Except.map fun element => transformToContract [element])) := by
  have hnonempty : ([] : List δ).length < max 1 chunkSize :=
    Nat.lt_of_lt_of_le Nat.one_pos (Nat.le_max_left 1 _)
  refine ⟨chunks chunkSize (src.map mapping), chunks_flatten _ _,
    fun _ => length_of_mem_dropLast_chunks, ?_, ?_, ?_⟩
  · intro last hlast
    exact length_of_mem_chunks (List.mem_of_getLast? hlast)
  · intro hsrc
    rw [hsrc, List.map_nil, chunks]
  · intro outcomes sending
    have hloop : sending = chunkLoop chunkSize (fun itm => some (mapping itm))
        (fun piece => some (transformToContract piece)) src [] [] :=
      if_neg (Nat.not_lt.mpr hfits)
    have hstops : sending.StopsOnFailure Succeeds := by
      rw [hloop]
      exact chunkLoop_stopsOnFailure _ _ _ src rfl
    have hcontracts : sending.contracts =
        (chunks chunkSize (src.map mapping)).map fun piece =>
          .ok (transformToContract piece) := by
      rw [hloop, chunkLoop_contracts chunkSize mapping transformToContract src
        [] hnonempty, List.nil_append]
    have hlength : sending.contracts.length =
        (chunks chunkSize (src.map mapping)).length := by
      rw [hcontracts, List.length_map]
    refine ⟨?_, ?_, ?_⟩
    · intro hsent
      rw [← hlength] at hsent
      rw [Task.deliveredContracts_of_sent hsent,
        Task.attempts_of_sent hsent, List.length_map]
      exact ⟨hcontracts, hlength⟩
    · intro k hk hsent hfailed
      rw [← hlength] at hk
      constructor
      · rw [Task.deliveredContracts_of_failure hstops hk hsent hfailed,
          hcontracts, List.map_take]
      · exact Task.length_attempts_of_failure hstops hk hsent hfailed
    · intro hone
      have hsingle := sendLoop_contracts (ε := ε) mapping src
      apply Task.deliveredContracts_map hstops
        (sendLoop_stopsOnFailure (fun itm => some (mapping itm)) src)
      rw [hcontracts, chunks_of_le_one hone, hsingle]
      simp [Except.map]

theorem chunked_send_meaning_two_chunks :
    ∃ pieces : List (List ℕ),
      pieces.flatten = [1, 2, 3] ∧
      (∀ piece ∈ pieces.dropLast, piece.length = 2) ∧
      ∀ last ∈ pieces.getLast?, 1 ≤ last.length ∧ last.length ≤ 2 := by
  obtain ⟨pieces, hflatten, hfull, hlast, _⟩ :=
    @chunked_send_meaning ℕ ℕ ℕ Unit 8 [1, 2, 3] 2 id List.sum (by decide)
  exact ⟨pieces, hflatten, hfull, hlast⟩

end ServerStream
end GrpcExtensions
