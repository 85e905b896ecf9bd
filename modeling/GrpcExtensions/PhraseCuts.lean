import Mathlib.Data.List.Basic
import Mathlib.Tactic.Common

/-!
# Cutting a list into phrases

The phrases of a grammar are told apart by what a list begins with, and every
list begins with a phrase unless it may be left over.  Then each list is cut
in exactly one way, into phrases and a rest.
-/

namespace PhraseCuts

structure Grammar (α ρ : Type) where
  code : ρ → List α
  Legal : ρ → Prop
  /-- What may stand behind the last phrase. -/
  Leftover : List α → Prop
  code_ne_nil : ∀ {p}, Legal p → code p ≠ []
  code_inj : ∀ {p q xs ys}, Legal p → Legal q →
    code p ++ xs = code q ++ ys → p = q
  not_leftover : ∀ {p xs}, Legal p → ¬ Leftover (code p ++ xs)
  covers : ∀ xs, Leftover xs ∨ ∃ p ys, Legal p ∧ xs = code p ++ ys

namespace Grammar

variable {α ρ : Type} (G : Grammar α ρ)

structure Cut (xs : List α) (phrases : List ρ) (rest : List α) : Prop where
  legal : ∀ p ∈ phrases, G.Legal p
  leftover : G.Leftover rest
  parts : xs = phrases.flatMap G.code ++ rest

variable {G} {xs : List α}

theorem Cut.cons
    {phrases : List ρ} {rest : List α} (hcut : G.Cut xs phrases rest)
    {p : ρ} (hlegal : G.Legal p) :
    G.Cut (G.code p ++ xs) (p :: phrases) rest := by
  constructor
  · exact List.forall_mem_cons.mpr ⟨hlegal, hcut.legal⟩
  · exact hcut.leftover
  · rw [List.flatMap_cons, List.append_assoc, ← hcut.parts]

theorem Cut.of_cons
    {p : ρ} {phrases : List ρ} {rest : List α}
    (hcut : G.Cut xs (p :: phrases) rest) :
    G.Legal p ∧ ∃ ys, xs = G.code p ++ ys ∧ G.Cut ys phrases rest := by
  have hlegal := List.forall_mem_cons.mp hcut.legal
  refine ⟨hlegal.1, phrases.flatMap G.code ++ rest, ?_, ?_⟩
  · rw [hcut.parts, List.flatMap_cons, List.append_assoc]
  · exact ⟨hlegal.2, hcut.leftover, rfl⟩

theorem exists_cut (G : Grammar α ρ) (xs : List α) :
    ∃ phrases rest, G.Cut xs phrases rest := by
  induction hlength : xs.length using Nat.strongRecOn generalizing xs with
  | _ length ih =>
      rcases G.covers xs with hleftover | ⟨p, ys, hlegal, hxs⟩
      · exact ⟨[], xs, by simp, hleftover, rfl⟩
      · have hshorter : ys.length < length := by
          have hcode := List.length_pos_of_ne_nil (G.code_ne_nil hlegal)
          rw [← hlength, hxs, List.length_append]
          omega
        rcases ih ys.length hshorter ys rfl with ⟨phrases, rest, hcut⟩
        rw [hxs]
        exact ⟨p :: phrases, rest, hcut.cons hlegal⟩

theorem Cut.unique
    {phrases others : List ρ} {rest last : List α}
    (hcut : G.Cut xs phrases rest) (hother : G.Cut xs others last) :
    phrases = others ∧ rest = last := by
  induction phrases generalizing xs others with
  | nil =>
      have hrest : xs = rest := hcut.parts
      cases others with
      | nil => exact ⟨rfl, hrest.symm.trans hother.parts⟩
      | cons q others =>
          rcases hother.of_cons with ⟨hq, ys, hys, _⟩
          have hleftover := hcut.leftover
          rw [← hrest, hys] at hleftover
          exact absurd hleftover (G.not_leftover hq)
  | cons p phrases ih =>
      rcases hcut.of_cons with ⟨hp, ys, hys, hrest⟩
      cases others with
      | nil =>
          have hlast : xs = last := hother.parts
          have hleftover := hother.leftover
          rw [← hlast, hys] at hleftover
          exact absurd hleftover (G.not_leftover hp)
      | cons q others =>
          rcases hother.of_cons with ⟨hq, zs, hzs, hlast⟩
          have hboth := hys.symm.trans hzs
          have hpq : p = q := G.code_inj hp hq hboth
          subst hpq
          have hbehind : ys = zs := List.append_cancel_left hboth
          subst hbehind
          rcases ih hrest hlast with ⟨hphrases, hends⟩
          exact ⟨congrArg (List.cons p) hphrases, hends⟩

theorem existsUnique_cut (G : Grammar α ρ) (xs : List α) :
    ∃! cut : List ρ × List α, G.Cut xs cut.1 cut.2 := by
  rcases G.exists_cut xs with ⟨phrases, rest, hcut⟩
  refine ⟨(phrases, rest), hcut, ?_⟩
  intro other hother
  rcases hother.unique hcut with ⟨hphrases, hrest⟩
  exact Prod.ext hphrases hrest

end Grammar

end PhraseCuts
