import Mathlib.Data.List.Induction

/-!
# What holds at every turn of a sequence

An invariant ties two statements about a turn and what precedes it.  If each
implies the other under the invariant, and the first carries the invariant to
the next turn, then they hold at all turns together.
-/

namespace MiryadCore

variable {τ : Type} {turns : List τ} {holds meets : List τ → τ → Prop}
  {inv : List τ → Prop}

/-- The turn comes after these ones. -/
def Precede (turns before : List τ) (turn : τ) : Prop :=
  ∃ rest, turns = before ++ turn :: rest

theorem invariant_of_precede (start : inv [])
    (next : ∀ before turn, Precede turns before turn → inv before →
      inv (before ++ [turn])) :
    ∀ before rest, turns = before ++ rest → inv before := by
  intro before
  induction before using List.reverseRecOn with
  | nil => exact fun _ _ => start
  | append_singleton before turn induction =>
      intro rest same
      rw [List.append_assoc] at same
      exact next before turn ⟨rest, same⟩ (induction _ same)

theorem forall_precede_iff (inv : List τ → Prop) (start : inv [])
    (step : ∀ before turn, inv before →
      (holds before turn ↔ meets before turn))
    (next : ∀ before turn, inv before → holds before turn →
      inv (before ++ [turn])) :
    (∀ before turn, Precede turns before turn → holds before turn) ↔
      ∀ before turn, Precede turns before turn → meets before turn := by
  constructor
  · intro all before turn precede
    obtain ⟨rest, same⟩ := precede
    have reached := invariant_of_precede start
      (fun before turn precede held =>
        next before turn held (all before turn precede)) before _ same
    exact (step before turn reached).mp (all before turn ⟨rest, same⟩)
  · intro all before turn precede
    obtain ⟨rest, same⟩ := precede
    have reached := invariant_of_precede start
      (fun before turn precede held => next before turn held
        ((step before turn held).mpr (all before turn precede))) before _ same
    exact (step before turn reached).mpr (all before turn ⟨rest, same⟩)

end MiryadCore
