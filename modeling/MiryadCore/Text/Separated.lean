import Mathlib.Data.List.Basic

/-!
# Words joined by a separator

`joined` writes a separator before each word.  The words may contain the
separator themselves, so that different lists can be joined to one text.
`joined_eq_iff` tells when, in terms of the pieces into which the separator
cuts the words; `joined_eq_iff_shadows` tells where two such lists part.
-/

namespace MiryadCore.Separated

variable {α : Type} [DecidableEq α] {separator : α}

/-- The words of a list, each after a separator. -/
def joined (separator : α) (words : List (List α)) : List α :=
  words.flatMap fun word => separator :: word

/-- The pieces of a list of words, each cut at the separators. -/
def pieces (separator : α) (words : List (List α)) : List (List α) :=
  words.flatMap fun word => word.splitOn separator

omit [DecidableEq α] in
@[simp]
theorem joined_nil : joined separator ([] : List (List α)) = [] := rfl

omit [DecidableEq α] in
@[simp]
theorem joined_cons (word : List α) (words : List (List α)) :
    joined separator (word :: words) =
      separator :: (word ++ joined separator words) := by
  simp [joined]

omit [DecidableEq α] in
@[simp]
theorem joined_append (left right : List (List α)) :
    joined separator (left ++ right) =
      joined separator left ++ joined separator right :=
  List.flatMap_append

@[simp]
theorem pieces_cons (word : List α) (words : List (List α)) :
    pieces separator (word :: words) =
      word.splitOn separator ++ pieces separator words := by
  simp [pieces]

/-- Cutting a joined text gives the pieces of its words back. -/
theorem splitOn_append_joined (separator : α) (text : List α)
    (words : List (List α)) :
    (text ++ joined separator words).splitOn separator =
      text.splitOn separator ++ pieces separator words := by
  induction words generalizing text with
  | nil => simp [pieces]
  | cons word words induction =>
      rw [joined_cons, List.splitOn_append_cons_self, induction, pieces_cons]

theorem joined_splitOn (word : List α) :
    joined separator (word.splitOn separator) = separator :: word := by
  induction word with
  | nil => rfl
  | cons head tail induction =>
      rw [List.splitOn_cons_eq_if_modifyHead]
      split
      · rename_i same
        rw [joined_cons, induction, List.nil_append, beq_iff_eq.mp same]
      · cases cut : tail.splitOn separator with
        | nil => exact (List.splitOn_ne_nil separator tail cut).elim
        | cons piece others =>
            rw [cut, joined_cons] at induction
            simpa using List.tail_eq_of_cons_eq induction

theorem joined_pieces (words : List (List α)) :
    joined separator (pieces separator words) = joined separator words := by
  induction words with
  | nil => rfl
  | cons word words induction =>
      rw [pieces_cons, joined_append, joined_splitOn, induction, joined_cons,
        List.cons_append]

theorem joined_eq_iff {left right : List (List α)} :
    joined separator left = joined separator right ↔
      pieces separator left = pieces separator right := by
  constructor
  · intro same
    have cut := splitOn_append_joined separator [] left
    rw [same, splitOn_append_joined] at cut
    exact (List.append_cancel_left cut).symm
  · intro same
    rw [← joined_pieces left, same, joined_pieces]

/-- Where two lists with one joined text part: after a common beginning, the
word of the second list spells the word of the first, a separator, and a rest
that the first list spells with the words that follow. -/
def Shadows (separator : α) (left right : List (List α)) : Prop :=
  ∃ common word rest leftRest rightRest,
    left = common ++ word :: leftRest ∧
    right = common ++ (word ++ separator :: rest) :: rightRest ∧
    pieces separator leftRest =
      rest.splitOn separator ++ pieces separator rightRest

theorem Shadows.joined_eq {left right : List (List α)}
    (shadows : Shadows separator left right) :
    joined separator left = joined separator right := by
  obtain ⟨common, word, rest, leftRest, rightRest, rfl, rfl, same⟩ := shadows
  rw [← pieces_cons, ← joined_eq_iff] at same
  simp [same]

omit [DecidableEq α] in
private theorem ne_of_longer (common : List (List α)) (word rest : List α)
    (leftRest rightRest : List (List α)) :
    common ++ word :: leftRest ≠
      common ++ (word ++ separator :: rest) :: rightRest := by
  intro same
  have words := List.cons.inj (List.append_cancel_left same)
  simpa using congrArg List.length words.1

theorem Shadows.ne {left right : List (List α)}
    (shadows : Shadows separator left right) : left ≠ right := by
  obtain ⟨common, word, rest, leftRest, rightRest, rfl, rfl, _⟩ := shadows
  exact ne_of_longer common word rest leftRest rightRest

/-- A longer word continues with a separator, since the other text does. -/
private theorem shadows_of_append {common : List (List α)}
    {word extra : List α} {leftRest rightRest : List (List α)}
    (longer : extra ≠ [])
    (same : joined separator leftRest = extra ++ joined separator rightRest) :
    Shadows separator (common ++ word :: leftRest)
      (common ++ (word ++ extra) :: rightRest) := by
  cases leftRest with
  | nil =>
      rw [joined_nil] at same
      exact (longer (List.append_eq_nil_iff.mp same.symm).1).elim
  | cons next others =>
      cases extra with
      | nil => exact (longer rfl).elim
      | cons head rest =>
          rw [joined_cons, List.cons_append, List.cons.injEq] at same
          obtain ⟨rfl, same⟩ := same
          refine ⟨common, word, rest, next :: others, rightRest, rfl, rfl, ?_⟩
          rw [← pieces_cons, ← joined_eq_iff, joined_cons, joined_cons, same]

private theorem shadows_of_joined_eq (common left right : List (List α))
    (different : left ≠ right)
    (same : joined separator left = joined separator right) :
    Shadows separator (common ++ left) (common ++ right) ∨
      Shadows separator (common ++ right) (common ++ left) := by
  induction left generalizing common right with
  | nil =>
      cases right with
      | nil => exact (different rfl).elim
      | cons word right => simp at same
  | cons word left induction =>
      cases right with
      | nil => simp at same
      | cons other right =>
          by_cases equal : word = other
          · subst equal
            have tails : joined separator left = joined separator right := by
              simpa using same
            have apart : left ≠ right := by
              intro equal
              exact different (congrArg _ equal)
            have later := induction (common ++ [word]) right apart tails
            simpa using later
          · simp only [joined_cons, List.cons.injEq, true_and] at same
            rcases List.append_eq_append_iff.mp same with
              ⟨extra, rfl, rest⟩ | ⟨extra, rfl, rest⟩
            · apply Or.inl
              apply shadows_of_append ?_ rest
              intro none
              exact equal (by simp [none])
            · apply Or.inr
              apply shadows_of_append ?_ rest
              intro none
              exact equal (by simp [none])

theorem joined_eq_iff_shadows {left right : List (List α)}
    (different : left ≠ right) :
    joined separator left = joined separator right ↔
      Shadows separator left right ∨ Shadows separator right left := by
  constructor
  · intro same
    exact shadows_of_joined_eq [] left right different same
  · intro cases
    rcases cases with shadows | shadows
    · exact shadows.joined_eq
    · exact shadows.joined_eq.symm

omit [DecidableEq α] in
/-- Two words with a separator between them spell what two others do if they are
these, or if one of them goes on with the separator. -/
theorem append_cons_eq_iff {word other tail rest : List α} :
    word ++ separator :: tail = other ++ separator :: rest ↔
      (word = other ∧ tail = rest) ∨
      (∃ middle, other = word ++ separator :: middle ∧
        tail = middle ++ separator :: rest) ∨
      ∃ middle, word = other ++ separator :: middle ∧
        rest = middle ++ separator :: tail := by
  constructor
  · intro same
    rcases List.append_eq_append_iff.mp same with
      ⟨extra, longer, spells⟩ | ⟨extra, longer, spells⟩
    · cases extra with
      | nil =>
          rw [List.append_nil] at longer
          exact Or.inl ⟨longer.symm, (List.cons.inj spells).2⟩
      | cons head middle =>
          obtain ⟨rfl, later⟩ := List.cons.inj spells
          exact Or.inr (Or.inl ⟨middle, longer, later⟩)
    · cases extra with
      | nil =>
          rw [List.append_nil] at longer
          exact Or.inl ⟨longer, (List.cons.inj spells).2.symm⟩
      | cons head middle =>
          obtain ⟨rfl, later⟩ := List.cons.inj spells
          exact Or.inr (Or.inr ⟨middle, longer, later⟩)
  · intro cases
    rcases cases with ⟨rfl, rfl⟩ | ⟨middle, rfl, rfl⟩ | ⟨middle, rfl, rfl⟩
    · rfl
    · simp
    · simp

end MiryadCore.Separated
