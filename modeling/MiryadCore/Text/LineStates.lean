import Mathlib.Data.List.TakeWhile
import Mathlib.Data.List.Basic

/-!
# States that lines set

A text is read line by line, and each line takes a state to the next one.
`run` gives every character the state that its line sets.  `slice_iff` tells
when a piece of a text, read alone from the state in which the text is before
it, gives its characters the states that the text gives them: a line that is
cut must leave, in its two pieces, the state that it sets as a whole.
-/

namespace MiryadCore.LineStates

variable {α S : Type} [DecidableEq α]

/-- What precedes the first separator. -/
def firstLine (separator : α) (text : List α) : List α :=
  text.takeWhile fun char => char ≠ separator

/-- The states of the characters of a text, with `head` before it on its first
line. -/
def run (separator : α) (step : S → List α → S) (state : S) (head : List α) :
    List α → List S
  | [] => []
  | char :: text =>
      if char = separator then
        step state head :: run separator step (step state head) [] text
      else
        step state (head ++ char :: firstLine separator text) ::
          run separator step state (head ++ [char]) text

/-- The state before the last line of a text, and what the text has of it. -/
def scan (separator : α) (step : S → List α → S) (state : S) (head : List α) :
    List α → S × List α
  | [] => (state, head)
  | char :: text =>
      if char = separator then scan separator step (step state head) [] text
      else scan separator step state (head ++ [char]) text

variable {separator : α} {step : S → List α → S} {state : S}
  {head line text left right : List α}

theorem firstLine_append (free : separator ∉ line) (text : List α) :
    firstLine separator (line ++ text) = line ++ firstLine separator text := by
  unfold firstLine
  rw [List.takeWhile_append_of_pos]
  intro char member
  have differs : char ≠ separator := by
    rintro rfl
    exact free member
  exact decide_eq_true differs

theorem firstLine_cons (text : List α) :
    firstLine separator (separator :: text) = [] := by
  simp [firstLine]

theorem firstLine_line (free : separator ∉ line) :
    firstLine separator line = line := by
  have whole := firstLine_append free []
  rw [List.append_nil] at whole
  exact whole.trans (List.append_nil _)

/-- A text is one line, or a line before another text. -/
theorem line_cases (separator : α) (text : List α) :
    separator ∉ text ∨ ∃ line rest, separator ∉ line ∧
      text = line ++ separator :: rest := by
  induction text with
  | nil => exact Or.inl List.not_mem_nil
  | cons char text induction =>
      by_cases same : char = separator
      · subst same
        exact Or.inr ⟨[], text, List.not_mem_nil, rfl⟩
      · rcases induction with free | ⟨line, rest, free, rfl⟩
        · refine Or.inl ?_
          rintro member
          rcases List.mem_cons.mp member with now | later
          · exact same now.symm
          · exact free later
        · refine Or.inr ⟨char :: line, rest, ?_, rfl⟩
          intro member
          rcases List.mem_cons.mp member with now | later
          · exact same now.symm
          · exact free later

/-- Induction over the lines of a text. -/
theorem line_induction (separator : α) {motive : List α → Prop}
    (last : ∀ line, separator ∉ line → motive line)
    (more : ∀ line text, separator ∉ line → motive text →
      motive (line ++ separator :: text)) (text : List α) : motive text := by
  induction length : text.length using Nat.strong_induction_on
    generalizing text with
  | _ n induction =>
      rcases line_cases separator text with
        free | ⟨line, rest, free, rfl⟩
      · exact last text free
      · apply more line rest free
        apply induction rest.length _ rest rfl
        rw [← length, List.length_append, List.length_cons]
        omega

@[simp]
theorem length_run (text : List α) (state : S) (head : List α) :
    (run separator step state head text).length = text.length := by
  induction text generalizing state head with
  | nil => rfl
  | cons char text induction =>
      rw [run]
      split
      · rw [List.length_cons, List.length_cons, induction]
      · rw [List.length_cons, List.length_cons, induction]

/-- The characters of a line have the state that the whole line sets. -/
theorem run_append (free : separator ∉ line) (state : S) (head text : List α) :
    run separator step state head (line ++ text) =
      List.replicate line.length
          (step state (head ++ line ++ firstLine separator text)) ++
        run separator step state (head ++ line) text := by
  induction line generalizing head with
  | nil => simp
  | cons char line induction =>
      obtain ⟨differs, free⟩ := not_or.mp (List.mem_cons.not.mp free)
      rw [List.cons_append, run, if_neg (Ne.symm differs), induction free,
        firstLine_append free]
      simp [List.replicate_succ]

theorem run_line (free : separator ∉ line) (state : S) :
    run separator step state [] line =
      List.replicate line.length (step state line) := by
  have whole : run separator step state [] (line ++ []) = _ :=
    run_append free state [] []
  simpa [run, firstLine] using whole

theorem run_line_append (free : separator ∉ line) (state : S)
    (head text : List α) :
    run separator step state head (line ++ separator :: text) =
      List.replicate (line.length + 1) (step state (head ++ line)) ++
        run separator step (step state (head ++ line)) [] text := by
  rw [run_append free, firstLine_cons, List.append_nil, run, if_pos rfl,
    List.replicate_succ', List.append_assoc, List.singleton_append]

theorem scan_append (state : S) (head left right : List α) :
    scan separator step state head (left ++ right) =
      scan separator step (scan separator step state head left).1
        (scan separator step state head left).2 right := by
  induction left generalizing state head with
  | nil => rfl
  | cons char left induction =>
      rw [List.cons_append, scan, scan]
      split
      · exact induction _ _
      · exact induction _ _

theorem scan_line (free : separator ∉ line) (state : S) (head : List α) :
    scan separator step state head line = (state, head ++ line) := by
  induction line generalizing head with
  | nil => simp [scan]
  | cons char line induction =>
      obtain ⟨differs, free⟩ := not_or.mp (List.mem_cons.not.mp free)
      rw [scan, if_neg (Ne.symm differs), induction free]
      simp

theorem scan_line_append (free : separator ∉ line) (state : S)
    (head text : List α) :
    scan separator step state head (line ++ separator :: text) =
      scan separator step (step state (head ++ line)) [] text := by
  rw [scan_append, scan_line free, scan, if_pos rfl]

/-- What follows is read from where the text before it ends. -/
theorem drop_run (state : S) (head left right : List α) :
    (run separator step state head (left ++ right)).drop left.length =
      run separator step (scan separator step state head left).1
        (scan separator step state head left).2 right := by
  induction left generalizing state head with
  | nil => rfl
  | cons char left induction =>
      rw [List.cons_append, run, scan]
      split
      · exact induction _ _
      · exact induction _ _

/-- The last line that a piece has sets the state that it sets with the rest of
the line. -/
def Ends (separator : α) (step : S → List α → S) (state : S)
    (body rest : List α) : Prop :=
  (scan separator step state [] body).2 ≠ [] →
    step (scan separator step state [] body).1
        (scan separator step state [] body).2 =
      step (scan separator step state [] body).1
        ((scan separator step state [] body).2 ++ firstLine separator rest)

/-- A piece from the start of a line on. -/
theorem run_eq_take_iff (state : S) (body rest : List α) :
    run separator step state [] body =
        (run separator step state [] (body ++ rest)).take body.length ↔
      Ends separator step state body rest := by
  induction body using line_induction separator
    generalizing state with
  | last line free =>
      rw [run_line free, run_append free, Ends, scan_line free,
        List.take_append_of_le_length (by rw [List.length_replicate])]
      simp [List.replicate_inj, or_iff_not_imp_left]
  | more line text free induction =>
      rw [run_line_append free, List.append_assoc, List.cons_append,
        run_line_append free, Ends, scan_line_append free]
      rw [show (line ++ separator :: text).length =
        (List.replicate (line.length + 1) (step state ([] ++ line))).length +
          text.length by simp; omega, List.take_length_add_append,
        List.append_cancel_left_eq, induction]
      rfl

/-- A piece from inside a line on. -/
theorem run_eq_take_inside_iff (blank : ∀ state, step state [] = state)
    (state : S) (head body rest : List α) {reached : S}
    (line : step state (head ++ firstLine separator (body ++ rest)) =
      reached) :
    run separator step reached [] body =
        (run separator step state head (body ++ rest)).take body.length ↔
      step reached (firstLine separator body) = reached ∧
        (separator ∈ body → Ends separator step reached body rest) := by
  rcases line_cases separator body with
    free | ⟨first, text, free, rfl⟩
  · rw [firstLine_append free, ← List.append_assoc] at line
    rw [run_line free, run_append free, line, firstLine_line free,
      List.take_append_of_le_length (by rw [List.length_replicate]),
      List.take_of_length_le (by rw [List.length_replicate])]
    constructor
    · intro same
      refine ⟨?_, fun member => (free member).elim⟩
      rcases List.replicate_inj.mp same with ⟨_, empty | stays⟩
      · rw [List.eq_nil_of_length_eq_zero empty, blank]
      · exact stays
    · intro both
      rw [both.1]
  · have first_eq : firstLine separator (first ++ separator :: text) = first := by
      rw [firstLine_append free, firstLine_cons, List.append_nil]
    rw [List.append_assoc, List.cons_append, firstLine_append free,
      firstLine_cons, List.append_nil] at line
    rw [run_line_append free, List.append_assoc, List.cons_append,
      run_line_append free, line, first_eq, List.nil_append]
    have length : (first ++ separator :: text).length =
        (List.replicate (first.length + 1) reached).length + text.length := by
      simp
      omega
    rw [length, List.take_length_add_append]
    constructor
    · intro same
      obtain ⟨begins, later⟩ := List.append_inj same (by simp)
      have stays : step reached first = reached := by
        rcases List.replicate_inj.mp begins with ⟨_, empty | stays⟩
        · cases empty
        · exact stays
      rw [stays, run_eq_take_iff] at later
      refine ⟨stays, fun _ => ?_⟩
      unfold Ends
      rw [scan_line_append free, List.nil_append, stays]
      exact later
    · rintro ⟨stays, ends⟩
      have later := ends (by simp)
      unfold Ends at later
      rw [scan_line_append free, List.nil_append, stays] at later
      rw [stays, (run_eq_take_iff reached text rest).mpr later]

/-- The state in which a text is before a piece: that of the line which the
piece begins in. -/
def stateAt (separator : α) (step : S → List α → S) (state : S)
    (before after : List α) : S :=
  if (scan separator step state [] before).2 = [] then
    (scan separator step state [] before).1
  else
    step (scan separator step state [] before).1
      ((scan separator step state [] before).2 ++ firstLine separator after)

/-- A piece that begins inside a line does not change its state there; and a
line that it begins and does not end has the state of the whole. -/
structure Cut (separator : α) (step : S → List α → S) (state : S)
    (before body rest : List α) : Prop where
  begins : (scan separator step state [] before).2 ≠ [] →
    step (stateAt separator step state before (body ++ rest))
        (firstLine separator body) =
      stateAt separator step state before (body ++ rest)
  ends : (scan separator step state [] before).2 = [] ∨ separator ∈ body →
    Ends separator step (stateAt separator step state before (body ++ rest))
      body rest

variable {before body rest : List α}

/-- A piece has the states of the text exactly when its cuts allow it. -/
theorem slice_iff (separator : α) (blank : ∀ state, step state [] = state) (state : S)
    (before body rest : List α) :
    run separator step (stateAt separator step state before (body ++ rest)) []
          body =
        ((run separator step state [] (before ++ (body ++ rest))).drop
          before.length).take body.length ↔
      Cut separator step state before body rest := by
  rw [drop_run]
  cases scanned : scan separator step state [] before with
  | mk reached head =>
      by_cases clean : head = []
      · subst clean
        have opened : stateAt separator step state before (body ++ rest) =
            reached := by
          rw [stateAt, scanned, if_pos rfl]
        rw [opened, run_eq_take_iff]
        constructor
        · intro ends
          refine ⟨fun begun => (begun (by rw [scanned])).elim, fun _ => ?_⟩
          rw [opened]
          exact ends
        · intro cut
          have ends := cut.ends (Or.inl (by rw [scanned]))
          rwa [opened] at ends
      · have inside : stateAt separator step state before (body ++ rest) =
            step reached (head ++ firstLine separator (body ++ rest)) := by
          rw [stateAt, scanned, if_neg clean]
        rw [run_eq_take_inside_iff blank reached head body rest inside.symm]
        constructor
        · rintro ⟨begins, ends⟩
          refine ⟨fun _ => begins, ?_⟩
          rintro (whole | member)
          · rw [scanned] at whole
            exact (clean whole).elim
          · exact ends member
        · intro cut
          refine ⟨cut.begins ?_, fun member => cut.ends (Or.inr member)⟩
          rw [scanned]
          exact clean

theorem getLastD_append_replicate (count : ℕ) (last initial : S)
    (states : List S) :
    (List.replicate (count + 1) last ++ states).getLastD initial =
      states.getLastD last := by
  rw [List.replicate_succ', List.append_assoc, List.singleton_append,
    List.getLastD_eq_getLast?, List.getLast?_append, List.getLast?_cons,
    Option.some_or, Option.getD_some, List.getLastD_eq_getLast?]

/-- It is the state of the last character before the position. -/
theorem stateAt_eq (state : S) (before after : List α) :
    stateAt separator step state before after =
      ((run separator step state [] (before ++ after)).take
        before.length).getLastD state := by
  induction before using line_induction separator
    generalizing state with
  | last line free =>
      rw [stateAt, scan_line free, run_append free,
        List.take_append_of_le_length (by rw [List.length_replicate]),
        List.take_of_length_le (by rw [List.length_replicate])]
      cases line with
      | nil => rfl
      | cons char line =>
          rw [if_neg (by simp), List.length_cons]
          have last := getLastD_append_replicate line.length
            (step state ([] ++ char :: line ++ firstLine separator after))
            state []
          rw [List.append_nil] at last
          rw [last]
          rfl
  | more line text free induction =>
      have length : (line ++ separator :: text).length =
          (List.replicate (line.length + 1) (step state ([] ++ line))).length +
            text.length := by
        simp
        omega
      rw [List.append_assoc, List.cons_append, run_line_append free, length,
        List.take_length_add_append, getLastD_append_replicate, ← induction,
        stateAt, scan_line_append free]
      rfl

/-- At the end of a text its last line is whole. -/
theorem stateAt_end (blank : ∀ state, step state [] = state) (state : S)
    (text : List α) :
    stateAt separator step state text [] =
      step (scan separator step state [] text).1
        (scan separator step state [] text).2 := by
  unfold stateAt firstLine
  split
  · rename_i none_left
    rw [none_left, blank]
  · rw [List.takeWhile_nil, List.append_nil]

theorem stateAt_line (blank : ∀ state, step state [] = state) (state : S)
    (text : List α) (free : separator ∉ line) :
    stateAt separator step state (text ++ separator :: line) [] =
      step (stateAt separator step state text []) line := by
  rw [stateAt_end blank, stateAt_end blank, scan_append]
  rw [scan, if_pos rfl, scan_line free, List.nil_append]

/-- What the first state has and every line keeps, all states have. -/
theorem forall_run {holds : S → Prop} (text : List α)
    (keeps : ∀ state line, separator ∉ line → holds state →
      holds (step state line)) (start : holds state) :
    ∀ reached ∈ run separator step state [] text, holds reached := by
  induction text using line_induction separator
    generalizing state with
  | last line free =>
      intro reached member
      rw [run_line free] at member
      rw [List.eq_of_mem_replicate member]
      exact keeps state line free start
  | more line text free induction =>
      intro reached member
      rw [run_line_append free] at member
      rcases List.mem_append.mp member with first | later
      · rw [List.eq_of_mem_replicate first]
        exact keeps state line free start
      · exact induction (keeps state line free start) reached later

end MiryadCore.LineStates
