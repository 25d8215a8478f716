import MiryadCore.Chat.SplitTexts
import MiryadCore.Text.LineStates
import Mathlib.Data.List.DropRight

/-!
# The code blocks of a text and of its parts

`fence_state` reads, at a position, the block that the line of the character
before it leaves open.  A part that opens a block again and closes it has the
blocks of the text, unless it begins or ends inside a line whose pieces are
read as other markers than the line.
-/

namespace MiryadCore.Chat.Bridging

open LineStates
open Users (trim)

/-- The language of the block that is open at a position. -/
def fenced (chars : List Char) (position : ℕ) : Option String :=
  let state := fenceState (lineInfos chars) position
  if state.1 then some state.2 else none

/-- The block that a character is in: the one that its line leaves open. -/
def blockOf (chars : List Char) (index : ℕ) : Option String :=
  fenced chars (index + 1)

/-- No block is open at the end. -/
def Balanced (chars : List Char) : Prop :=
  fenced chars chars.length = none

/-- What a line makes of the block that is open before it. -/
def lineState (state : Option String) (content : List Char) : Option String :=
  if fence.isPrefixOf (trim content) then
    match state with
    | some _ => none
    | none =>
        some (String.ofList
          ((trim content).dropWhile fun char => char = '\x60'))
  else state

theorem lineState_nil (state : Option String) : lineState state [] = state :=
  rfl

/-- The states of the characters of a text. -/
abbrev blocks (state : Option String) (chars : List Char) :
    List (Option String) :=
  run '\n' lineState state [] chars

/-- What `line_infos` says of a line. -/
def infoOf (content : List Char) (start stop : ℕ) (inBlock : Bool) : LineInfo :=
  let trimmed := trim content
  let marks := fence.isPrefixOf trimmed
  let closes := marks && inBlock
  let opens :=
    if marks && !inBlock then
      some (String.ofList (trimmed.dropWhile fun char => char = '\x60'))
    else none
  let blockAfter := if marks then !inBlock else inBlock
  { start, stop
    blank := !blockAfter && !closes && opens.isNone && content.isEmpty
    closes, opens }

theorem isSome_lineState (state : Option String) (content : List Char) :
    (lineState state content).isSome =
      if fence.isPrefixOf (trim content) then !state.isSome
      else state.isSome := by
  unfold lineState
  split
  · cases state with
    | none => rfl
    | some name => rfl
  · rfl

variable {line text : List Char}

theorem takeWhile_line (free : '\n' ∉ line) (text : List Char) :
    (line ++ '\n' :: text).takeWhile (fun char => char ≠ '\n') = line := by
  have first := firstLine_append free ('\n' :: text)
  rw [firstLine_cons, List.append_nil] at first
  exact first

theorem lineInfosFrom_line (free : '\n' ∉ line) (text : List Char)
    (start : ℕ) (inBlock : Bool) :
    lineInfosFrom (line ++ '\n' :: text) start inBlock =
      infoOf line start (start + (line.length + 1)) inBlock ::
        lineInfosFrom text (start + (line.length + 1))
          (if fence.isPrefixOf (trim line) then !inBlock else inBlock) := by
  obtain ⟨first, others, cons⟩ : ∃ first others,
      line ++ '\n' :: text = first :: others :=
    List.exists_cons_of_ne_nil (by simp)
  have length : min (line.length + 1) (line ++ '\n' :: text).length =
      line.length + 1 := by
    simp
  have rest : (line ++ '\n' :: text).drop (line.length + 1) = text := by
    simp
  have content := takeWhile_line free text
  rw [cons] at length rest content ⊢
  rw [lineInfosFrom, content, length, rest]
  rfl

theorem lineInfosFrom_last (free : '\n' ∉ line) (filled : line ≠ [])
    (start : ℕ) (inBlock : Bool) :
    lineInfosFrom line start inBlock =
      [infoOf line start (start + line.length) inBlock] := by
  obtain ⟨first, others, rfl⟩ := List.exists_cons_of_ne_nil filled
  have content : (first :: others).takeWhile (fun char => char ≠ '\n') =
      first :: others :=
    firstLine_line free
  have rest : (first :: others).drop ((first :: others).length + 1) = [] :=
    List.drop_eq_nil_of_le (by omega)
  rw [lineInfosFrom, content, rest, lineInfosFrom, Nat.min_eq_right (by omega)]
  rfl

/-- The language of a block that is open. -/
def asBlock (state : Bool × String) : Option String :=
  if state.1 then some state.2 else none

theorem fenceStateFrom_stop {cut start : ℕ} (beyond : cut ≤ start)
    {content : List Char} {stop : ℕ} {inBlock opened : Bool} {lang : String}
    {infos : List LineInfo} :
    fenceStateFrom cut (infoOf content start stop inBlock :: infos) opened
      lang = (opened, lang) := by
  rw [fenceStateFrom]
  exact if_pos beyond

/-- A line that starts before the cut. -/
theorem fenceStateFrom_info {cut start : ℕ} (inside : start < cut) (stop : ℕ)
    (infos : List LineInfo) (content : List Char) (state : Option String)
    {lang : String} (agrees : ∀ name, state = some name → lang = name) :
    ∃ after, (∀ name, lineState state content = some name → after = name) ∧
      fenceStateFrom cut (infoOf content start stop state.isSome :: infos)
          state.isSome lang =
        if cut < stop then ((lineState state content).isSome, after)
        else fenceStateFrom cut infos (lineState state content).isSome after := by
  rw [fenceStateFrom, if_neg (by simp only [infoOf]; omega)]
  cases marks : fence.isPrefixOf (trim content) with
  | true =>
      cases state with
      | none =>
          refine ⟨String.ofList
            ((trim content).dropWhile fun char => char = '\x60'), ?_, ?_⟩
          · intro name opens
            rw [lineState, if_pos marks] at opens
            exact Option.some.inj opens
          · simp [infoOf, lineState, marks]
      | some name =>
          refine ⟨lang, ?_, ?_⟩
          · intro other opens
            rw [lineState, if_pos marks] at opens
            cases opens
          · simp [infoOf, lineState, marks]
  | false =>
      refine ⟨lang, ?_, ?_⟩
      · intro name opens
        unfold lineState at opens
        rw [marks, if_neg Bool.false_ne_true] at opens
        exact agrees name opens
      · simp [infoOf, lineState, marks]

theorem getLastD_take_replicate {S : Type} (count position : ℕ)
    (positive : 0 < position) (last initial : S) (states : List S) :
    ((List.replicate (count + 1) last ++ states).take position).getLastD
        initial =
      if position ≤ count + 1 then last
      else (states.take (position - (count + 1))).getLastD last := by
  obtain ⟨less, rfl⟩ := Nat.exists_eq_succ_of_ne_zero positive.ne'
  split
  · rename_i early
    rw [List.take_append_of_le_length (by rwa [List.length_replicate]),
      List.take_replicate, Nat.min_eq_left early, ← List.append_nil
      (List.replicate _ _), getLastD_append_replicate]
    rfl
  · rename_i late
    rw [List.take_append, List.take_of_length_le
      (by rw [List.length_replicate]; omega), List.length_replicate,
      getLastD_append_replicate]

theorem fenceStateFrom_eq (chars : List Char) {cut start : ℕ}
    (started : start ≤ cut) (state : Option String) {lang : String}
    (agrees : ∀ name, state = some name → lang = name) :
    asBlock (fenceStateFrom cut (lineInfosFrom chars start state.isSome)
        state.isSome lang) =
      ((blocks state chars).take (cut - start)).getLastD state := by
  have read : ∀ (state : Option String) (lang : String),
      (∀ name, state = some name → lang = name) →
        asBlock (state.isSome, lang) = state := by
    intro state lang agrees
    cases state with
    | none => rfl
    | some name =>
        rw [agrees name rfl]
        rfl
  induction chars using line_induction '\n'
    generalizing start state lang with
  | last line free =>
      by_cases filled : line = []
      · subst filled
        rw [lineInfosFrom, fenceStateFrom, read state lang agrees]
        simp [blocks, run]
      · obtain ⟨count, length⟩ : ∃ count, line.length = count + 1 :=
          Nat.exists_eq_succ_of_ne_zero (List.length_pos_iff.mpr filled).ne'
        rw [lineInfosFrom_last free filled, blocks, run_line free, length]
        by_cases begun : start < cut
        · obtain ⟨after, named, found⟩ := fenceStateFrom_info begun
            (start + (count + 1)) [] line state agrees
          have last := getLastD_take_replicate count (cut - start) (by omega)
            (lineState state line) state []
          rw [List.append_nil, List.take_nil, List.getLastD_nil, ite_self] at last
          rw [found, last, fenceStateFrom, ite_self, read _ after named]
        · have none_taken : cut - start = 0 := by omega
          rw [fenceStateFrom_stop (by omega), none_taken, List.take_zero,
            List.getLastD_nil, read state lang agrees]
  | more line text free induction =>
      rw [lineInfosFrom_line free, blocks, run_line_append free, List.nil_append,
        ← isSome_lineState]
      by_cases begun : start < cut
      · obtain ⟨after, named, found⟩ := fenceStateFrom_info begun
          (start + (line.length + 1))
          (lineInfosFrom text (start + (line.length + 1))
            (lineState state line).isSome) line state agrees
        rw [found, getLastD_take_replicate _ _ (by omega)]
        by_cases inside : cut < start + (line.length + 1)
        · rw [if_pos inside, if_pos (by omega), read _ after named]
        · rw [if_neg inside, induction (by omega) _ named]
          by_cases ends : cut = start + (line.length + 1)
          · have none_taken : cut - (start + (line.length + 1)) = 0 := by omega
            rw [if_pos (by omega), none_taken]
            rfl
          · rw [if_neg (by omega), Nat.sub_add_eq]
      · have none_taken : cut - start = 0 := by omega
        rw [fenceStateFrom_stop (by omega), none_taken, List.take_zero,
          List.getLastD_nil, read state lang agrees]

theorem fenced_eq (chars : List Char) (position : ℕ) :
    fenced chars position =
      ((blocks none chars).take position).getLastD none := by
  have read : asBlock (fenceStateFrom position (lineInfosFrom chars 0 false)
      false "") = _ :=
    fenceStateFrom_eq chars (Nat.zero_le position) none nofun
  exact read

theorem fenced_append (before after : List Char) :
    fenced (before ++ after) before.length =
      stateAt '\n' lineState none before after := by
  rw [fenced_eq, stateAt_eq]

theorem blockOf_eq {chars : List Char} {index : ℕ}
    (inside : index < chars.length) :
    (blocks none chars)[index]? = some (blockOf chars index) := by
  have length : index < (blocks none chars).length := by
    rwa [length_run]
  rw [blockOf, fenced_eq, List.take_succ_eq_append_getElem length,
    List.getLastD_concat, List.getElem?_eq_getElem length]

theorem trim_subset (chars : List Char) : trim chars ⊆ chars := by
  intro char member
  have kept := List.dropWhile_subset _ (List.mem_reverse.mp member)
  exact List.dropWhile_subset _ (List.mem_reverse.mp kept)

theorem trim_last (chars : List Char) :
    ∀ char ∈ (trim chars).reverse.head?, Users.isWhitespace char = false := by
  intro char last
  rw [trim, List.reverse_reverse] at last
  have stops := List.head?_dropWhile_not Users.isWhitespace
    (chars.dropWhile Users.isWhitespace).reverse
  rw [Option.mem_def.mp last] at stops
  exact stops

theorem trim_marker {lang : List Char}
    (last : ∀ char ∈ lang.reverse.head?, Users.isWhitespace char = false) :
    trim (fence ++ lang) = fence ++ lang := by
  apply trim_of_ends
  · intro char first
    cases first
    decide
  · intro char ends
    rw [List.reverse_append, List.head?_append] at ends
    cases none_left : lang.reverse.head? with
    | none =>
        rw [none_left] at ends
        cases ends
        decide
    | some other =>
        rw [none_left] at ends last
        exact last char ends

/-- A marker with the language opens a block of it. -/
def Named (state : Option String) : Prop :=
  ∀ lang, state = some lang → '\n' ∉ lang.toList ∧
    lineState none (fence ++ lang.toList) = some lang

theorem named_lineState (state : Option String) (line : List Char)
    (free : '\n' ∉ line) (named : Named state) :
    Named (lineState state line) := by
  intro lang opens
  unfold lineState at opens
  split at opens
  · rename_i marks
    cases state with
    | some name => cases opens
    | none =>
        obtain rfl := Option.some.inj opens
        rw [String.toList_ofList]
        have last : ∀ char ∈ ((trim line).dropWhile fun char =>
            char = '\x60').reverse.head?, Users.isWhitespace char = false := by
          intro char ends
          obtain ⟨marks, split⟩ : ((trim line).dropWhile fun char =>
              decide (char = '\x60')) <:+ trim line :=
            List.dropWhile_suffix _
          apply trim_last line char
          rw [← split, List.reverse_append, List.head?_append]
          rw [Option.mem_def.mp ends]
          rfl
        refine ⟨?_, ?_⟩
        · intro member
          exact free (trim_subset line (List.dropWhile_subset _ member))
        · unfold lineState
          have stripped : ((fence ++ (trim line).dropWhile fun char =>
              char = '\x60').dropWhile fun char => char = '\x60') =
                (trim line).dropWhile fun char => char = '\x60' := by
            refine Eq.trans ?_ (List.dropWhile_idempotent _ _)
            rfl
          rw [trim_marker last, if_pos (by simp)]
          dsimp only
          rw [stripped]
  · exact named lang opens

theorem named_of_blocks (chars : List Char) :
    ∀ state ∈ blocks none chars, Named state :=
  forall_run chars named_lineState nofun

theorem named_fenced (chars : List Char) (position : ℕ) :
    Named (fenced chars position) := by
  rw [fenced_eq]
  rcases List.mem_cons.mp List.getLastD_mem_cons with same | member
  · rw [same]
    exact nofun
  · exact named_of_blocks chars _ (List.mem_of_mem_take member)

/-- A part without the suffix of a text that is cut off. -/
def Piece.bare (piece : Piece) : List Char :=
  (reopening piece.reopened).toList ++ piece.body.toList ++
    (closing piece.closed).toList

theorem text_eq_bare (piece : Piece) :
    piece.text.toList = piece.bare ++ (truncation piece.omitted).toList := by
  rw [Piece.text, String.toList_append, String.toList_append,
    String.toList_append]
  rfl

section Part

variable {state : Option String} (named : Named state)
include named

theorem scan_reopening :
    scan '\n' lineState none [] (reopening state).toList = (state, []) := by
  cases state with
  | none => rfl
  | some lang =>
      obtain ⟨free, opens⟩ := named lang rfl
      have marker : (reopening (some lang)).toList =
          (fence ++ lang.toList) ++ '\n' :: [] := by
        simp [reopening]
      have single : '\n' ∉ fence ++ lang.toList := by
        rw [List.mem_append, not_or]
        exact ⟨by decide, free⟩
      rw [marker, scan_line_append single, List.nil_append, opens]
      rfl

theorem drop_reopening (text : List Char) :
    (blocks none ((reopening state).toList ++ text)).drop
      (reopening state).toList.length = blocks state text := by
  rw [blocks, drop_run, scan_reopening named]

theorem stateAt_reopening (text : List Char) :
    stateAt '\n' lineState none ((reopening state).toList ++ text) [] =
      stateAt '\n' lineState state text [] := by
  rw [stateAt_end lineState_nil, stateAt_end lineState_nil, scan_append,
    scan_reopening named]

end Part

theorem take_closing (state : Option String) (body : List Char)
    (closed : Bool) :
    (blocks state (body ++ (closing closed).toList)).take body.length =
      blocks state body := by
  apply ((run_eq_take_iff state body _).mpr ?_).symm
  intro _
  cases closed with
  | false =>
      rw [closing_false]
      exact congrArg _ (List.append_nil _).symm
  | true =>
      have ended : firstLine '\n' (closing true).toList = [] := rfl
      rw [ended, List.append_nil]

theorem blockOf_bare {piece : Piece} (named : Named piece.reopened) {index : ℕ}
    (inside : index < piece.body.toList.length) :
    (blocks piece.reopened piece.body.toList)[index]? =
      some (blockOf piece.bare
        ((reopening piece.reopened).toList.length + index)) := by
  have length : (reopening piece.reopened).toList.length + index <
      piece.bare.length := by
    rw [Piece.bare, List.length_append, List.length_append]
    omega
  rw [← blockOf_eq length, Piece.bare, List.append_assoc, ← List.getElem?_drop,
    drop_reopening named, ← take_closing piece.reopened piece.body.toList
    piece.closed, List.getElem?_take_of_lt inside]

theorem balanced_bare {piece : Piece} (named : Named piece.reopened)
    (closes : piece.closed =
      (stateAt '\n' lineState piece.reopened piece.body.toList []).isSome) :
    Balanced piece.bare := by
  have whole := fenced_append piece.bare []
  rw [List.append_nil] at whole
  rw [Balanced, whole, Piece.bare, List.append_assoc, stateAt_reopening named]
  cases opened : stateAt '\n' lineState piece.reopened piece.body.toList [] with
  | none =>
      rw [opened] at closes
      rw [closes, Option.isSome_none, closing_false]
      exact (congrArg (stateAt _ _ _ · _) (List.append_nil _)).trans opened
  | some lang =>
      rw [opened] at closes
      have marker : (closing piece.closed).toList = '\n' :: fence := by
        rw [closes, Option.isSome_some, closing, if_pos rfl,
          String.toList_append, String.toList_ofList]
        rfl
      rw [marker, stateAt_line lineState_nil _ _ (by decide), opened]
      rfl

end MiryadCore.Chat.Bridging
