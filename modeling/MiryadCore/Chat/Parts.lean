import MiryadCore.Chat.Render
import Mathlib.Data.List.TakeWhile

/-!
# The parts of a long text

The loop of `split_message` makes one part in a round.  A round knows the
number of parts made, where its part starts and the language of the block that
is opened again; its part is then what the text gives it, between the markers
that the cuts put there.
-/

namespace MiryadCore.Chat.Bridging

open Users (trim)

/-- What opens a block again at the start of a part. -/
def reopening : Option String → String
  | none => ""
  | some lang => String.ofList fence ++ lang ++ "\n"

/-- What closes a block at the end of a part. -/
def closing (closed : Bool) : String :=
  if closed then "\n" ++ String.ofList fence else ""

def truncation : Option ℕ → String
  | none => ""
  | some omitted =>
      "… (sortie tronquée, " ++ toString omitted ++ " caractères omis)"

theorem closing_false : closing false = "" :=
  rfl

theorem truncation_none : truncation none = "" :=
  rfl

theorem truncation_some (omitted : ℕ) :
    truncation (some omitted) =
      "… (sortie tronquée, " ++ toString omitted ++ " caractères omis)" :=
  rfl

theorem append_truncation (text : String) (omitted : ℕ) :
    text ++ truncation (some omitted) = text ++ "… (sortie tronquée, " ++
      toString omitted ++ " caractères omis)" := by
  rw [truncation_some, String.append_assoc, String.append_assoc,
    String.append_assoc]

/-- A part: a piece of the text, and what is put around it. -/
structure Piece where
  reopened : Option String
  body : String
  closed : Bool
  omitted : Option ℕ
  deriving DecidableEq, Repr

def Piece.text (piece : Piece) : String :=
  reopening piece.reopened ++ piece.body ++ closing piece.closed ++
    truncation piece.omitted

/-- The numbering of the parts, unless there is only one. -/
def numbered (bodies : List String) : List String :=
  if bodies.length = 1 then bodies
  else
    bodies.mapIdx fun index body =>
      "(" ++ toString (index + 1) ++ "/" ++ toString bodies.length ++ ") " ++
        body

/-- What the loop knows before a round. -/
structure Round where
  index : ℕ
  pos : ℕ
  reopened : Option String
  deriving DecidableEq, Repr

namespace Round

section

variable (round : Round)

/-- No part is made after this one. -/
abbrev Last : Prop :=
  round.index + 1 = MAX_PARTS

/-- What the marker at the start of the part leaves to the text. -/
def room : ℕ :=
  BODY_BUDGET - (reopening round.reopened).length

variable (lines : List LineInfo) (chars : List Char)

def bodyRoom : ℕ :=
  if round.Last ∧ round.pos + round.room < chars.length then
    round.room - TRUNC_SUFFIX_RESERVE
  else round.room

/-- The rest of the text is taken as it is. -/
abbrev Whole : Prop :=
  chars.length ≤ round.pos + round.bodyRoom chars ∧ ¬ round.Last

def cut : ℕ :=
  if round.Whole chars then chars.length
  else
    max (findCut lines chars round.pos
      (min (round.pos + round.bodyRoom chars) chars.length)) (round.pos + 1)

def closed : Bool :=
  !decide (round.Whole chars) && (fenceState lines (round.cut lines chars)).1

def piece : Piece where
  reopened := round.reopened
  body := String.ofList ((chars.take (round.cut lines chars)).drop round.pos)
  closed := round.closed lines chars
  omitted :=
    if round.Last ∧ round.cut lines chars < chars.length then
      some (chars.length - round.cut lines chars)
    else none

def next : Round where
  index := round.index + 1
  pos := round.cut lines chars
  reopened :=
    if round.closed lines chars then
      some (fenceState lines (round.cut lines chars)).2
    else none

variable {round lines chars}

theorem cut_of_whole (whole : round.Whole chars) :
    round.cut lines chars = chars.length :=
  if_pos whole

theorem cut_of_not_whole (whole : ¬ round.Whole chars) :
    round.cut lines chars = max (findCut lines chars round.pos
      (min (round.pos + round.bodyRoom chars) chars.length))
      (round.pos + 1) :=
  if_neg whole

theorem closed_of_whole (whole : round.Whole chars) :
    round.closed lines chars = false := by
  rw [closed, decide_eq_true whole]
  rfl

theorem closed_of_not_whole (whole : ¬ round.Whole chars) :
    round.closed lines chars =
      (fenceState lines (round.cut lines chars)).1 := by
  rw [closed, decide_eq_false whole]
  rfl

theorem omitted_of_lt (last : round.Last)
    (cutOff : round.cut lines chars < chars.length) :
    (round.piece lines chars).omitted =
      some (chars.length - round.cut lines chars) :=
  if_pos ⟨last, cutOff⟩

theorem omitted_of_not (kept : ¬ (round.Last ∧
    round.cut lines chars < chars.length)) :
    (round.piece lines chars).omitted = none :=
  if_neg kept

theorem omitted_eq_some {omitted : ℕ}
    (omits : (round.piece lines chars).omitted = some omitted) :
    round.Last ∧ round.cut lines chars < chars.length ∧
      round.cut lines chars + omitted = chars.length := by
  unfold piece at omits
  dsimp only at omits
  split_ifs at omits with cutOff
  obtain rfl := Option.some.inj omits
  exact ⟨cutOff.1, cutOff.2, by omega⟩

variable (round lines chars)

theorem pos_lt_cut (more : round.pos < chars.length) :
    round.pos < round.cut lines chars := by
  unfold cut
  split_ifs
  · exact more
  · omega

end

/-- The rounds of the loop from one on. -/
def rounds (lines : List LineInfo) (chars : List Char) (round : Round) :
    List Round :=
  if _more : round.pos < chars.length then
    round ::
      if round.Whole chars ∨ round.Last then []
      else rounds lines chars (round.next lines chars)
  else []
termination_by chars.length - round.pos
decreasing_by
  have further := round.pos_lt_cut lines chars _more
  simp only [next]
  omega

end Round

/-- The rounds of a text that does not fit in one part. -/
def roundsOf (text : String) : List Round :=
  if text.toList.length ≤ MAX_PART_CHARS then []
  else Round.rounds (lineInfos text.toList) text.toList ⟨0, 0, none⟩

/-- The parts of a text. -/
def pieces (text : String) : List Piece :=
  if text.toList = [] then []
  else if text.toList.length ≤ MAX_PART_CHARS then [⟨none, text, false, none⟩]
  else (roundsOf text).map fun round =>
    round.piece (lineInfos text.toList) text.toList

theorem splitBodies_eq (lines : List LineInfo) (chars : List Char)
    (round : Round) (bodies : List String)
    (made : bodies.length = round.index) :
    splitBodies lines chars bodies round.pos round.pos
        (reopening round.reopened) =
      bodies ++ (round.rounds lines chars).map fun round =>
        (round.piece lines chars).text := by
  induction round using Round.rounds.induct lines chars generalizing bodies with
  | case1 round more induction =>
      rw [splitBodies, if_neg (by omega), Round.rounds, dif_pos more]
      have folded : (if round.index + 1 = MAX_PARTS ∧
          round.pos + (BODY_BUDGET - (reopening round.reopened).length) <
            chars.length then
          BODY_BUDGET - (reopening round.reopened).length -
            TRUNC_SUFFIX_RESERVE
          else BODY_BUDGET - (reopening round.reopened).length) =
        round.bodyRoom chars := rfl
      simp only [made, decide_eq_true_eq, folded]
      by_cases whole : round.Whole chars
      · have kept : ¬ (round.Last ∧
            round.cut lines chars < chars.length) := fun both => whole.2 both.1
        rw [if_pos (show round.Whole chars ∨ round.Last from Or.inl whole)]
        refine (if_pos whole).trans ?_
        rw [List.map_cons, List.map_nil, Piece.text, Round.omitted_of_not kept]
        dsimp only [Round.piece]
        rw [Round.cut_of_whole whole, Round.closed_of_whole whole,
          closing_false, truncation_none, String.append_empty,
          String.append_empty, List.take_length]
      · have further := round.pos_lt_cut lines chars more
        have reached : round.pos + (round.cut lines chars - round.pos) =
            round.cut lines chars := by omega
        have body : (if (fenceState lines (round.cut lines chars)).1 = true then
            reopening round.reopened ++ String.ofList
              (List.drop round.pos (List.take (round.cut lines chars) chars)) ++
              "\n" ++ String.ofList fence
            else reopening round.reopened ++ String.ofList
              (List.drop round.pos (List.take (round.cut lines chars) chars))) =
            reopening round.reopened ++ String.ofList
              (List.drop round.pos (List.take (round.cut lines chars) chars)) ++
              closing (round.closed lines chars) := by
          rw [Round.closed_of_not_whole whole, closing]
          split
          · simp only [String.append_assoc]
          · rw [String.append_empty]
        refine (if_neg whole).trans ?_
        rw [← Round.cut_of_not_whole whole, body, reached]
        by_cases last : round.index + 1 = MAX_PARTS
        · rw [if_pos (show round.Whole chars ∨ round.Last from Or.inr last)]
          refine (if_pos last).trans ?_
          rw [List.map_cons, List.map_nil, Piece.text]
          by_cases cutOff : round.cut lines chars < chars.length
          · rw [if_pos cutOff, Round.omitted_of_lt last cutOff,
              append_truncation]
            rfl
          · rw [if_neg cutOff, Round.omitted_of_not fun both => cutOff both.2,
              truncation_none, String.append_empty]
            rfl
        · have goes : ¬ (round.Whole chars ∨ round.Last) := by
            rintro (all | final)
            · exact whole all
            · exact last final
          have reopen : (if (fenceState lines (round.cut lines chars)).1 = true
              then String.ofList fence ++
                (fenceState lines (round.cut lines chars)).2 ++ "\n"
              else "") = reopening (round.next lines chars).reopened := by
            rw [Round.next, Round.closed_of_not_whole whole]
            split
            · rfl
            · rfl
          rw [if_neg goes, List.map_cons, reopen]
          refine (if_neg last).trans ?_
          have rest := induction (bodies ++ [reopening round.reopened ++
            String.ofList (List.drop round.pos
              (List.take (round.cut lines chars) chars)) ++
              closing (round.closed lines chars)]) (by simp [made, Round.next])
          refine Eq.trans rest ?_
          rw [List.append_assoc, List.singleton_append, Piece.text,
            Round.omitted_of_not fun both => last both.1, truncation_none,
            String.append_empty]
          rfl
  | case2 round stop =>
      rw [splitBodies, if_pos (by omega), Round.rounds, dif_neg stop]
      simp

theorem Piece.text_plain (text : String) :
    (⟨none, text, false, none⟩ : Piece).text = text := by
  rw [Piece.text, closing_false, truncation_none, String.append_empty,
    String.append_empty]
  exact String.empty_append

theorem splitMessage_eq (text : String) :
    splitMessage text = numbered ((pieces text).map Piece.text) := by
  unfold splitMessage pieces roundsOf
  dsimp only
  by_cases empty : text.toList = []
  · rw [if_pos empty, if_pos empty]
    rfl
  by_cases short : text.toList.length ≤ MAX_PART_CHARS
  · rw [if_neg empty, if_neg empty, if_pos short, if_pos short, List.map_cons,
      List.map_nil, Piece.text_plain]
    rfl
  · rw [if_neg empty, if_neg empty, if_neg short, if_neg short, if_neg short]
    have bodies : splitBodies (lineInfos text.toList) text.toList [] 0 0 "" =
        _ := splitBodies_eq (lineInfos text.toList) text.toList ⟨0, 0, none⟩ []
          rfl
    rw [bodies, List.nil_append, List.map_map]
    rfl

theorem lastCut_mem {lines : List LineInfo} {upTo : ℕ}
    {cut : LineInfo → Option ℕ} {found : ℕ}
    (last : lastCut lines upTo cut = some found) :
    ∃ line, cut line = some found := by
  have member := List.mem_of_getLast? last
  obtain ⟨line, _, gives⟩ := List.mem_filterMap.mp member
  exact ⟨line, gives⟩

/-- A cut is in its window. -/
theorem findCut_bounds (lines : List LineInfo) (chars : List Char)
    {from_ upTo : ℕ} (window : from_ ≤ upTo) (within : upTo ≤ chars.length) :
    findCut lines chars from_ upTo ≤ upTo ∧
      (from_ < upTo → from_ < findCut lines chars from_ upTo) := by
  unfold findCut
  dsimp only
  split
  · rename_i cut found
    obtain ⟨line, gives⟩ := lastCut_mem found
    split_ifs at gives with inside
    obtain rfl := Option.some.inj gives
    exact ⟨inside.2.2, fun _ => inside.2.1⟩
  split
  · rename_i cut found
    obtain ⟨line, gives⟩ := lastCut_mem found
    split_ifs at gives with inside
    obtain rfl := Option.some.inj gives
    exact ⟨inside.2.2, fun _ => inside.2.1⟩
  split
  · rename_i cut found
    obtain ⟨line, gives⟩ := lastCut_mem found
    split_ifs at gives with inside
    obtain rfl := Option.some.inj gives
    exact ⟨min_le_right _ _, fun _ => inside.1⟩
  split
  · rename_i after found
    have inside := (List.findIdx?_eq_some_iff_getElem.mp found).1
    simp only [List.length_reverse, List.length_drop, List.length_take]
      at inside ⊢
    omega
  · exact ⟨le_rfl, fun more => more⟩

theorem trim_of_ends {chars : List Char}
    (first : ∀ char ∈ chars.head?, Users.isWhitespace char = false)
    (last : ∀ char ∈ chars.reverse.head?, Users.isWhitespace char = false) :
    trim chars = chars := by
  have kept : ∀ text : List Char,
      (∀ char ∈ text.head?, Users.isWhitespace char = false) →
        text.dropWhile Users.isWhitespace = text := by
    intro text start
    cases text with
    | nil => rfl
    | cons char text =>
        rw [List.dropWhile_cons_of_neg]
        simp [start char rfl]
  rw [trim, kept chars first, kept _ last, List.reverse_reverse]

/-- The line of a text without newlines. -/
theorem lineInfos_single {chars : List Char} (filled : chars ≠ [])
    (single : '\n' ∉ chars) (trimmed : trim chars = chars) :
    lineInfos chars = [{
      start := 0
      stop := chars.length
      blank := false
      closes := false
      opens :=
        if fence.isPrefixOf chars then
          some (String.ofList (chars.dropWhile fun char => char = '\x60'))
        else none }] := by
  obtain ⟨first, others, rfl⟩ := List.exists_cons_of_ne_nil filled
  have content : ((first :: others).takeWhile fun char => char ≠ '\n') =
      first :: others := by
    apply List.takeWhile_eq_self_iff.mpr
    intro char member
    have differs : char ≠ '\n' := by
      rintro rfl
      exact single member
    simpa using differs
  rw [lineInfos, lineInfosFrom, content, trimmed]
  have rest : (first :: others).drop ((first :: others).length + 1) = [] :=
    List.drop_eq_nil_of_le (by omega)
  rw [rest, lineInfosFrom]
  simp

/-- Without newlines, a window is cut after its last space. -/
theorem findCut_word {line : LineInfo} {chars : List Char} {from_ upTo : ℕ}
    (opened : line.closes = false) (filled : line.blank = false)
    (single : '\n' ∉ chars) :
    findCut [line] chars from_ upTo =
      match ((chars.take upTo).drop from_).reverse.findIdx?
          fun char => char = ' ' with
      | some after =>
          from_ + (((chars.take upTo).drop from_).length - after)
      | none => upTo := by
  have newline : ∀ index : ℕ, chars[index]? ≠ some '\n' := by
    intro index found
    exact single (List.mem_of_getElem? found)
  have nowhere (cut : LineInfo → Option ℕ) (nothing : cut line = none) :
      lastCut [line] upTo cut = none := by
    rw [lastCut, List.getLast?_eq_none_iff, List.filterMap_eq_nil_iff]
    intro other member
    have same := List.mem_singleton.mp (List.takeWhile_subset _ member)
    rw [same, nothing]
  have block := nowhere (fun line =>
    if line.closes ∧ from_ < line.stop ∧ line.stop ≤ upTo then some line.stop
    else none) (by simp [opened])
  have blank := nowhere (fun line =>
    if line.blank ∧ from_ < line.stop ∧ line.stop ≤ upTo then some line.stop
    else none) (by simp [filled])
  have ends := nowhere (fun line =>
    if from_ < min line.stop upTo ∧
      chars[min line.stop upTo - 1]? = some '\n' then some (min line.stop upTo)
    else none) (by simp [newline])
  rewrite [findCut, block, blank, ends]
  rfl

theorem findCut_single {line : LineInfo} {chars : List Char}
    {from_ upTo : ℕ} (opened : line.closes = false)
    (filled : line.blank = false) (single : '\n' ∉ chars)
    (joined : ' ' ∉ (chars.take upTo).drop from_) :
    findCut [line] chars from_ upTo = upTo := by
  have noSpace : ((chars.take upTo).drop from_).reverse.findIdx?
      (fun char => decide (char = ' ')) = none := by
    rw [List.findIdx?_eq_none_iff]
    intro char member
    have differs : char ≠ ' ' := by
      rintro rfl
      exact joined (List.mem_reverse.mp member)
    simpa using differs
  rw [findCut_word opened filled single, noSpace]

namespace Round

variable {lines : List LineInfo} {chars : List Char} {round : Round}

theorem bodyRoom_le : round.bodyRoom chars ≤ round.room := by
  unfold bodyRoom
  split_ifs
  · omega
  · exact le_rfl

theorem cut_bounds (more : round.pos < chars.length) :
    round.cut lines chars ≤ chars.length ∧
      (0 < round.bodyRoom chars →
        round.cut lines chars ≤ round.pos + round.bodyRoom chars) ∧
      (round.bodyRoom chars = 0 → round.cut lines chars = round.pos + 1) := by
  by_cases whole : round.Whole chars
  · have reaches := whole.1
    rw [cut_of_whole whole]
    omega
  · have bounds : findCut lines chars round.pos
        (min (round.pos + round.bodyRoom chars) chars.length) ≤ _ ∧ _ :=
      findCut_bounds lines chars (by omega) (min_le_right _ _)
    rw [cut_of_not_whole whole]
    omega

theorem rounds_cons (more : round.pos < chars.length) :
    round.rounds lines chars = round ::
      if round.Whole chars ∨ round.Last then []
      else (round.next lines chars).rounds lines chars := by
  rw [rounds, dif_pos more]

theorem forall_rounds {holds : Round → Prop} (start : holds round)
    (onward : ∀ round : Round, round.pos < chars.length → holds round →
      ¬ round.Whole chars → ¬ round.Last → holds (round.next lines chars)) :
    ∀ reached ∈ round.rounds lines chars,
      holds reached ∧ reached.pos < chars.length := by
  induction round using rounds.induct lines chars with
  | case1 round more induction =>
      rw [rounds_cons more]
      intro reached member
      rcases List.mem_cons.mp member with rfl | later
      · exact ⟨start, more⟩
      · split at later
        · cases later
        · rename_i goes
          push Not at goes
          exact induction (onward round more start goes.1 goes.2) reached later
  | case2 round stop =>
      intro reached member
      rw [rounds, dif_neg stop] at member
      cases member

theorem next_mem_rounds {reached : Round}
    (member : reached ∈ round.rounds lines chars)
    (short : ¬ reached.Whole chars) (more : ¬ reached.Last)
    (left : (reached.next lines chars).pos < chars.length) :
    reached.next lines chars ∈ round.rounds lines chars := by
  induction round using rounds.induct lines chars with
  | case1 round inside induction =>
      rw [rounds_cons inside] at member ⊢
      rcases List.mem_cons.mp member with rfl | later
      · rw [if_neg (not_or.mpr ⟨short, more⟩), rounds_cons left]
        exact List.mem_cons_of_mem _ List.mem_cons_self
      · split at later
        · cases later
        · rename_i goes
          rw [if_neg goes]
          exact List.mem_cons_of_mem _ (induction later)
  | case2 round stop =>
      rw [rounds, dif_neg stop] at member
      cases member

theorem length_rounds (allowed : round.index < MAX_PARTS) :
    (round.rounds lines chars).length ≤ MAX_PARTS - round.index := by
  induction round using rounds.induct lines chars with
  | case1 round more induction =>
      rw [rounds_cons more, List.length_cons]
      split
      · rw [List.length_nil]
        omega
      · rename_i goes
        push Not at goes
        have last := goes.2
        have rest := induction (by simp only [next]; omega)
        simp only [next] at rest ⊢
        omega
  | case2 round stop =>
      rw [rounds, dif_neg stop]
      simp

end Round

end MiryadCore.Chat.Bridging
