import MiryadCore.Chat.CodeBlocks
import MiryadCore.Chat.PartLengths

/-!
# The code blocks across the parts

Each part of a long text is balanced, and its characters are in the blocks that
they are in in the text, as long as no line is cut into pieces that are read as
other markers than the line.
-/

namespace MiryadCore.Chat.Bridging

open LineStates

/-- The parts are balanced, and a character has in its part the block that it
has in the text.  The parts before it tell where a part starts. -/
structure Enclosed (text : String) : Prop where
  made : splitMessage text = numbered ((pieces text).map Piece.text)
  suffixed : ∀ piece ∈ pieces text,
    piece.text.toList = piece.bare ++ (truncation piece.omitted).toList
  balanced : ∀ piece ∈ pieces text, Balanced piece.bare
  inside : ∀ before piece after, pieces text = before ++ piece :: after →
    ∀ index < piece.body.toList.length,
      blockOf piece.bare ((reopening piece.reopened).toList.length + index) =
        blockOf text.toList ((stripped before).length + index)

/-- A part that begins inside a line does not begin with a marker, and a line
that it begins and does not end leaves the block that the whole line leaves. -/
def Round.Sound (text : String) (round : Round) : Prop :=
  Cut '\n' lineState none (text.toList.take round.pos)
    (round.piece (lineInfos text.toList) text.toList).body.toList
    (text.toList.drop (round.cut (lineInfos text.toList) text.toList))

namespace Round

variable {text : String} {round : Round}

theorem reopened_of_mem (long : ¬ text.toList.length ≤ MAX_PART_CHARS)
    (member : round ∈ roundsOf text) :
    round.reopened = fenced text.toList round.pos := by
  rw [roundsOf_long long] at member
  have kept : ∀ reached ∈ Round.rounds (lineInfos text.toList) text.toList
      ⟨0, 0, none⟩, reached.reopened = fenced text.toList reached.pos ∧
        reached.pos < text.toList.length := by
    apply Round.forall_rounds
    · rw [fenced_eq, List.take_zero]
      rfl
    · intro round _ _ short _
      rw [next, closed_of_not_whole short]
      rfl
  exact (kept round member).1

theorem text_split (more : round.pos < text.toList.length) :
    text.toList.take round.pos ++
        ((round.piece (lineInfos text.toList) text.toList).body.toList ++
          text.toList.drop (round.cut (lineInfos text.toList) text.toList)) =
      text.toList := by
  have further := (round.pos_lt_cut (lineInfos text.toList) text.toList more).le
  rw [body_toList, ← List.append_assoc]
  have first : text.toList.take round.pos =
      (text.toList.take (round.cut (lineInfos text.toList) text.toList)).take
        round.pos := by
    rw [List.take_take, Nat.min_eq_left further]
  rw [first, List.take_append_drop, List.take_append_drop]

variable (more : round.pos < text.toList.length)
  (reopens : round.reopened = fenced text.toList round.pos)
include more reopens

theorem sound_iff_blocks :
    round.Sound text ↔
      blocks round.reopened
          (round.piece (lineInfos text.toList) text.toList).body.toList =
        ((blocks none text.toList).drop round.pos).take
          (round.piece (lineInfos text.toList)
            text.toList).body.toList.length := by
  have split := text_split more
  have length : (text.toList.take round.pos).length = round.pos := by
    rw [List.length_take]
    omega
  have opened := fenced_append (text.toList.take round.pos)
    ((round.piece (lineInfos text.toList) text.toList).body.toList ++
      text.toList.drop (round.cut (lineInfos text.toList) text.toList))
  have slice := slice_iff '\n' lineState_nil none
    (text.toList.take round.pos)
    (round.piece (lineInfos text.toList) text.toList).body.toList
    (text.toList.drop (round.cut (lineInfos text.toList) text.toList))
  rw [split, length, ← reopens] at opened
  rw [← opened, split, length] at slice
  exact slice.symm

theorem inside_iff :
    (∀ index <
        (round.piece (lineInfos text.toList) text.toList).body.toList.length,
      blockOf (round.piece (lineInfos text.toList) text.toList).bare
          ((reopening round.reopened).toList.length + index) =
        blockOf text.toList (round.pos + index)) ↔
      round.Sound text := by
  rw [sound_iff_blocks more reopens]
  have named : Named round.reopened := by
    rw [reopens]
    exact named_fenced _ _
  have fits := congrArg List.length (text_split more)
  rw [List.length_append, List.length_append, List.length_take] at fits
  have here : ∀ {index}, index <
      (round.piece (lineInfos text.toList) text.toList).body.toList.length →
        (blocks round.reopened (round.piece (lineInfos text.toList)
          text.toList).body.toList)[index]? =
            some (blockOf (round.piece (lineInfos text.toList) text.toList).bare
              ((reopening round.reopened).toList.length + index)) :=
    fun inside => blockOf_bare named inside
  have there : ∀ {index}, index <
      (round.piece (lineInfos text.toList) text.toList).body.toList.length →
        (((blocks none text.toList).drop round.pos).take
          (round.piece (lineInfos text.toList)
            text.toList).body.toList.length)[index]? =
          some (blockOf text.toList (round.pos + index)) := by
    intro index inside
    rw [List.getElem?_take_of_lt inside, List.getElem?_drop,
      blockOf_eq (by omega)]
  constructor
  · intro same
    apply List.ext_getElem?
    intro index
    by_cases inside : index <
        (round.piece (lineInfos text.toList) text.toList).body.toList.length
    · rw [here inside, there inside, same index inside]
    · rw [List.getElem?_eq_none (by rw [length_run]; omega),
        List.getElem?_eq_none (by rw [List.length_take]; omega)]
  · intro slice index inside
    have same := (here inside).symm.trans
      ((congrArg (·[index]?) slice).trans (there inside))
    exact Option.some.inj same

/-- A part that has the blocks of the text is balanced. -/
theorem balanced_of_sound (balanced : Balanced text.toList)
    (sound : round.Sound text) :
    Balanced (round.piece (lineInfos text.toList) text.toList).bare := by
  have slice := (sound_iff_blocks more reopens).mp sound
  have further := round.pos_lt_cut (lineInfos text.toList) text.toList more
  have within : round.cut (lineInfos text.toList) text.toList ≤
      text.toList.length := (cut_bounds more).1
  have length : (round.piece (lineInfos text.toList)
      text.toList).body.toList.length =
        round.cut (lineInfos text.toList) text.toList - round.pos := by
    rw [body_toList, List.length_drop, List.length_take]
    omega
  have leaves : stateAt '\n' lineState round.reopened
      (round.piece (lineInfos text.toList) text.toList).body.toList [] =
        fenced text.toList (round.cut (lineInfos text.toList) text.toList) := by
    have filled : blocks round.reopened (round.piece (lineInfos text.toList)
        text.toList).body.toList ≠ [] := by
      apply List.ne_nil_of_length_pos
      rw [length_run]
      omega
    obtain ⟨earlier, last, ends⟩ := List.eq_nil_or_concat'
      (blocks round.reopened (round.piece (lineInfos text.toList)
        text.toList).body.toList) |>.resolve_left filled
    have upTo : round.cut (lineInfos text.toList) text.toList = round.pos +
        (round.piece (lineInfos text.toList) text.toList).body.toList.length := by
      omega
    rw [stateAt_eq, List.append_nil, List.take_of_length_le (by simp)]
    refine (congrArg (List.getLastD · _) ends).trans ?_
    rw [List.getLastD_concat, fenced_eq, upTo, List.take_add, ← slice, ends,
      ← List.append_assoc, List.getLastD_concat]
  apply balanced_bare
  · have named : Named round.reopened := by
      rw [reopens]
      exact named_fenced _ _
    exact named
  · have closes : round.closed (lineInfos text.toList) text.toList =
        (fenced text.toList
          (round.cut (lineInfos text.toList) text.toList)).isSome := by
      by_cases whole : round.Whole text.toList
      · rw [closed_of_whole whole, cut_of_whole whole, balanced]
        rfl
      · rw [closed_of_not_whole whole, fenced]
        split
        · rename_i opened
          rw [opened]
          rfl
        · rename_i shut
          rw [Bool.not_eq_true] at shut
          rw [shut]
          rfl
    exact closes.trans (congrArg Option.isSome leaves).symm

end Round

/-- The parts of a balanced text have its blocks exactly when no line is cut
into pieces that are read as other markers. -/
theorem split_encloses_iff (text : String)
    (long : MAX_PART_CHARS < text.toList.length)
    (balanced : Balanced text.toList) :
    Enclosed text ↔ ∀ round ∈ roundsOf text, round.Sound text := by
  have long : ¬ text.toList.length ≤ MAX_PART_CHARS := Nat.not_le.mpr long
  have starts : ∀ {before after : List Round} {round : Round},
      roundsOf text = before ++ round :: after →
        (stripped (before.map fun round =>
          round.piece (lineInfos text.toList) text.toList)).length =
            round.pos := by
    intro before after round split
    obtain ⟨_, pos⟩ := Round.rounds_split (Nat.zero_le _)
      ((roundsOf_long long).symm.trans split)
    rw [stripped_rounds]
    dsimp only at pos
    omega
  constructor
  · intro enclosed round member
    obtain ⟨before, after, split⟩ := List.append_of_mem member
    apply (Round.inside_iff (pos_lt_of_mem long member)
      (Round.reopened_of_mem long member)).mp
    have inside := enclosed.inside _ _ _ (by
      rw [pieces_long long, split, List.map_append, List.map_cons])
    rw [starts split] at inside
    exact inside
  · intro sound
    refine ⟨splitMessage_eq text, fun piece _ => text_eq_bare piece, ?_, ?_⟩
    · intro piece member
      rw [pieces_long long] at member
      obtain ⟨round, listed, rfl⟩ := List.mem_map.mp member
      exact Round.balanced_of_sound (pos_lt_of_mem long listed)
        (Round.reopened_of_mem long listed) balanced (sound round listed)
    · intro before piece after split
      rw [pieces_long long] at split
      obtain ⟨rounds, others, parts, rfl, rest⟩ := List.map_eq_append_iff.mp split
      obtain ⟨round, others, rfl, rfl, rfl⟩ := List.map_eq_cons_iff.mp rest
      have member : round ∈ roundsOf text := by simp [parts]
      rw [starts parts]
      exact (Round.inside_iff (pos_lt_of_mem long member)
        (Round.reopened_of_mem long member)).mpr (sound round member)

theorem lineState_of_unmarked {line : List Char} (unmarked : '\x60' ∉ line)
    (state : Option String) : lineState state line = state := by
  unfold lineState
  rw [if_neg]
  intro marks
  obtain ⟨rest, starts⟩ := List.isPrefixOf_iff_prefix.mp marks
  apply unmarked
  apply trim_subset line
  rw [← starts]
  exact List.mem_append_left _ List.mem_cons_self

/-- A code block of one line. -/
def codeText (count : ℕ) : String :=
  String.ofList (fence ++ '\n' :: (List.replicate count 'a' ++ '\n' :: fence))

namespace Coded

variable {count : ℕ}

theorem length : (codeText count).toList.length = count + 8 := by
  rw [codeText, String.toList_ofList]
  simp [fence]

theorem notMem_letters {char : Char} (other : char ≠ 'a') :
    char ∉ List.replicate count 'a' :=
  fun member => other (List.eq_of_mem_replicate member)

theorem lines (positive : 0 < count) :
    lineInfos (codeText count).toList =
      [⟨0, 4, false, false, some ""⟩, ⟨4, count + 5, false, false, none⟩,
        ⟨count + 5, count + 8, false, true, none⟩] := by
  obtain ⟨less, rfl⟩ : ∃ less, count = less + 1 := ⟨count - 1, by omega⟩
  have marker : Users.trim fence = fence := by decide
  have trimmed : Users.trim (List.replicate (less + 1) 'a') =
      List.replicate (less + 1) 'a' := by
    apply trim_of_ends
    · intro char first
      cases first
      decide
    · intro char last
      rw [List.reverse_replicate] at last
      cases last
      decide
  have plain : fence.isPrefixOf (List.replicate (less + 1) 'a') = false := rfl
  rw [codeText, String.toList_ofList, lineInfos,
    lineInfosFrom_line (by decide),
    lineInfosFrom_line (notMem_letters (by decide)),
    lineInfosFrom_last (by decide) (by decide)]
  simp only [infoOf, trimmed, plain, marker]
  simp [fence]
  omega

theorem letters {start stop : ℕ} (first : 4 ≤ start) (last : stop ≤ count + 4) :
    ((codeText count).toList.take stop).drop start ⊆ List.replicate count 'a' := by
  intro char member
  have split : (codeText count).toList =
      (fence ++ ['\n']) ++ (List.replicate count 'a' ++ '\n' :: fence) := by
    rw [codeText, String.toList_ofList]
    simp
  obtain ⟨more, rfl⟩ : ∃ more, start = (fence ++ ['\n']).length + more :=
    ⟨start - 4, by simp [fence]; omega⟩
  by_cases empty : stop < 4
  · rw [List.drop_eq_nil_of_le] at member
    · cases member
    · rw [List.length_take]
      have four : (fence ++ ['\n']).length = 4 := rfl
      omega
  · obtain ⟨less, rfl⟩ : ∃ less, stop = (fence ++ ['\n']).length + less :=
      ⟨stop - 4, by simp [fence]; omega⟩
    rw [split, List.take_length_add_append, List.drop_length_add_append] at member
    have four : (fence ++ ['\n']).length = 4 := rfl
    rw [List.take_append_of_le_length
      (by rw [List.length_replicate]; omega)] at member
    exact List.mem_of_mem_take (List.mem_of_mem_drop member)

theorem newline : (codeText count).toList[3]? = some '\n' := by
  rw [codeText, String.toList_ofList]
  rfl

theorem within (long : 3972 ≤ count) :
    (codeText count).toList[3975]? ≠ some '\n' := by
  intro found
  have member : '\n' ∈ ((codeText count).toList.take 3976).drop 3975 := by
    apply List.mem_of_getElem? (i := 0)
    rw [List.getElem?_drop, List.getElem?_take, if_pos (by decide)]
    exact found
  exact notMem_letters (by decide) (letters (by omega) (by omega) member)

theorem cuts (long : 3972 ≤ count) :
    findCut (lineInfos (codeText count).toList) (codeText count).toList 0 3976 =
      4 ∧
    findCut (lineInfos (codeText count).toList) (codeText count).toList 4 3976 =
      3976 := by
  have before : ((lineInfos (codeText count).toList).takeWhile
      fun line => line.start < 3976) =
        [⟨0, 4, false, false, some ""⟩, ⟨4, count + 5, false, false, none⟩] := by
    rw [lines (by omega)]
    have beyond : ¬ count + 5 < 3976 := by omega
    simp [beyond]
  have joined : (((codeText count).toList.take 3976).drop 4).reverse.findIdx?
      (fun char => decide (char = ' ')) = none := by
    rw [List.findIdx?_eq_none_iff]
    intro char member
    have same := List.eq_of_mem_replicate
      (letters (by omega) (by omega) (List.mem_reverse.mp member))
    rw [same]
    rfl
  have edge : min (count + 5) 3976 = 3976 := by omega
  constructor
  · simp [findCut, lastCut, before, newline, within long, edge]
  · simp [findCut, lastCut, before, within long, edge, joined]

theorem states (long : 3972 ≤ count) :
    fenceState (lineInfos (codeText count).toList) 4 = (true, "") ∧
      fenceState (lineInfos (codeText count).toList) 3976 = (true, "") := by
  rw [lines (by omega)]
  have inside : 3976 < count + 5 := by omega
  constructor
  · rfl
  · simp [fenceState, fenceStateFrom, inside]

theorem more (long : 3993 ≤ count) :
    ¬ (codeText count).toList.length ≤ MAX_PART_CHARS := by
  have most : MAX_PART_CHARS = 4000 := rfl
  rw [length]
  omega

theorem rooms :
    (⟨0, 0, none⟩ : Round).bodyRoom (codeText count).toList = 3976 ∧
    ∀ index pos, index + 1 ≠ MAX_PARTS →
      (⟨index, pos, some ""⟩ : Round).bodyRoom (codeText count).toList =
        3972 := by
  have reopened : (reopening (some "")).length = 4 := by decide
  constructor
  · exact if_neg fun both => absurd both.1 (by decide)
  · intro index pos early
    rw [Round.bodyRoom, if_neg fun both => early both.1, Round.room, reopened]
    rfl

theorem wholes (long : 3993 ≤ count) (short : count ≤ 7940) :
    ¬ (⟨0, 0, none⟩ : Round).Whole (codeText count).toList ∧
    ¬ (⟨1, 4, some ""⟩ : Round).Whole (codeText count).toList ∧
    (⟨2, 3976, some ""⟩ : Round).Whole (codeText count).toList := by
  refine ⟨?_, ?_, ?_, by decide⟩
  · rintro ⟨whole, _⟩
    rw [rooms.1, length] at whole
    dsimp only at whole
    omega
  · rintro ⟨whole, _⟩
    rw [rooms.2 1 4 (by decide), length] at whole
    dsimp only at whole
    omega
  · rw [rooms.2 2 3976 (by decide), length]
    dsimp only
    omega

theorem roundCuts (long : 3993 ≤ count) (short : count ≤ 7940) :
    (⟨0, 0, none⟩ : Round).cut (lineInfos (codeText count).toList)
        (codeText count).toList = 4 ∧
    (⟨1, 4, some ""⟩ : Round).cut (lineInfos (codeText count).toList)
        (codeText count).toList = 3976 ∧
    (⟨2, 3976, some ""⟩ : Round).cut (lineInfos (codeText count).toList)
        (codeText count).toList = (codeText count).toList.length := by
  obtain ⟨first, second, third⟩ := wholes long short
  refine ⟨?_, ?_, Round.cut_of_whole third⟩
  · rw [Round.cut_of_not_whole first, rooms.1, length,
      min_eq_left (by dsimp only; omega), (cuts (by omega)).1]
    rfl
  · rw [Round.cut_of_not_whole second, rooms.2 1 4 (by decide), length,
      min_eq_left (by dsimp only; omega)]
    dsimp only
    rw [(cuts (by omega)).2]
    rfl

/-- The block is cut twice, and opened again in the next part. -/
theorem rounds (long : 3993 ≤ count) (short : count ≤ 7940) :
    roundsOf (codeText count) =
      [⟨0, 0, none⟩, ⟨1, 4, some ""⟩, ⟨2, 3976, some ""⟩] := by
  obtain ⟨first, second, third⟩ := wholes long short
  obtain ⟨cut, cut', _⟩ := roundCuts long short
  have next : (⟨0, 0, none⟩ : Round).next (lineInfos (codeText count).toList)
      (codeText count).toList = ⟨1, 4, some ""⟩ := by
    rw [Round.next, Round.closed_of_not_whole first, cut, (states (by omega)).1]
    rfl
  have next' : (⟨1, 4, some ""⟩ : Round).next
      (lineInfos (codeText count).toList) (codeText count).toList =
        ⟨2, 3976, some ""⟩ := by
    rw [Round.next, Round.closed_of_not_whole second, cut',
      (states (by omega)).2]
    rfl
  rw [roundsOf_long (more long),
    Round.rounds_cons (by rw [length]; dsimp only; omega),
    if_neg (not_or.mpr ⟨first, by decide⟩), next,
    Round.rounds_cons (by rw [length]; dsimp only; omega),
    if_neg (not_or.mpr ⟨second, by decide⟩), next',
    Round.rounds_cons (by rw [length]; dsimp only; omega), if_pos (.inl third)]

variable {half more : ℕ}

/-- The first two parts, and what is left of the text. -/
theorem halves :
    (codeText (half + more)).toList =
      (fence ++ '\n' :: List.replicate half 'a') ++
        (List.replicate more 'a' ++ '\n' :: fence) := by
  rw [codeText, String.toList_ofList, ← List.replicate_append_replicate]
  simp only [List.append_assoc, List.cons_append]

theorem take_half :
    (codeText (half + more)).toList.take (half + 4) =
      fence ++ '\n' :: List.replicate half 'a' := by
  rw [halves]
  exact List.take_left' (by simp [fence])

theorem drop_half :
    (codeText (half + more)).toList.drop (half + 4) =
      List.replicate more 'a' ++ '\n' :: fence := by
  rw [halves]
  exact List.drop_left' (by simp [fence])

theorem take_first : (codeText count).toList.take 4 = fence ++ ['\n'] := by
  rw [codeText, String.toList_ofList]
  rfl

theorem firstLine_rest :
    firstLine '\n' (List.replicate more 'a' ++ '\n' :: fence) =
      List.replicate more 'a' := by
  rw [firstLine_append (notMem_letters (by decide)), firstLine_cons,
    List.append_nil]

theorem lineState_letters (state : Option String) :
    lineState state (List.replicate count 'a') = state :=
  lineState_of_unmarked (notMem_letters (by decide)) state

/-- No part begins or ends where a marker could be misread. -/
theorem sound (long : 3993 ≤ half + more) (short : half + more ≤ 7940)
    (halved : half = 3972) :
    ∀ round ∈ roundsOf (codeText (half + more)),
      round.Sound (codeText (half + more)) := by
  obtain ⟨first, second, third⟩ := roundCuts long short
  rw [rounds long short]
  have at_ : 3976 = half + 4 := by omega
  simp only [List.forall_mem_cons]
  refine ⟨?_, ?_, ?_, List.forall_mem_nil _⟩
  · unfold Round.Sound
    rw [Round.body_toList, first, take_first]
    constructor
    · exact fun inside => absurd rfl inside
    · exact fun _ inside => absurd rfl inside
  · unfold Round.Sound
    rw [Round.body_toList, second, at_, take_half, drop_half]
    dsimp only
    rw [take_first]
    constructor
    · exact fun inside => absurd rfl inside
    · intro _ inside
      have body : (fence ++ '\n' :: List.replicate half 'a').drop 4 =
        List.replicate half 'a' := rfl
      rw [body, scan_line (notMem_letters (by decide)), firstLine_rest,
        List.nil_append, lineState_letters, List.replicate_append_replicate,
        lineState_letters]
  · unfold Round.Sound
    rw [Round.body_toList, third, List.take_length, List.drop_length]
    dsimp only
    rw [at_, drop_half, take_half]
    constructor
    · intro _
      rw [firstLine_rest, lineState_letters]
    · intro _ _
      simp only [firstLine, List.takeWhile_nil, List.append_nil]

end Coded

theorem code_enclosed : Enclosed (codeText 4000) := by
  obtain ⟨half, halved⟩ : ∃ half, half = 3972 := ⟨_, rfl⟩
  have count : 4000 = half + 28 := by omega
  rw [count]
  have long : MAX_PART_CHARS < (codeText (half + 28)).toList.length := by
    have most : MAX_PART_CHARS = 4000 := rfl
    rw [Coded.length]
    omega
  have balanced : Balanced (codeText (half + 28)).toList := by
    have beyond : ¬ half + 28 + 8 < 4 := by omega
    rw [Balanced, fenced, Coded.length, Coded.lines (by omega)]
    simp [fenceState, fenceStateFrom, beyond]
  exact (split_encloses_iff (codeText (half + 28)) long balanced).mpr
    (Coded.sound (by omega) (by omega) halved)

/-- A word, a marker and a word, on one line. -/
def markedText (lead count : ℕ) : String :=
  String.ofList (List.replicate lead 'a' ++
    ' ' :: (fence ++ List.replicate count 'a'))

namespace Marked

variable {lead count : ℕ}

theorem length : (markedText lead count).toList.length = lead + count + 4 := by
  rw [markedText, String.toList_ofList]
  simp [fence]
  omega

theorem split (lead count : ℕ) : (markedText lead count).toList =
    (List.replicate lead 'a' ++ [' ']) ++
      (fence ++ List.replicate count 'a') := by
  rw [markedText, String.toList_ofList, List.append_assoc,
    List.singleton_append]

theorem length_first : (List.replicate lead 'a' ++ [' ']).length = lead + 1 := by
  simp

theorem lines (led : 0 < lead) (filled : 0 < count) :
    lineInfos (markedText lead count).toList =
      [⟨0, lead + count + 4, false, false, none⟩] := by
  obtain ⟨less, rfl⟩ : ∃ less, lead = less + 1 := ⟨lead - 1, by omega⟩
  have chars : (markedText (less + 1) count).toList = 'a' ::
      (List.replicate less 'a' ++
        ' ' :: (fence ++ List.replicate count 'a')) := by
    rw [markedText, String.toList_ofList, List.replicate_succ]
    rfl
  have some_text : (markedText (less + 1) count).toList ≠ [] := by
    rw [chars]
    exact List.cons_ne_nil _ _
  have single : '\n' ∉ (markedText (less + 1) count).toList := by
    simp [markedText, fence]
  have trimmed : Users.trim (markedText (less + 1) count).toList =
      (markedText (less + 1) count).toList := by
    apply trim_of_ends
    · rw [chars]
      intro char first
      cases first
      decide
    · obtain ⟨fewer, rfl⟩ : ∃ fewer, count = fewer + 1 := ⟨count - 1, by omega⟩
      intro char last
      rw [markedText, String.toList_ofList, List.reverse_append,
        List.reverse_cons, List.reverse_append, List.reverse_replicate,
        List.replicate_succ] at last
      cases last
      decide
  rw [lineInfos_single some_text single trimmed, length, chars]
  rfl

theorem fences (led : 0 < lead) (filled : 0 < count) (cut : ℕ) :
    fenceState (lineInfos (markedText lead count).toList) cut = (false, "") := by
  rw [lines led filled]
  simp [fenceState, fenceStateFrom]

/-- The first part ends at the space. -/
theorem next (led : lead = 3975) (filled : 0 < count) :
    ¬ (⟨0, 0, none⟩ : Round).Whole (markedText lead count).toList ∧
      (⟨0, 0, none⟩ : Round).next (lineInfos (markedText lead count).toList)
          (markedText lead count).toList = ⟨1, 3976, none⟩ := by
  have room : (⟨0, 0, none⟩ : Round).bodyRoom (markedText lead count).toList =
      3976 := rfl
  have short : ¬ (⟨0, 0, none⟩ : Round).Whole (markedText lead count).toList := by
    rintro ⟨whole, _⟩
    rw [room, length] at whole
    dsimp only at whole
    omega
  have window : (((markedText lead count).toList.take 3976).drop 0).reverse =
      ' ' :: List.replicate lead 'a' := by
    rw [split, List.take_left' (by rw [length_first]; omega), List.drop_zero,
      List.reverse_append, List.reverse_replicate]
    rfl
  have cut : (⟨0, 0, none⟩ : Round).cut (lineInfos (markedText lead count).toList)
      (markedText lead count).toList = 3976 := by
    have taken : ((markedText lead count).toList.take 3976).length = 3976 := by
      rw [List.length_take, length]
      omega
    rw [Round.cut_of_not_whole short, room, length,
      min_eq_left (by dsimp only; omega), lines (by omega) filled,
      findCut_word rfl rfl (by simp [markedText, fence])]
    dsimp only
    rw [Nat.zero_add, window, List.findIdx?_cons, if_pos (by rfl)]
    dsimp only
    rw [List.drop_zero, taken]
    rfl
  refine ⟨short, ?_⟩
  rw [Round.next, Round.closed_of_not_whole short, cut,
    fences (by omega) filled]
  rfl

theorem reached (led : lead = 3975) (more : 100 ≤ count) :
    (⟨1, 3976, none⟩ : Round) ∈ roundsOf (markedText lead count) := by
  obtain ⟨short, same⟩ := next led (show 0 < count by omega)
  have long : ¬ (markedText lead count).toList.length ≤ MAX_PART_CHARS := by
    have most : MAX_PART_CHARS = 4000 := rfl
    rw [length]
    omega
  rw [roundsOf_long long, ← same]
  apply Round.next_mem_rounds _ short (by decide)
  · rw [same, length]
    dsimp only
    omega
  · rw [Round.rounds_cons (by rw [length]; dsimp only; omega)]
    exact List.mem_cons_self

theorem second (led : lead = 3975) (few : count < 3000) :
    ((⟨1, 3976, none⟩ : Round).piece (lineInfos (markedText lead count).toList)
      (markedText lead count).toList).bare = (fencedText count).toList := by
  have whole : (⟨1, 3976, none⟩ : Round).Whole (markedText lead count).toList := by
    have room : (⟨1, 3976, none⟩ : Round).bodyRoom
        (markedText lead count).toList = 3976 := rfl
    refine ⟨?_, by decide⟩
    rw [room, length]
    dsimp only
    omega
  rw [Piece.bare, Round.body_toList, Round.cut_of_whole whole, List.take_length]
  have shut : ((⟨1, 3976, none⟩ : Round).piece
      (lineInfos (markedText lead count).toList)
      (markedText lead count).toList).closed = false :=
    Round.closed_of_whole whole
  rw [shut, closing_false, split,
    List.drop_left' (by rw [length_first, led])]
  exact (List.append_nil _).trans String.toList_ofList.symm

end Marked

/-- A marker in the middle of a line opens a block at the start of a part. -/
theorem marked_unbalanced :
    ¬∀ text : String, MAX_PART_CHARS < text.toList.length →
      Balanced text.toList → Enclosed text := by
  intro claim
  obtain ⟨lead, led⟩ : ∃ lead, lead = 3975 := ⟨_, rfl⟩
  obtain ⟨count, counted⟩ : ∃ count, count = 100 := ⟨_, rfl⟩
  have long : MAX_PART_CHARS < (markedText lead count).toList.length := by
    have most : MAX_PART_CHARS = 4000 := rfl
    rw [Marked.length]
    omega
  have balanced : Balanced (markedText lead count).toList := by
    rw [Balanced, fenced, Marked.fences (by omega) (by omega)]
    rfl
  have enclosed := claim (markedText lead count) long balanced
  have part := enclosed.balanced
    ((⟨1, 3976, none⟩ : Round).piece (lineInfos (markedText lead count).toList)
      (markedText lead count).toList) (by
        rw [pieces_long (Nat.not_le.mpr long)]
        exact List.mem_map_of_mem (Marked.reached led (by omega)))
  rw [Marked.second led (by omega), Balanced, fenced,
    Fenced.lines (by omega), Fenced.length] at part
  simp [fenceState, fenceStateFrom] at part

end MiryadCore.Chat.Bridging
