import MiryadCore.Chat.Parts

/-!
# What the parts of a text keep

Without their markers, the parts are the text up to where the last one was
cut.  The last part that is allowed is cut like the others, even when all that
is left has room in it; and a marker that opens a block again takes the room
that it needs, whatever the length of its language.
-/

namespace MiryadCore.Chat.Bridging

namespace Round

variable {lines : List LineInfo} {chars : List Char} {round : Round}

/-- The texts of the rounds, without the markers. -/
def bodies (lines : List LineInfo) (chars : List Char) (rounds : List Round) :
    List Char :=
  rounds.flatMap fun round => (round.piece lines chars).body.toList

theorem body_toList :
    (round.piece lines chars).body.toList =
      (chars.take (round.cut lines chars)).drop round.pos := by
  rw [piece, String.toList_ofList]

theorem drop_take_append (chars : List Char) {start middle stop : ℕ}
    (first : start ≤ middle) (second : middle ≤ stop)
    (within : stop ≤ chars.length) :
    (chars.take middle).drop start ++ (chars.take stop).drop middle =
      (chars.take stop).drop start := by
  have split : chars.take stop =
      chars.take middle ++ (chars.take stop).drop middle := by
    have parts := List.take_append_drop middle (chars.take stop)
    rw [List.take_take, min_eq_left second] at parts
    exact parts.symm
  have shorter : start ≤ (chars.take middle).length := by
    rw [List.length_take]
    omega
  conv => rhs; rw [split, List.drop_append_of_le_length shorter]

/-- The parts follow each other, and the last one says what is missing. -/
theorem bodies_rounds (lines : List LineInfo) (chars : List Char)
    (round : Round) (started : round.pos ≤ chars.length) :
    ∃ stop, round.pos ≤ stop ∧ stop ≤ chars.length ∧
      bodies lines chars (round.rounds lines chars) =
        (chars.take stop).drop round.pos ∧
      ((∀ reached ∈ round.rounds lines chars,
        (reached.piece lines chars).omitted = none) → stop = chars.length) ∧
      ∀ reached ∈ round.rounds lines chars, ∀ omitted,
        (reached.piece lines chars).omitted = some omitted →
          stop + omitted = chars.length := by
  induction round using rounds.induct lines chars with
  | case1 round more induction =>
      have further := round.pos_lt_cut lines chars more
      have within : round.cut lines chars ≤ chars.length :=
        (cut_bounds more).1
      rw [rounds_cons more]
      by_cases stops : round.Whole chars ∨ round.Last
      · rw [if_pos stops]
        refine ⟨round.cut lines chars, further.le, within, ?_, ?_, ?_⟩
        · simp [bodies, body_toList]
        · intro kept
          rcases stops with whole | last
          · exact cut_of_whole whole
          · by_contra shorter
            have cutOff : round.cut lines chars < chars.length := by omega
            have none := kept round List.mem_cons_self
            rw [omitted_of_lt last cutOff] at none
            cases none
        · intro reached member count omits
          obtain rfl := List.mem_singleton.mp member
          exact (omitted_eq_some omits).2.2
      · rw [if_neg stops]
        push Not at stops
        obtain ⟨stop, after, before, text, all, missing⟩ := induction within
        refine ⟨stop, further.le.trans after, before, ?_, ?_, ?_⟩
        · have first : bodies lines chars (round :: (round.next lines
              chars).rounds lines chars) = _ ++ bodies lines chars
                ((round.next lines chars).rounds lines chars) :=
            List.flatMap_cons
          rw [first, text, body_toList]
          exact drop_take_append chars further.le after before
        · intro kept
          exact all fun reached member =>
            kept reached (List.mem_cons_of_mem _ member)
        · intro reached member count omits
          rcases List.mem_cons.mp member with rfl | later
          · exact (stops.2 (omitted_eq_some omits).1).elim
          · exact missing reached later count omits
  | case2 round stop =>
      have finished : round.pos = chars.length := by omega
      refine ⟨chars.length, started, le_rfl, ?_, fun _ => rfl, ?_⟩
      · rw [rounds, dif_neg stop, finished, List.take_length, List.drop_length]
        rfl
      · intro reached member
        rw [rounds, dif_neg stop] at member
        cases member

/-- Each round starts where the parts before it end. -/
theorem rounds_split {before after : List Round} {reached : Round}
    (started : round.pos ≤ chars.length)
    (split : round.rounds lines chars = before ++ reached :: after) :
    reached.index = round.index + before.length ∧
      round.pos + (bodies lines chars before).length = reached.pos := by
  induction before generalizing round with
  | nil =>
      by_cases more : round.pos < chars.length
      · rw [rounds_cons more] at split
        obtain rfl := (List.cons.inj split).1
        simp [bodies]
      · rw [rounds, dif_neg more] at split
        cases split
  | cons first before induction =>
      by_cases more : round.pos < chars.length
      · have further := round.pos_lt_cut lines chars more
        have within : round.cut lines chars ≤ chars.length :=
          (cut_bounds more).1
        rw [rounds_cons more] at split
        obtain ⟨rfl, rest⟩ := List.cons.inj split
        split_ifs at rest with stops
        · simp at rest
        · obtain ⟨index, pos⟩ := induction within rest
          have length : (bodies lines chars (round :: before)).length =
              (round.cut lines chars - round.pos) +
                (bodies lines chars before).length := by
            simp only [bodies, List.flatMap_cons, List.length_append,
              body_toList, List.length_drop, List.length_take]
            omega
          simp only [next] at index pos
          rw [List.length_cons, length]
          omega
      · rw [rounds, dif_neg more] at split
        cases split

theorem cut_of_room (more : round.pos < chars.length) (last : round.Last)
    (fits : chars.length ≤ round.pos + round.room) :
    round.cut lines chars =
      findCut lines chars round.pos chars.length := by
  have room : round.bodyRoom chars = round.room :=
    if_neg fun both => by omega
  have bounds := findCut_bounds lines chars more.le le_rfl
  rw [cut_of_not_whole fun whole => whole.2 last, room, min_eq_right fits]
  omega

end Round

/-- What is left of the parts without numbering, markers and suffix. -/
def stripped (parts : List Piece) : List Char :=
  parts.flatMap fun piece => piece.body.toList

/-- The parts of a text give it back, up to what the suffix says is missing,
and there is a suffix only when the last part has no room for the rest. -/
structure Restores (text : String) : Prop where
  made : splitMessage text = numbered ((pieces text).map Piece.text)
  leads : stripped (pieces text) <+: text.toList
  whole : (∀ piece ∈ pieces text, piece.omitted = none) →
    stripped (pieces text) = text.toList
  counted : ∀ piece ∈ pieces text, ∀ omitted,
    piece.omitted = some omitted →
      (stripped (pieces text)).length + omitted = text.toList.length
  needed : ∀ before piece after, pieces text = before ++ piece :: after →
    piece.omitted.isSome = true →
      before.length + 1 = MAX_PARTS ∧
        BODY_BUDGET - (reopening piece.reopened).length <
          text.toList.length - (stripped before).length

/-- All that is left is taken, where there is room for it. -/
def Round.Finishes (text : String) (round : Round) : Prop :=
  round.Last → text.toList.length ≤ round.pos + round.room →
    findCut (lineInfos text.toList) text.toList round.pos
      text.toList.length = text.toList.length

theorem stripped_rounds (text : String) (rounds : List Round) :
    stripped (rounds.map fun round =>
        round.piece (lineInfos text.toList) text.toList) =
      Round.bodies (lineInfos text.toList) text.toList rounds := by
  rw [stripped, List.flatMap_map]
  rfl

theorem finishes_iff {text : String} {round : Round}
    (more : round.pos < text.toList.length) :
    round.Finishes text ↔
      ((round.piece (lineInfos text.toList) text.toList).omitted.isSome =
        true → text.toList.length > round.pos + round.room) := by
  constructor
  · intro finishes cutOff
    obtain ⟨omitted, omits⟩ := Option.isSome_iff_exists.mp cutOff
    obtain ⟨last, shorter, _⟩ := Round.omitted_eq_some omits
    by_contra fits
    have all := finishes last (by omega)
    rw [← Round.cut_of_room more last (by omega)] at all
    omega
  · intro needed last fits
    rw [← Round.cut_of_room more last fits]
    have within : round.cut (lineInfos text.toList) text.toList ≤
        text.toList.length := (Round.cut_bounds more).1
    by_contra shorter
    have cutOff : round.cut (lineInfos text.toList) text.toList <
        text.toList.length := by omega
    have beyond := needed (by rw [Round.omitted_of_lt last cutOff]; rfl)
    omega

theorem pieces_short {text : String}
    (short : text.toList.length ≤ MAX_PART_CHARS) :
    (∀ piece ∈ pieces text, piece.omitted = none) ∧
      stripped (pieces text) = text.toList := by
  unfold pieces
  split_ifs with empty
  · rw [empty]
    exact ⟨List.forall_mem_nil _, rfl⟩
  · constructor
    · intro piece member
      rw [List.mem_singleton.mp member]
    · simp [stripped]

theorem restores_short {text : String}
    (short : text.toList.length ≤ MAX_PART_CHARS) : Restores text := by
  obtain ⟨none, all⟩ := pieces_short short
  constructor
  · exact splitMessage_eq text
  · rw [all]
  · exact fun _ => all
  · intro piece member omitted omits
    rw [none piece member] at omits
    cases omits
  · intro before piece after split cutOff
    rw [none piece (by simp [split])] at cutOff
    cases cutOff

section Long

variable {text : String} (long : ¬ text.toList.length ≤ MAX_PART_CHARS)
include long

theorem pieces_long :
    pieces text = (roundsOf text).map fun round =>
      round.piece (lineInfos text.toList) text.toList := by
  have filled : text.toList ≠ [] := by
    intro empty
    rw [empty] at long
    exact long (Nat.zero_le _)
  rw [pieces, if_neg filled, if_neg long]

theorem roundsOf_long :
    roundsOf text =
      Round.rounds (lineInfos text.toList) text.toList ⟨0, 0, none⟩ :=
  if_neg long

theorem pos_lt_of_mem {round : Round} (member : round ∈ roundsOf text) :
    round.pos < text.toList.length := by
  rw [roundsOf_long long] at member
  have kept : ∀ reached ∈ Round.rounds (lineInfos text.toList) text.toList
      ⟨0, 0, none⟩, True ∧ reached.pos < text.toList.length :=
    Round.forall_rounds trivial fun _ _ _ _ _ => trivial
  exact (kept round member).2

theorem restores_long :
    Restores text ↔ ∀ round ∈ roundsOf text, round.Finishes text := by
  obtain ⟨stop, _, within, bodies, all, missing⟩ :=
    Round.bodies_rounds (lineInfos text.toList) text.toList ⟨0, 0, none⟩
      (Nat.zero_le _)
  rw [← roundsOf_long long] at bodies all missing
  have joined : stripped (pieces text) = text.toList.take stop := by
    rw [pieces_long long, stripped_rounds, bodies]
    rfl
  constructor
  · intro restores round member
    rw [finishes_iff (pos_lt_of_mem long member)]
    intro cutOff
    obtain ⟨before, after, split⟩ := List.append_of_mem member
    obtain ⟨_, pos⟩ := Round.rounds_split (Nat.zero_le _)
      ((roundsOf_long long).symm.trans split)
    have beyond := (restores.needed _ _ _ (by
      rw [pieces_long long, split, List.map_append, List.map_cons]) cutOff).2
    rw [stripped_rounds] at beyond
    have room : round.room =
        BODY_BUDGET - (reopening round.reopened).length := rfl
    have same : (round.piece (lineInfos text.toList) text.toList).reopened =
        round.reopened := rfl
    rw [same, ← room] at beyond
    dsimp only at pos
    omega
  · intro finishes
    constructor
    · exact splitMessage_eq text
    · rw [joined]
      exact List.take_prefix _ _
    · intro none
      rw [joined, all fun round member => none _ ?_, List.take_length]
      rw [pieces_long long]
      exact List.mem_map_of_mem member
    · intro piece member omitted omits
      rw [pieces_long long] at member
      obtain ⟨round, inside, rfl⟩ := List.mem_map.mp member
      have counted := missing round inside omitted omits
      rw [joined, List.length_take]
      omega
    · intro before piece after split cutOff
      rw [pieces_long long] at split
      obtain ⟨rounds, others, parts, rfl, rest⟩ :=
        List.map_eq_append_iff.mp split
      obtain ⟨round, others, rfl, rfl, rfl⟩ := List.map_eq_cons_iff.mp rest
      have member : round ∈ roundsOf text := by simp [parts]
      have beyond := (finishes_iff (pos_lt_of_mem long member)).mp
        (finishes round member) cutOff
      obtain ⟨index, pos⟩ := Round.rounds_split (Nat.zero_le _)
        ((roundsOf_long long).symm.trans parts)
      obtain ⟨omitted, omits⟩ := Option.isSome_iff_exists.mp cutOff
      have last := (Round.omitted_eq_some omits).1
      rw [stripped_rounds, List.length_map]
      dsimp only at index pos
      constructor
      · omega
      · have room : BODY_BUDGET - (reopening (round.piece
            (lineInfos text.toList) text.toList).reopened).length =
              round.room := rfl
        rw [room]
        omega

end Long

/-- A text comes back from its parts exactly when the last part that is allowed
takes all that is left where there is room for it. -/
theorem split_restores_iff (text : String) :
    Restores text ↔ ∀ round ∈ roundsOf text, round.Finishes text := by
  by_cases short : text.toList.length ≤ MAX_PART_CHARS
  · have none : roundsOf text = [] := if_pos short
    rw [none]
    exact ⟨fun _ => List.forall_mem_nil _, fun _ => restores_short short⟩
  · exact restores_long short

/-- Characters of one word, and a word of one character. -/
def spacedText (count : ℕ) : String :=
  String.ofList (List.replicate count 'a' ++ [' ', 'a'])

namespace Spaced

variable {count : ℕ}

theorem length : (spacedText count).toList.length = count + 2 := by
  rw [spacedText, String.toList_ofList, List.length_append,
    List.length_replicate]
  rfl

theorem lines (positive : 0 < count) :
    lineInfos (spacedText count).toList =
      [⟨0, count + 2, false, false, none⟩] := by
  obtain ⟨less, rfl⟩ : ∃ less, count = less + 1 := ⟨count - 1, by omega⟩
  have chars : (spacedText (less + 1)).toList =
      'a' :: (List.replicate less 'a' ++ [' ', 'a']) := by
    rw [spacedText, String.toList_ofList, List.replicate_succ]
    rfl
  have filled : (spacedText (less + 1)).toList ≠ [] := by
    rw [chars]
    exact List.cons_ne_nil _ _
  have single : '\n' ∉ (spacedText (less + 1)).toList := by
    simp [spacedText]
  have trimmed : Users.trim (spacedText (less + 1)).toList =
      (spacedText (less + 1)).toList := by
    apply trim_of_ends
    · rw [chars]
      intro char first
      cases first
      decide
    · rw [spacedText, String.toList_ofList, List.reverse_append]
      intro char last
      cases last
      decide
  rw [lineInfos_single filled single trimmed, length, chars]
  rfl

theorem joined {start stop : ℕ} (inside : stop ≤ count) :
    ' ' ∉ ((spacedText count).toList.take stop).drop start := by
  intro member
  have early := List.mem_of_mem_drop member
  rw [spacedText, String.toList_ofList,
    List.take_append_of_le_length (by rwa [List.length_replicate])] at early
  have word := List.eq_of_mem_replicate (List.mem_of_mem_take early)
  exact absurd word (by decide)

theorem fences (positive : 0 < count) (cut : ℕ) :
    fenceState (lineInfos (spacedText count).toList) cut = (false, "") := by
  rw [lines positive]
  simp [fenceState, fenceStateFrom]

/-- A full part of the first word. -/
theorem next {index : ℕ} (long : 3976 * (index + 1) ≤ count)
    (early : index + 1 < MAX_PARTS) :
    ¬ (⟨index, 3976 * index, none⟩ : Round).Whole (spacedText count).toList ∧
      (⟨index, 3976 * index, none⟩ : Round).next
          (lineInfos (spacedText count).toList) (spacedText count).toList =
        ⟨index + 1, 3976 * (index + 1), none⟩ := by
  have room : (⟨index, 3976 * index, none⟩ : Round).bodyRoom
      (spacedText count).toList = 3976 :=
    if_neg fun both => early.ne both.1
  have short : ¬ (⟨index, 3976 * index, none⟩ : Round).Whole
      (spacedText count).toList := by
    rintro ⟨whole, _⟩
    rw [room, length] at whole
    dsimp only at whole
    omega
  have cut : (⟨index, 3976 * index, none⟩ : Round).cut
      (lineInfos (spacedText count).toList) (spacedText count).toList =
        3976 * (index + 1) := by
    rw [Round.cut_of_not_whole short, room, length,
      min_eq_left (by dsimp only; omega), lines (by omega),
      findCut_single rfl rfl (by simp [spacedText])
        (joined (by dsimp only; omega))]
    dsimp only
    omega
  refine ⟨short, ?_⟩
  rw [Round.next, Round.closed_of_not_whole short, cut, fences (by omega)]
  rfl

theorem reached (long : 27832 ≤ count) {index : ℕ} (early : index < MAX_PARTS) :
    (⟨index, 3976 * index, none⟩ : Round) ∈ roundsOf (spacedText count) := by
  have limit : MAX_PARTS = 8 := rfl
  have more : ¬ (spacedText count).toList.length ≤ MAX_PART_CHARS := by
    have most : MAX_PART_CHARS = 4000 := rfl
    rw [length]
    omega
  rw [roundsOf_long more]
  induction index with
  | zero =>
      rw [Round.rounds_cons (by rw [length]; dsimp only; omega)]
      exact List.mem_cons_self
  | succ index induction =>
      obtain ⟨short, same⟩ :=
        next (show 3976 * (index + 1) ≤ count by omega) early
      rw [← same]
      apply Round.next_mem_rounds (induction (by omega)) short
      · exact fun last => (show index + 1 ≠ MAX_PARTS by omega) last
      · rw [same, length]
        dsimp only
        omega

end Spaced

/-- The last word is lost, although the last part has room for it. -/
theorem spaced_lost : ¬ Restores (spacedText 27833) := by
  obtain ⟨count, counted⟩ : ∃ count, count = 27833 := ⟨_, rfl⟩
  rw [← counted]
  intro restores
  have more : ¬ (spacedText count).toList.length ≤ MAX_PART_CHARS := by
    have most : MAX_PART_CHARS = 4000 := rfl
    rw [Spaced.length]
    omega
  have finishes := (restores_long more).mp restores ⟨7, 3976 * 7, none⟩
    (Spaced.reached (by omega) (by decide)) rfl (by
      have room : (⟨7, 3976 * 7, none⟩ : Round).room = 3976 := rfl
      rw [room, Spaced.length]
      dsimp only
      omega)
  have window : (spacedText count).toList.drop 27832 = ['a', ' ', 'a'] := by
    rw [spacedText, String.toList_ofList, counted,
      List.drop_append_of_le_length (by rw [List.length_replicate]; omega),
      List.drop_replicate]
    rfl
  have ends : findCut (lineInfos (spacedText count).toList)
      (spacedText count).toList 27832 (spacedText count).toList.length =
        27834 := by
    rw [Spaced.lines (by omega), findCut_word rfl rfl (by simp [spacedText]),
      List.take_length, window]
    rfl
  have all := ends.symm.trans finishes
  rw [Spaced.length] at all
  omega

end MiryadCore.Chat.Bridging
