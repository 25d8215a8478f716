import Mathlib.Algebra.Group.Nat.Defs
import MiryadCore.Chat.SplitTexts

/-!
# How long the parts of a text are

The reserves of the budget are for the numbering, for the markers of a block
with a short language and for the suffix of a part that is full.  They are not
enough for a language that takes the whole part, nor for the suffix of a part
that had room for all that was left.
-/

namespace MiryadCore.Chat.Bridging

theorem length_closing (closed : Bool) :
    (closing closed).length = if closed then 4 else 0 := by
  cases closed
  · rfl
  · rfl

theorem length_truncation (omitted : ℕ) :
    (truncation (some omitted)).length = 37 + (toString omitted).length := by
  rw [truncation_some, String.length_append, String.length_append]
  have before : "… (sortie tronquée, ".length = 20 := by decide
  have after : " caractères omis)".length = 17 := by decide
  omega

example : (toString (2 ^ 64)).length = 20 := by decide

theorem length_toString_lt {n : ℕ} (small : n < 2 ^ 64) :
    (toString n).length ≤ 20 := by
  rw [Nat.toString_eq_ofList_toDigits, String.length_ofList]
  apply (Nat.length_toDigits_le_iff (by omega) (by omega)).mpr
  omega

theorem length_digit {n : ℕ} (small : n < 10) : (toString n).length = 1 := by
  rw [Nat.toString_eq_ofList_toDigits, String.length_ofList,
    Nat.toDigits_of_lt_base small]
  rfl

theorem length_numbered (bodies : List String) :
    (numbered bodies).length = bodies.length := by
  unfold numbered
  split_ifs
  · rfl
  · exact List.length_mapIdx

theorem length_numbering (index count : ℕ) (body : String)
    (first : index < 9) (second : count < 10) :
    ("(" ++ toString (index + 1) ++ "/" ++ toString count ++ ") " ++
      body).length = 6 + body.length := by
  simp only [String.length_append, length_digit (show index + 1 < 10 by omega),
    length_digit second]
  have opens : "(".length = 1 := by decide
  have slash : "/".length = 1 := by decide
  have closes : ") ".length = 2 := by decide
  omega

theorem numbered_fits_iff {bodies : List String} (many : bodies.length ≠ 1)
    (few : bodies.length < 10) (limit : ℕ) :
    (∀ part ∈ numbered bodies, part ≠ "" ∧ part.length ≤ limit) ↔
      ∀ body ∈ bodies, 6 + body.length ≤ limit := by
  rw [numbered, if_neg many]
  constructor
  · intro fits body member
    obtain ⟨index, inside, rfl⟩ := List.mem_iff_getElem.mp member
    have part := (fits _ (List.mem_mapIdx.mpr ⟨index, inside, rfl⟩)).2
    rwa [length_numbering _ _ _ (by omega) few] at part
  · intro fits part member
    obtain ⟨index, inside, rfl⟩ := List.mem_mapIdx.mp member
    have length := length_numbering index bodies.length bodies[index]
      (by omega) few
    constructor
    · intro empty
      rw [empty, String.length_empty] at length
      omega
    · rw [length]
      exact fits _ (List.getElem_mem inside)

namespace Round

variable {lines : List LineInfo} {chars : List Char} {round : Round}

theorem length_text (more : round.pos < chars.length) :
    (round.piece lines chars).text.length =
      (reopening round.reopened).length +
        (round.cut lines chars - round.pos) +
        (closing (round.closed lines chars)).length +
        (truncation (round.piece lines chars).omitted).length := by
  have within : round.cut lines chars ≤ chars.length := (cut_bounds more).1
  rw [Piece.text, String.length_append, String.length_append,
    String.length_append]
  have body : (round.piece lines chars).body.length =
      round.cut lines chars - round.pos := by
    rw [← String.length_toList, body_toList, List.length_drop,
      List.length_take]
    omega
  rw [body]
  rfl

/-- One character of the text, with all that goes around it, fits in a part. -/
def FitsOne (lines : List LineInfo) (chars : List Char) (round : Round) :
    Prop :=
  6 + (reopening round.reopened).length + 1 +
      (closing (fenceState lines (round.pos + 1)).1).length +
      (truncation (if round.Last ∧ round.pos + 1 < chars.length then
        some (chars.length - (round.pos + 1)) else none)).length ≤
    MAX_PART_CHARS

/-- The marker at the start leaves room in the part, or one character fits
nevertheless; and a last part that has room for the rest, but is cut, has room
for the suffix too. -/
structure Fits (lines : List LineInfo) (chars : List Char) (round : Round) :
    Prop where
  one : round.bodyRoom chars = 0 → round.FitsOne lines chars
  last : round.Last → chars.length ≤ round.pos + round.room →
    findCut lines chars round.pos chars.length < chars.length →
    6 + (reopening round.reopened).length +
        (findCut lines chars round.pos chars.length - round.pos) +
        (closing (fenceState lines
          (findCut lines chars round.pos chars.length)).1).length +
        (truncation (some (chars.length -
          findCut lines chars round.pos chars.length))).length ≤
      MAX_PART_CHARS

theorem closing_le (closed : Bool) : (closing closed).length ≤ 4 := by
  rw [length_closing]
  split
  · exact le_rfl
  · exact Nat.zero_le _

theorem fits_kept (more : round.pos < chars.length)
    (room : 0 < round.bodyRoom chars)
    (kept : ¬ (round.Last ∧ round.cut lines chars < chars.length)) :
    6 + (round.piece lines chars).text.length ≤ MAX_PART_CHARS := by
  have taken : round.cut lines chars ≤ round.pos + round.bodyRoom chars :=
    (cut_bounds more).2.1 room
  have within : round.bodyRoom chars ≤ round.room := bodyRoom_le
  have closed := closing_le (round.closed lines chars)
  have budget : round.room = 3976 - (reopening round.reopened).length := rfl
  have limit : MAX_PART_CHARS = 4000 := rfl
  rw [length_text more, omitted_of_not kept, truncation_none,
    String.length_empty]
  omega

theorem fits_beyond (more : round.pos < chars.length)
    (counted : chars.length < 2 ^ 64) (room : 0 < round.bodyRoom chars)
    (last : round.Last) (beyond : round.pos + round.room < chars.length) :
    6 + (round.piece lines chars).text.length ≤ MAX_PART_CHARS := by
  have taken : round.cut lines chars ≤ round.pos + round.bodyRoom chars :=
    (cut_bounds more).2.1 room
  have reserve : round.bodyRoom chars = round.room - TRUNC_SUFFIX_RESERVE :=
    if_pos ⟨last, beyond⟩
  have reserved : TRUNC_SUFFIX_RESERVE = 48 := rfl
  have closed := closing_le (round.closed lines chars)
  have budget : round.room = 3976 - (reopening round.reopened).length := rfl
  have limit : MAX_PART_CHARS = 4000 := rfl
  have cutOff : round.cut lines chars < chars.length := by omega
  have digits := length_toString_lt
    (show chars.length - round.cut lines chars < 2 ^ 64 by omega)
  rw [length_text more, omitted_of_lt last cutOff, length_truncation]
  omega

/-- A part of a round fits, with its numbering. -/
theorem fits_iff (more : round.pos < chars.length)
    (counted : chars.length < 2 ^ 64) :
    6 + (round.piece lines chars).text.length ≤ MAX_PART_CHARS ↔
      round.Fits lines chars := by
  rcases Nat.eq_zero_or_pos (round.bodyRoom chars) with full | room
  · have cut : round.cut lines chars = round.pos + 1 := (cut_bounds more).2.2 full
    have short : ¬ round.Whole chars := by
      intro whole
      have reaches := whole.1
      omega
    have text : 6 + (round.piece lines chars).text.length ≤ MAX_PART_CHARS ↔
        round.FitsOne lines chars := by
      rw [length_text more, closed_of_not_whole short, piece, cut, FitsOne]
      dsimp only
      omega
    rw [text]
    constructor
    · intro one
      refine ⟨fun _ => one, fun last fits => ?_⟩
      have whole : round.bodyRoom chars = round.room :=
        if_neg fun both => by omega
      omega
    · exact fun fits => fits.one full
  by_cases last : round.Last
  case neg =>
    have text : 6 + (round.piece lines chars).text.length ≤ MAX_PART_CHARS :=
      fits_kept more room fun both => last both.1
    refine ⟨fun _ => ⟨fun full => by omega, fun final => (last final).elim⟩,
      fun _ => text⟩
  by_cases beyond : round.pos + round.room < chars.length
  · have text : 6 + (round.piece lines chars).text.length ≤ MAX_PART_CHARS :=
      fits_beyond more counted room last beyond
    exact ⟨fun _ => ⟨fun full => by omega, fun _ fits => by omega⟩,
      fun _ => text⟩
  have fits : chars.length ≤ round.pos + round.room := by omega
  have cut : round.cut lines chars = _ := cut_of_room more last fits
  by_cases cutOff : round.cut lines chars < chars.length
  · have text : 6 + (round.piece lines chars).text.length = _ :=
      congrArg (6 + ·) (length_text more)
    rw [text, omitted_of_lt last cutOff,
      closed_of_not_whole fun whole => whole.2 last, cut]
    rw [cut] at cutOff
    constructor
    · intro within
      exact ⟨fun full => by omega, fun _ _ _ => by omega⟩
    · intro all
      have within := all.last last fits cutOff
      omega
  · have text : 6 + (round.piece lines chars).text.length ≤ MAX_PART_CHARS :=
      fits_kept more room fun both => cutOff both.2
    rw [cut] at cutOff
    exact ⟨fun _ => ⟨fun full => by omega, fun _ _ short => (cutOff short).elim⟩,
      fun _ => text⟩

end Round

/-- A text is sent in few parts that fit, and alone where it fits itself. -/
structure Bounded (text : String) : Prop where
  few : (splitMessage text).length ≤ MAX_PARTS
  fit : ∀ part ∈ splitMessage text, part ≠ "" ∧ part.length ≤ MAX_PART_CHARS
  none_iff : splitMessage text = [] ↔ text = ""
  one_iff : (splitMessage text).length = 1 ↔
    text ≠ "" ∧ text.length ≤ MAX_PART_CHARS
  plain : text ≠ "" → text.length ≤ MAX_PART_CHARS → splitMessage text = [text]

theorem splitMessage_empty : splitMessage "" = [] :=
  rfl

theorem splitMessage_short {text : String} (filled : text ≠ "")
    (short : text.length ≤ MAX_PART_CHARS) : splitMessage text = [text] := by
  rw [← String.length_toList] at short
  unfold splitMessage
  dsimp only
  rw [if_neg (by simpa using filled), if_pos short]

theorem bounded_short {text : String}
    (short : text.length ≤ MAX_PART_CHARS) : Bounded text := by
  by_cases empty : text = ""
  · subst empty
    constructor
    · exact Nat.zero_le _
    · exact List.forall_mem_nil _
    · exact ⟨fun _ => rfl, fun _ => rfl⟩
    · simp [splitMessage_empty]
    · exact fun filled => (filled rfl).elim
  · have one := splitMessage_short empty short
    constructor
    · rw [one, List.length_singleton]
      decide
    · rw [one]
      exact List.forall_mem_singleton.mpr ⟨empty, short⟩
    · simp [one, empty]
    · simp [one, empty, short]
    · exact fun _ _ => one

section Long

variable {text : String} (long : ¬ text.toList.length ≤ MAX_PART_CHARS)
include long

theorem length_roundsOf :
    2 ≤ (roundsOf text).length ∧ (roundsOf text).length ≤ MAX_PARTS := by
  have limit : MAX_PART_CHARS = 4000 := rfl
  have more : (⟨0, 0, none⟩ : Round).pos < text.toList.length := by
    dsimp only
    omega
  have room : (⟨0, 0, none⟩ : Round).bodyRoom text.toList = 3976 := rfl
  have goes : ¬ ((⟨0, 0, none⟩ : Round).Whole text.toList ∨
      (⟨0, 0, none⟩ : Round).Last) := by
    rintro (whole | last)
    · have reaches := whole.1
      rw [room] at reaches
      dsimp only at reaches
      omega
    · exact absurd last (by decide)
  have taken : (⟨0, 0, none⟩ : Round).cut (lineInfos text.toList) text.toList ≤
      0 + (⟨0, 0, none⟩ : Round).bodyRoom text.toList :=
    (Round.cut_bounds more).2.1 (by omega)
  have again : ((⟨0, 0, none⟩ : Round).next (lineInfos text.toList)
      text.toList).pos < text.toList.length := by
    dsimp only [Round.next]
    omega
  constructor
  · rw [roundsOf_long long, Round.rounds_cons more, if_neg goes,
      Round.rounds_cons again, List.length_cons, List.length_cons]
    omega
  · rw [roundsOf_long long]
    exact Round.length_rounds (by decide)

theorem bounded_long (counted : text.toList.length < 2 ^ 64) :
    Bounded text ↔ ∀ round ∈ roundsOf text,
      round.Fits (lineInfos text.toList) text.toList := by
  obtain ⟨several, few⟩ := length_roundsOf long
  have limit : MAX_PARTS = 8 := rfl
  have bodies : ((pieces text).map Piece.text).length =
      (roundsOf text).length := by
    rw [pieces_long long, List.length_map, List.length_map]
  have count : (splitMessage text).length = (roundsOf text).length := by
    rw [splitMessage_eq, length_numbered, bodies]
  have fit : (∀ part ∈ splitMessage text,
      part ≠ "" ∧ part.length ≤ MAX_PART_CHARS) ↔ ∀ round ∈ roundsOf text,
        round.Fits (lineInfos text.toList) text.toList := by
    rw [splitMessage_eq, numbered_fits_iff (by omega) (by omega),
      pieces_long long, List.map_map, List.forall_mem_map]
    exact forall₂_congr fun round member =>
      Round.fits_iff (pos_lt_of_mem long member) counted
  have filled : text ≠ "" := by
    rintro rfl
    exact long (Nat.zero_le _)
  have longer : ¬ text.length ≤ MAX_PART_CHARS := by
    rwa [← String.length_toList]
  rw [← fit]
  constructor
  · exact fun bounded => bounded.fit
  · intro fits
    constructor
    · omega
    · exact fits
    · constructor
      · intro none
        rw [none, List.length_nil] at count
        omega
      · exact fun empty => (filled empty).elim
    · constructor
      · intro one
        omega
      · exact fun both => (longer both.2).elim
    · exact fun _ short => (longer short).elim

end Long

/-- A text is sent in few parts that fit exactly when every marker leaves room
for one character of the text at least, and the last part for its suffix. -/
theorem split_bounded_iff (text : String) (counted : text.length < 2 ^ 64) :
    Bounded text ↔ ∀ round ∈ roundsOf text,
      round.Fits (lineInfos text.toList) text.toList := by
  rw [← String.length_toList] at counted
  by_cases short : text.toList.length ≤ MAX_PART_CHARS
  · have none : roundsOf text = [] := if_pos short
    rw [none]
    rw [String.length_toList] at short
    exact ⟨fun _ => List.forall_mem_nil _, fun _ => bounded_short short⟩
  · exact bounded_long short counted

/-- Two parts, the second with what is left. -/
theorem Spaced.rounds {count : ℕ} (long : 3999 ≤ count) (short : count ≤ 7950) :
    roundsOf (spacedText count) = [⟨0, 0, none⟩, ⟨1, 3976, none⟩] := by
  have more : ¬ (spacedText count).toList.length ≤ MAX_PART_CHARS := by
    have most : MAX_PART_CHARS = 4000 := rfl
    rw [Spaced.length]
    omega
  obtain ⟨first, next⟩ := Spaced.next (show 3976 * (0 + 1) ≤ count by omega)
    (by decide)
  have second : (⟨1, 3976, none⟩ : Round).Whole (spacedText count).toList := by
    have room : (⟨1, 3976, none⟩ : Round).bodyRoom (spacedText count).toList =
        3976 := if_neg fun both => absurd both.1 (by decide)
    refine ⟨?_, by decide⟩
    rw [room, Spaced.length]
    dsimp only
    omega
  rw [roundsOf_long more,
    Round.rounds_cons (by rw [Spaced.length]; dsimp only; omega),
    if_neg (not_or.mpr ⟨first, by decide⟩), next,
    Round.rounds_cons (by rw [Spaced.length]; dsimp only; omega),
    if_pos (.inl second)]

/-- A text of two parts. -/
theorem split_bounded_spaced : Bounded (spacedText 4000) := by
  obtain ⟨count, counted⟩ : ∃ count, count = 4000 := ⟨_, rfl⟩
  rw [← counted]
  have small : (spacedText count).length < 2 ^ 64 := by
    rw [← String.length_toList, Spaced.length]
    omega
  apply (split_bounded_iff (spacedText count) small).mpr
  have fits : ∀ index pos, index + 1 ≠ MAX_PARTS →
      (⟨index, pos, none⟩ : Round).Fits (lineInfos (spacedText count).toList)
        (spacedText count).toList := by
    intro index pos early
    constructor
    · intro nothing
      rw [Round.bodyRoom, if_neg fun both => early both.1,
        show (⟨index, pos, none⟩ : Round).room = 3976 from rfl] at nothing
      cases nothing
    · exact fun last => absurd last early
  rw [Spaced.rounds (by omega) (by omega)]
  simp only [List.forall_mem_cons]
  exact ⟨fits 0 0 (by decide), fits 1 3976 (by decide), List.forall_mem_nil _⟩

/-- A marker with a long language, and nothing else. -/
def fencedText (count : ℕ) : String :=
  String.ofList (fence ++ List.replicate count 'a')

namespace Fenced

variable {count : ℕ}

theorem length : (fencedText count).toList.length = count + 3 := by
  rw [fencedText, String.toList_ofList, List.length_append,
    List.length_replicate]
  exact Nat.add_comm 3 count

theorem lines (positive : 0 < count) :
    lineInfos (fencedText count).toList =
      [⟨0, count + 3, false, false,
        some (String.ofList (List.replicate count 'a'))⟩] := by
  obtain ⟨less, rfl⟩ : ∃ less, count = less + 1 := ⟨count - 1, by omega⟩
  have chars : (fencedText (less + 1)).toList =
      '\x60' :: '\x60' :: '\x60' :: 'a' :: List.replicate less 'a' := by
    rw [fencedText, String.toList_ofList, List.replicate_succ]
    rfl
  have filled : (fencedText (less + 1)).toList ≠ [] := by
    rw [chars]
    exact List.cons_ne_nil _ _
  have single : '\n' ∉ (fencedText (less + 1)).toList := by
    rw [chars]
    simp
  have trimmed : Users.trim (fencedText (less + 1)).toList =
      (fencedText (less + 1)).toList := by
    apply trim_of_ends
    · rw [chars]
      intro char first
      cases first
      decide
    · rw [fencedText, String.toList_ofList, List.reverse_append,
        List.reverse_replicate, List.replicate_succ]
      intro char last
      cases last
      decide
  rw [lineInfos_single filled single trimmed, length, chars]
  rfl

theorem long (more : 4000 ≤ count) :
    ¬ (fencedText count).toList.length ≤ MAX_PART_CHARS := by
  have most : MAX_PART_CHARS = 4000 := rfl
  rw [length]
  omega

/-- The first part ends inside the marker, which opens the block. -/
theorem next (more : 4000 ≤ count) :
    ¬ (⟨0, 0, none⟩ : Round).Whole (fencedText count).toList ∧
      (⟨0, 0, none⟩ : Round).next (lineInfos (fencedText count).toList)
          (fencedText count).toList =
        ⟨1, 3976, some (String.ofList (List.replicate count 'a'))⟩ := by
  have room : (⟨0, 0, none⟩ : Round).bodyRoom (fencedText count).toList =
      3976 := rfl
  have short : ¬ (⟨0, 0, none⟩ : Round).Whole (fencedText count).toList := by
    rintro ⟨whole, _⟩
    rw [room, length] at whole
    dsimp only at whole
    omega
  have window : ' ' ∉ ((fencedText count).toList.take 3976).drop 0 := by
    intro member
    have early := List.mem_of_mem_take (List.mem_of_mem_drop member)
    simp [fencedText, fence] at early
  have cut : (⟨0, 0, none⟩ : Round).cut (lineInfos (fencedText count).toList)
      (fencedText count).toList = 3976 := by
    rw [Round.cut_of_not_whole short, room, length,
      min_eq_left (by dsimp only; omega), lines (by omega),
      findCut_single rfl rfl (by simp [fencedText, fence]) window]
    rfl
  have opens : fenceState (lineInfos (fencedText count).toList) 3976 =
      (true, String.ofList (List.replicate count 'a')) := by
    rw [lines (by omega), fenceState, fenceStateFrom,
      if_neg (by dsimp only; omega)]
    dsimp only
    rw [if_pos (show 3976 < count + 3 by omega)]
    rfl
  refine ⟨short, ?_⟩
  rw [Round.next, Round.closed_of_not_whole short, cut, opens]
  rfl

theorem reached (more : 4000 ≤ count) :
    (⟨1, 3976, some (String.ofList (List.replicate count 'a'))⟩ : Round) ∈
      roundsOf (fencedText count) := by
  obtain ⟨short, same⟩ := next more
  rw [roundsOf_long (long more), ← same]
  apply Round.next_mem_rounds _ short (by decide)
  · rw [same, length]
    dsimp only
    omega
  · rw [Round.rounds_cons (by rw [length]; dsimp only; omega)]
    exact List.mem_cons_self

end Fenced

/-- The marker that opens the block again is longer than a part. -/
theorem fenced_exceeds : ¬ Bounded (fencedText 4000) := by
  obtain ⟨count, counted⟩ : ∃ count, count = 4000 := ⟨_, rfl⟩
  rw [← counted]
  intro bounded
  have fits := (bounded_long (Fenced.long (by omega))
    (by rw [Fenced.length]; omega)).mp bounded _ (Fenced.reached (by omega))
  have marker : (reopening (some (String.ofList
      (List.replicate count 'a')))).length = 3 + count + 1 := by
    rw [reopening, String.length_append, String.length_append,
      String.length_ofList, String.length_ofList, List.length_replicate]
    rfl
  have room : (⟨1, 3976, some (String.ofList (List.replicate count 'a'))⟩ :
      Round).room = 0 := by
    have budget : BODY_BUDGET = 3976 := rfl
    rw [Round.room, marker]
    omega
  have one := fits.one (by
    have within : (⟨1, 3976, some (String.ofList (List.replicate count 'a'))⟩ :
        Round).bodyRoom (fencedText count).toList ≤ _ := Round.bodyRoom_le
    omega)
  have limit : MAX_PART_CHARS = 4000 := rfl
  rw [Round.FitsOne, marker] at one
  omega

end MiryadCore.Chat.Bridging
