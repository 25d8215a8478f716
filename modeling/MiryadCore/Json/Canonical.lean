import MiryadCore.Json.Parse
import Mathlib.Data.List.TakeWhile
import Mathlib.Data.String.Basic

/-!
# Canonical texts

The canonical text of a value is the text of the value whose objects are in
order, and a reader of JSON finds that value in it.  Two values therefore have
one canonical text exactly when they differ at most in the order of the
members of their objects.
-/

namespace MiryadCore

namespace Json

private theorem codeUnit_hexDigit :
    ∀ n < 32, codeUnit '0' '0' (hexDigit (n / 16)) (hexDigit (n % 16)) =
      some n := by
  decide

theorem readString_escape (char : Char) (text : List Char) :
    readString (escape char ++ text) = push char (readString text) := by
  unfold escape
  split_ifs with quotation backslash backspace tab newline feed carriage control
  · subst quotation
    simp [readString, unescape]
  · subst backslash
    simp [readString, unescape]
  · have named : char = Char.ofNat 0x08 := by
      rw [← backspace, Char.ofNat_toNat]
    subst named
    simp [readString, unescape]
  · have named : char = Char.ofNat 0x09 := by
      rw [← tab, Char.ofNat_toNat]
    subst named
    simp [readString, unescape]
  · have named : char = Char.ofNat 0x0A := by
      rw [← newline, Char.ofNat_toNat]
    subst named
    simp [readString, unescape]
  · have named : char = Char.ofNat 0x0C := by
      rw [← feed, Char.ofNat_toNat]
    subst named
    simp [readString, unescape]
  · have named : char = Char.ofNat 0x0D := by
      rw [← carriage, Char.ofNat_toNat]
    subst named
    simp [readString, unescape]
  · have unit := codeUnit_hexDigit char.toNat (by omega)
    have low : ¬0xD800 ≤ char.toNat := by omega
    have high : ¬0xDC00 ≤ char.toNat := by omega
    simp [readString, unit, low, high]
  · rw [List.singleton_append, readString.eq_def]
    simp [quotation, backslash, control]

theorem readString_quote (read rest : List Char) :
    readString (read.flatMap escape ++ '"' :: rest) = some (read, rest) := by
  induction read with
  | nil => rw [List.flatMap_nil, List.nil_append, readString.eq_def]; simp
  | cons char read induction =>
      simp only [List.flatMap_cons, List.append_assoc]
      rw [readString_escape, induction]
      rfl

/-- No number goes on in the text. -/
def Ends (text : List Char) : Prop :=
  ∀ char ∈ text.head?, isNumeric char = false

theorem takeWhile_ends {literal text : List Char}
    (numeric : ∀ char ∈ literal, isNumeric char = true) (ends : Ends text) :
    (literal ++ text).takeWhile isNumeric = literal ∧
      (literal ++ text).dropWhile isNumeric = text := by
  rw [List.takeWhile_append_of_pos numeric,
    List.dropWhile_append_of_pos numeric]
  cases text with
  | nil => simp
  | cons char text => simp [ends char rfl]

private theorem digitChar_zero :
    ∀ n < 10, Nat.digitChar n = '0' → n = 0 := by
  decide

theorem head_toDigits (n : ℕ) :
    (Nat.toDigits 10 n).head? = some '0' → n = 0 := by
  induction n using Nat.strong_induction_on with
  | _ n induction =>
      intro zero
      by_cases small : n < 10
      · rw [Nat.toDigits_of_lt_base small] at zero
        exact digitChar_zero n small (Option.some.inj zero)
      · have split := Nat.toDigits_of_base_le (show 1 < 10 by omega)
          (show 10 ≤ n by omega)
        have shorter : n / 10 < n := by omega
        rw [split, List.head?_append_of_ne_nil _ Nat.toDigits_ne_nil] at zero
        have none_left := induction (n / 10) shorter zero
        omega

theorem isUnsigned_toDigits (n : ℕ) :
    isUnsigned (Nat.toDigits 10 n) = true := by
  have digits : ∀ char ∈ Nat.toDigits 10 n, char.isDigit = true :=
    fun char member => Nat.isDigit_of_mem_toDigits (by omega) (by omega) member
  have whole : (Nat.toDigits 10 n).takeWhile Char.isDigit =
      Nat.toDigits 10 n :=
    List.takeWhile_eq_self_iff.mpr digits
  have nothing : (Nat.toDigits 10 n).dropWhile Char.isDigit = [] :=
    List.dropWhile_eq_nil_iff.mpr digits
  simp only [isUnsigned, whole, nothing, isFraction, isExponent,
    Bool.and_true, Bool.and_eq_true, Bool.or_eq_true, decide_eq_true_eq]
  refine ⟨Nat.toDigits_ne_nil, ?_⟩
  by_cases zero : (Nat.toDigits 10 n).head? = some '0'
  · left
    rw [head_toDigits n zero]
    rfl
  · right
    exact zero

theorem all_toDigits (n : ℕ) :
    (Nat.toDigits 10 n).all Char.isDigit = true :=
  List.all_eq_true.mpr fun _ member =>
    Nat.isDigit_of_mem_toDigits (by omega) (by omega) member

theorem numeric_of_isDigit {char : Char} (digit : char.isDigit = true) :
    isNumeric char = true := by
  simp [isNumeric, digit]

theorem numeric_of_isExponent {literal : List Char}
    (exponent : isExponent literal = true) :
    ∀ char ∈ literal, isNumeric char = true := by
  cases literal with
  | nil => simp
  | cons mark rest =>
      simp only [isExponent, Bool.and_eq_true, Bool.or_eq_true,
        decide_eq_true_eq] at exponent
      obtain ⟨marked, -, digits⟩ := exponent
      intro char member
      rcases List.mem_cons.mp member with rfl | member
      · rcases marked with rfl | rfl <;> decide
      · split at digits
        · rcases List.mem_cons.mp member with rfl | member
          · decide
          · exact numeric_of_isDigit (List.all_eq_true.mp digits char member)
        · rcases List.mem_cons.mp member with rfl | member
          · decide
          · exact numeric_of_isDigit (List.all_eq_true.mp digits char member)
        · exact numeric_of_isDigit (List.all_eq_true.mp digits char member)

theorem numeric_of_dropWhile {literal : List Char}
    (rest : ∀ char ∈ literal.dropWhile Char.isDigit, isNumeric char = true) :
    ∀ char ∈ literal, isNumeric char = true := by
  intro char member
  rw [← List.takeWhile_append_dropWhile (p := Char.isDigit) (l := literal)]
    at member
  rcases List.mem_append.mp member with digit | after
  · exact numeric_of_isDigit (List.mem_takeWhile_imp digit)
  · exact rest char after

theorem numeric_of_isFraction {literal : List Char}
    (fraction : isFraction literal = true) :
    ∀ char ∈ literal, isNumeric char = true := by
  unfold isFraction at fraction
  split at fraction
  · intro char member
    rcases List.mem_cons.mp member with rfl | member
    · decide
    · have exponent := (Bool.and_eq_true _ _ ▸ fraction).2
      exact numeric_of_dropWhile (numeric_of_isExponent exponent) char member
  · exact numeric_of_isExponent fraction

theorem numeric_of_isUnsigned {literal : List Char}
    (unsigned : isUnsigned literal = true) :
    ∀ char ∈ literal, isNumeric char = true := by
  simp only [isUnsigned, Bool.and_eq_true] at unsigned
  exact numeric_of_dropWhile (numeric_of_isFraction unsigned.2)

theorem numeric_of_isLiteral {literal : List Char}
    (read : isLiteral literal = true) :
    ∀ char ∈ literal, isNumeric char = true := by
  unfold isLiteral at read
  split at read
  · intro char member
    rcases List.mem_cons.mp member with rfl | member
    · decide
    · exact numeric_of_isUnsigned read char member
  · exact numeric_of_isUnsigned read

end Json

open Json

/-- A number of the source: a negative integer is below zero, and a float
prints as a literal that no integer has. -/
def Number.WellFormed : Number → Prop
  | .posInt _ => True
  | .negInt value => value.toInt < 0
  | .float text =>
      isLiteral text.toList = true ∧ numberOf text.toList = .float text

namespace Number

private theorem head_digits (n : ℕ) :
    ∃ char digits, Nat.toDigits 10 n = char :: digits ∧
      char.isDigit = true := by
  obtain ⟨char, digits, cons⟩ := List.exists_cons_of_ne_nil
    (Nat.toDigits_ne_nil (n := n) (b := 10))
  refine ⟨char, digits, cons, ?_⟩
  exact List.all_eq_true.mp (all_toDigits n) char (by simp [cons])

theorem isLiteral_text {number : Number} (formed : number.WellFormed) :
    isLiteral number.text = true := by
  cases number with
  | posInt value =>
      obtain ⟨char, digits, cons, digit⟩ := head_digits value.toNat
      have unsigned := isUnsigned_toDigits value.toNat
      simp only [text]
      rw [cons] at unsigned ⊢
      unfold isLiteral
      split
      · next split => simp_all [Char.isDigit]
      · exact unsigned
  | negInt value =>
      have below : value.toInt < 0 := formed
      simp [text, below, isLiteral, isUnsigned_toDigits]
  | float text => exact formed.1

theorem numberOf_text {number : Number} (formed : number.WellFormed) :
    numberOf number.text = number := by
  cases number with
  | posInt value =>
      obtain ⟨char, digits, cons, digit⟩ := head_digits value.toNat
      have all := all_toDigits value.toNat
      have count := Nat.ofDigitChars_ten_toDigits (n := value.toNat)
      have bound := UInt64.toNat_lt value
      simp only [text]
      unfold numberOf
      split
      · next split => simp_all [Char.isDigit]
      · rw [count, if_pos ⟨all, bound⟩, UInt64.ofNat_toNat]
  | negInt value =>
      have below : value.toInt < 0 := formed
      have bound := Int64.le_toInt value
      have count := Nat.ofDigitChars_ten_toDigits (n := value.toInt.natAbs)
      have negated : -(value.toInt.natAbs : ℤ) = value.toInt := by omega
      simp only [text, below, if_true, numberOf]
      rw [count, if_pos ⟨all_toDigits _, by omega, by omega⟩, negated,
        Int64.ofInt_toInt]
  | float text => exact formed.2

end Number

namespace Json

theorem readNumber_text {number : Number} (formed : number.WellFormed)
    {rest : List Char} (ends : Ends rest) :
    readNumber (number.text ++ rest) = some (number, rest) := by
  have literal := number.isLiteral_text formed
  have ⟨taken, left⟩ := takeWhile_ends (numeric_of_isLiteral literal) ends
  simp only [readNumber, taken, left, literal, if_true,
    number.numberOf_text formed]

end Json

namespace Value

mutual

/-- The keys of every object are strictly in order. -/
def Ordered : Value → Prop
  | .object members =>
      (members.map Prod.fst).Pairwise (· < ·) ∧ OrderedMembers members
  | .array items => OrderedItems items
  | .number value => value.WellFormed
  | _ => True

def OrderedItems : List Value → Prop
  | [] => True
  | item :: items => Ordered item ∧ OrderedItems items

def OrderedMembers : Members → Prop
  | [] => True
  | (_, item) :: members => Ordered item ∧ OrderedMembers members

end

/-- What the text of a value starts with. -/
theorem text_head {value : Value} (ordered : value.Ordered) :
    ∃ char rest, value.text = char :: rest ∧ isSpace char = false ∧
      char ≠ ']' := by
  cases value with
  | null => exact ⟨_, _, rfl, by decide, by decide⟩
  | bool value =>
      cases value
      · exact ⟨_, _, rfl, by decide, by decide⟩
      · exact ⟨_, _, rfl, by decide, by decide⟩
  | number value =>
      have literal := value.isLiteral_text ordered
      cases cons : value.text with
      | nil => rw [cons] at literal; cases literal
      | cons char rest =>
          have numeric := numeric_of_isLiteral literal char (by simp [cons])
          refine ⟨char, rest, by rw [text, cons], ?_, ?_⟩
          · cases space : isSpace char with
            | false => rfl
            | true =>
                simp only [isSpace, Bool.or_eq_true, decide_eq_true_eq]
                  at space
                rcases space with ((rfl | rfl) | rfl) | rfl <;> cases numeric
          · rintro rfl
            cases numeric
  | string value => exact ⟨_, _, rfl, by decide, by decide⟩
  | array items => exact ⟨_, _, rfl, by decide, by decide⟩
  | object members => exact ⟨_, _, rfl, by decide, by decide⟩

theorem skip_text {value : Value} (ordered : value.Ordered)
    (rest : List Char) :
    skip (value.text ++ rest) = value.text ++ rest := by
  obtain ⟨char, tail, text, space, -⟩ := text_head ordered
  simp [text, skip, space]

/-- The texts of several items, with commas. -/
private def listed (texts : List (List Char)) : List Char :=
  (texts.intersperse [',']).flatten

private theorem listed_cons (text next : List Char)
    (texts : List (List Char)) :
    listed (text :: next :: texts) = text ++ ',' :: listed (next :: texts) := by
  simp [listed]

private theorem listed_head {item : Value} (ordered : item.Ordered)
    (items : List Value) :
    ∃ char rest, listed (textItems (item :: items)) = char :: rest ∧
      isSpace char = false ∧ char ≠ ']' := by
  obtain ⟨char, rest, start, space, unclosed⟩ := text_head ordered
  cases items with
  | nil =>
      have same : listed (textItems [item]) = item.text := by
        simp [listed, textItems]
      exact ⟨char, rest, same.trans start, space, unclosed⟩
  | cons next items =>
      have split : listed (textItems (item :: next :: items)) =
          item.text ++ ',' :: listed (textItems (next :: items)) :=
        listed_cons _ _ _
      rw [start, List.cons_append] at split
      exact ⟨char, _, split, space, unclosed⟩

private theorem text_array (items : List Value) :
    (array items).text = '[' :: listed (textItems items) ++ [']'] := by
  rw [text, bracketed, listed]

private theorem text_object (members : Members) :
    (object members).text = '{' :: listed (textMembers members) ++ ['}'] := by
  rw [text, bracketed, listed]

private theorem textMembers_nil (key : String) (item : Value) :
    listed (textMembers [(key, item)]) = quote key ++ ':' :: item.text := by
  simp [listed, textMembers]

private theorem textMembers_cons (key : String) (item : Value)
    (next : String × Value) (members : Members) :
    listed (textMembers ((key, item) :: next :: members)) =
      quote key ++ ':' :: item.text ++
        ',' :: listed (textMembers (next :: members)) :=
  listed_cons _ _ _

private theorem listed_quote (key : String) (item : Value)
    (members : Members) :
    ∃ rest, listed (textMembers ((key, item) :: members)) = '"' :: rest := by
  cases members with
  | nil => exact ⟨_, textMembers_nil key item⟩
  | cons next members => exact ⟨_, textMembers_cons key item next members⟩

private theorem collect_from {map members : Members}
    (sorted : ((map ++ members).map Prod.fst).Pairwise (· < ·)) :
    members.foldl (fun map member => insertMember member.1 member.2 map) map =
      map ++ members := by
  induction members generalizing map with
  | nil => simp
  | cons member members induction =>
      have last : insertMember member.1 member.2 map = map ++ [member] := by
        have before : ∀ other ∈ map, other.1 < member.1 := by
          intro other inside
          rw [List.map_append, List.pairwise_append] at sorted
          exact sorted.2.2 _ (List.mem_map_of_mem inside) _ (by simp)
        clear sorted induction
        induction map with
        | nil => rfl
        | cons other map induction =>
            have lower := before other List.mem_cons_self
            rw [insertMember, if_neg (lt_asymm lower), if_neg lower.ne',
              induction fun other inside =>
                before other (List.mem_cons_of_mem _ inside)]
            rfl
      rw [List.foldl_cons, last, induction (by simpa using sorted)]
      simp

theorem collect_ordered {members : Members}
    (sorted : (members.map Prod.fst).Pairwise (· < ·)) :
    collect members = members :=
  @collect_from [] members sorted

private theorem ends_of_isNumeric {char : Char}
    (other : isNumeric char = false) (rest : List Char) :
    Ends (char :: rest) := by
  intro first isFirst
  cases isFirst
  exact other

mutual

/-- The reader finds a value in its text. -/
theorem readValue_text (value : Value) (ordered : value.Ordered)
    (rest : List Char) (ends : Ends rest) (fuel : ℕ)
    (enough : 2 * value.text.length ≤ fuel) :
    readValue fuel (value.text ++ rest) = some (value, rest) := by
  obtain ⟨char, tail, head, space, -⟩ := text_head ordered
  obtain ⟨fuel, rfl⟩ : ∃ less, fuel = less + 1 :=
    ⟨fuel - 1, by simp only [head, List.length_cons] at enough; omega⟩
  rw [readValue, skip_text ordered]
  cases value with
  | null => rfl
  | bool value => cases value <;> rfl
  | number value =>
      have literal := value.isLiteral_text ordered
      have numeric := numeric_of_isLiteral literal char
        (by rw [← text, head]; exact List.mem_cons_self)
      have read := readNumber_text ordered ends
      rw [← text, head, List.cons_append] at read
      have others : ∀ other, isNumeric other = false → char ≠ other := by
        rintro other differs rfl
        rw [numeric] at differs
        cases differs
      rw [head, List.cons_append]
      simp only [others _ (show isNumeric 'n' = false by decide),
        others _ (show isNumeric 't' = false by decide),
        others _ (show isNumeric 'f' = false by decide),
        others _ (show isNumeric '"' = false by decide),
        others _ (show isNumeric '[' = false by decide),
        others _ (show isNumeric '{' = false by decide), if_false, read,
        Option.map_some]
  | string value =>
      have read := readString_quote value.toList rest
      simp only [text, quote, List.cons_append, List.append_assoc,
        List.nil_append]
      simp [read]
  | array items =>
      cases items with
      | nil => rfl
      | cons item items =>
          obtain ⟨char, tail, start, space, unclosed⟩ :=
            listed_head ordered.1 items
          have read := readItems_text item items ordered rest fuel (by
            simp only [text_array, List.length_append, List.length_cons,
              List.length_nil] at enough
            omega)
          have opening : skip (listed (textItems (item :: items)) ++
              ']' :: rest) = char :: (tail ++ ']' :: rest) := by
            simp [start, skip, space]
          simp only [text_array, List.cons_append, List.append_assoc,
            List.nil_append, Char.reduceEq, if_false, if_true]
          rw [opening, read]
          split
          · next closed => exact absurd (List.cons.inj closed).1 unclosed
          · rfl
  | object members =>
      cases members with
      | nil => rfl
      | cons member members =>
          obtain ⟨key, item⟩ := member
          obtain ⟨sorted, inside⟩ := ordered
          obtain ⟨tail, start⟩ := listed_quote key item members
          have read := readMembers_text key item members inside rest fuel (by
            simp only [text_object, List.length_append, List.length_cons,
              List.length_nil] at enough
            omega)
          have opening : skip (listed (textMembers ((key, item) :: members)) ++
              '}' :: rest) = '"' :: (tail ++ '}' :: rest) := by
            simp [start, skip, isSpace]
          simp only [text_object, List.cons_append, List.append_assoc,
            List.nil_append, Char.reduceEq, if_false, if_true]
          rw [opening, read]
          simp [collect_ordered sorted]
termination_by fuel

theorem readItems_text (item : Value) (items : List Value)
    (ordered : OrderedItems (item :: items)) (rest : List Char) (fuel : ℕ)
    (enough : 2 * (listed (textItems (item :: items))).length + 1 ≤ fuel) :
    readItems fuel (listed (textItems (item :: items)) ++ ']' :: rest) =
      some (item :: items, rest) := by
  obtain ⟨fuel, rfl⟩ : ∃ less, fuel = less + 1 := ⟨fuel - 1, by omega⟩
  obtain ⟨first, others⟩ := ordered
  cases items with
  | nil =>
      have text : listed (textItems [item]) = item.text := by
        simp [listed, textItems]
      rw [text] at enough ⊢
      rw [readItems, readValue_text item first _
        (ends_of_isNumeric (by decide) rest) fuel (by omega)]
      rfl
  | cons next items =>
      have text : listed (textItems (item :: next :: items)) =
          item.text ++ ',' :: listed (textItems (next :: items)) :=
        listed_cons _ _ _
      rw [text, List.length_append, List.length_cons] at enough
      rw [text, List.append_assoc, List.cons_append, readItems,
        readValue_text item first _
          (ends_of_isNumeric (by decide) _) fuel (by omega)]
      have others := readItems_text next items others rest fuel (by omega)
      simp [skip, isSpace, others]
termination_by fuel

theorem readMembers_text (key : String) (item : Value) (members : Members)
    (ordered : OrderedMembers ((key, item) :: members)) (rest : List Char)
    (fuel : ℕ)
    (enough : 2 * (listed (textMembers ((key, item) :: members))).length + 1 ≤
      fuel) :
    readMembers fuel (listed (textMembers ((key, item) :: members)) ++
      '}' :: rest) = some ((key, item) :: members, rest) := by
  obtain ⟨fuel, rfl⟩ : ∃ less, fuel = less + 1 := ⟨fuel - 1, by omega⟩
  obtain ⟨first, others⟩ := ordered
  cases members with
  | nil =>
      rw [textMembers_nil, List.length_append, List.length_cons] at enough
      have value := readValue_text item first ('}' :: rest)
        (ends_of_isNumeric (by decide) rest) fuel (by omega)
      have read := readString_quote key.toList
        (':' :: (item.text ++ '}' :: rest))
      simp [textMembers_nil, readMembers, quote, skip, isSpace, read, value]
  | cons next members =>
      obtain ⟨nextKey, next⟩ := next
      rw [textMembers_cons, List.length_append, List.length_append,
        List.length_cons, List.length_cons] at enough
      have value := readValue_text item first
        (',' :: (listed (textMembers ((nextKey, next) :: members)) ++
          '}' :: rest))
        (ends_of_isNumeric (by decide) _) fuel (by omega)
      have read := readString_quote key.toList (':' :: (item.text ++
        ',' :: (listed (textMembers ((nextKey, next) :: members)) ++
          '}' :: rest)))
      have others := readMembers_text nextKey next members others rest fuel
        (by omega)
      simp [textMembers_cons, readMembers, quote, skip, isSpace, read, value,
        others]
termination_by fuel

end

theorem parse_text {value : Value} (ordered : value.Ordered) :
    parse value.text = some value := by
  have read := readValue_text value ordered [] (by simp [Ends])
    (2 * value.text.length + 2) (by omega)
  rw [List.append_nil] at read
  rw [parse, read]
  rfl

mutual

/-- The members of an object form a map. -/
def WellFormed : Value → Prop
  | .object members =>
      (members.map Prod.fst).Nodup ∧ WellFormedMembers members
  | .array items => WellFormedItems items
  | .number value => value.WellFormed
  | _ => True

def WellFormedItems : List Value → Prop
  | [] => True
  | item :: items => WellFormed item ∧ WellFormedItems items

def WellFormedMembers : Members → Prop
  | [] => True
  | (_, item) :: members => WellFormed item ∧ WellFormedMembers members

end

mutual

/-- The value with the members of every object in the order of their keys. -/
def inOrder : Value → Value
  | .object members =>
      .object ((inOrderMembers members).insertionSort
        fun left right => left.1 ≤ right.1)
  | .array items => .array (inOrderItems items)
  | value => value

def inOrderItems : List Value → List Value
  | [] => []
  | item :: items => inOrder item :: inOrderItems items

def inOrderMembers : Members → Members
  | [] => []
  | (key, item) :: members => (key, inOrder item) :: inOrderMembers members

end

private theorem textMembers_eq_map (members : Members) :
    textMembers members =
      members.map fun member => quote member.1 ++ ':' :: member.2.text := by
  induction members with
  | nil => rw [textMembers, List.map_nil]
  | cons member members induction =>
      obtain ⟨key, item⟩ := member
      rw [textMembers, induction, List.map_cons]

private theorem inOrderMembers_eq_map (members : Members) :
    inOrderMembers members =
      members.map fun member => (member.1, member.2.inOrder) := by
  induction members with
  | nil => rw [inOrderMembers, List.map_nil]
  | cons member members induction =>
      obtain ⟨key, item⟩ := member
      rw [inOrderMembers, induction, List.map_cons]

private theorem keys_inOrderMembers (members : Members) :
    (inOrderMembers members).map Prod.fst = members.map Prod.fst := by
  rw [inOrderMembers_eq_map, List.map_map]
  rfl

mutual

theorem canonical_eq_text : ∀ value : Value,
    value.canonical = value.inOrder.text
  | .null => rfl
  | .bool _ => rfl
  | .number _ => rfl
  | .string _ => rfl
  | .array items => by
      rw [canonical, inOrder, text, canonicalItems_eq_text]
  | .object members => by
      rw [canonical, inOrder, text, canonicalMembers_eq_text,
        textMembers_eq_map,
        ← List.map_insertionSort (fun left right => left.1 ≤ right.1) _ _ _
          fun _ _ _ _ => Iff.rfl,
        List.map_map]
      rfl

theorem canonicalItems_eq_text : ∀ items : List Value,
    canonicalItems items = textItems (inOrderItems items)
  | [] => rfl
  | item :: items => by
      rw [canonicalItems, inOrderItems, textItems, canonical_eq_text,
        canonicalItems_eq_text]

theorem canonicalMembers_eq_text : ∀ members : Members,
    canonicalMembers members =
      (inOrderMembers members).map fun member => (member.1, member.2.text)
  | [] => rfl
  | (key, item) :: members => by
      rw [canonicalMembers, inOrderMembers, List.map_cons, canonical_eq_text,
        canonicalMembers_eq_text]

end

private theorem keys_strictly {members : Members}
    (distinct : (members.map Prod.fst).Nodup) :
    (((members.insertionSort fun left right => left.1 ≤ right.1)).map
      Prod.fst).Pairwise (· < ·) := by
  rw [List.pairwise_map]
  have same := List.perm_insertionSort (fun left right => left.1 ≤ right.1)
    members
  have distinct := (same.map Prod.fst).nodup_iff.mpr distinct
  have sorted := List.pairwise_insertionSort
    (fun left right : String × Value => left.1 ≤ right.1) members
  have apart := List.pairwise_map.mp distinct
  exact sorted.imp₂ (fun _ _ lower differs => lt_of_le_of_ne lower differs) apart

private theorem orderedMembers_iff (members : Members) :
    OrderedMembers members ↔ ∀ member ∈ members, member.2.Ordered := by
  induction members with
  | nil => simp [OrderedMembers]
  | cons member members induction =>
      obtain ⟨key, item⟩ := member
      rw [OrderedMembers, induction, List.forall_mem_cons]

mutual

theorem ordered_inOrder : ∀ value : Value,
    value.WellFormed → value.inOrder.Ordered
  | .null, _ => trivial
  | .bool _, _ => trivial
  | .number _, formed => formed
  | .string _, _ => trivial
  | .array items, formed => ordered_inOrderItems items formed
  | .object members, ⟨distinct, formed⟩ => by
      refine ⟨keys_strictly ?_, ?_⟩
      · rw [keys_inOrderMembers]
        exact distinct
      · have inside := (orderedMembers_iff _).mp
          (ordered_inOrderMembers members formed)
        refine (orderedMembers_iff _).mpr fun member sorted => ?_
        exact inside member ((List.mem_insertionSort _).mp sorted)

theorem ordered_inOrderItems : ∀ items : List Value,
    WellFormedItems items → OrderedItems (inOrderItems items)
  | [], _ => trivial
  | item :: items, ⟨formed, others⟩ =>
      ⟨ordered_inOrder item formed, ordered_inOrderItems items others⟩

theorem ordered_inOrderMembers : ∀ members : Members,
    WellFormedMembers members → OrderedMembers (inOrderMembers members)
  | [], _ => trivial
  | (_, item) :: members, ⟨formed, others⟩ =>
      ⟨ordered_inOrder item formed, ordered_inOrderMembers members others⟩

end

theorem parse_canonical {value : Value} (formed : value.WellFormed) :
    parse value.canonical = some value.inOrder := by
  rw [canonical_eq_text]
  exact parse_text (ordered_inOrder value formed)

theorem canonical_eq_iff {left right : Value} (formed : left.WellFormed)
    (others : right.WellFormed) :
    left.canonical = right.canonical ↔ left.inOrder = right.inOrder := by
  constructor
  · intro same
    have read := parse_canonical formed
    rw [same, parse_canonical others] at read
    exact (Option.some.inj read).symm
  · intro same
    rw [canonical_eq_text, canonical_eq_text, same]

mutual

/-- Two values differ at most in the order in which objects list their
members.  Numbers are compared by their texts. -/
def Same : Value → Value → Prop
  | .null, .null => True
  | .bool left, .bool right => left = right
  | .number left, .number right => left.text = right.text
  | .string left, .string right => left = right
  | .array lefts, .array rights => SameItems lefts rights
  | .object lefts, .object rights =>
      lefts.length = rights.length ∧ SameMembers lefts rights
  | _, _ => False

def SameItems : List Value → List Value → Prop
  | [], [] => True
  | left :: lefts, right :: rights => Same left right ∧ SameItems lefts rights
  | _, _ => False

/-- Every member has its like among the others. -/
def SameMembers : Members → Members → Prop
  | [], _ => True
  | (key, left) :: lefts, rights =>
      (∃ right, (key, right) ∈ rights ∧ Same left right) ∧
        SameMembers lefts rights

end

private theorem wellFormedMembers_iff (members : Members) :
    WellFormedMembers members ↔ ∀ member ∈ members, member.2.WellFormed := by
  induction members with
  | nil => simp [WellFormedMembers]
  | cons member members induction =>
      obtain ⟨key, item⟩ := member
      rw [WellFormedMembers, induction, List.forall_mem_cons]

/-- The members of two maps of one length are the same in order when those of
the one are among those of the other. -/
private theorem sorted_eq_iff {lefts rights : Members}
    (distinct : (lefts.map Prod.fst).Nodup)
    (others : (rights.map Prod.fst).Nodup) :
    (lefts.insertionSort fun left right => left.1 ≤ right.1) =
        (rights.insertionSort fun left right => left.1 ≤ right.1) ↔
      lefts.length = rights.length ∧ ∀ member ∈ lefts, member ∈ rights := by
  have listed := List.perm_insertionSort
    (fun left right : String × Value => left.1 ≤ right.1)
  constructor
  · intro same
    have permuted : lefts.Perm rights :=
      (listed lefts).symm.trans (same ▸ listed rights)
    exact ⟨permuted.length_eq, fun member inside => permuted.subset inside⟩
  · rintro ⟨counted, inside⟩
    have permuted : lefts.Perm rights :=
      (List.subperm_of_subset (List.Nodup.of_map _ distinct)
        inside).perm_of_length_le counted.ge
    have sorted := ((listed lefts).trans permuted).trans (listed rights).symm
    refine sorted.eq_of_pairwise ?_
      (List.pairwise_map.mp (keys_strictly distinct))
      (List.pairwise_map.mp (keys_strictly others))
    intro left right _ _ lower higher
    exact absurd higher (lt_asymm lower)

theorem number_eq_of_text {left right : Number}
    (formed : left.WellFormed) (others : right.WellFormed) :
    left.text = right.text ↔ left = right := by
  constructor
  · intro same
    rw [← left.numberOf_text formed, same, right.numberOf_text others]
  · rintro rfl
    rfl

mutual

theorem same_iff : ∀ left right : Value, left.WellFormed → right.WellFormed →
    (left.Same right ↔ left.inOrder = right.inOrder)
  | .null, right, _, _ => by
      cases right <;> simp [Same, inOrder]
  | .bool left, right, _, _ => by
      cases right <;> simp [Same, inOrder]
  | .number left, right, formed, others => by
      cases right <;> simp only [Same, inOrder, reduceCtorEq]
      rw [number_eq_of_text formed others, number.injEq]
  | .string left, right, _, _ => by
      cases right <;> simp [Same, inOrder]
  | .array lefts, right, formed, others => by
      cases right <;> simp only [Same, inOrder, reduceCtorEq]
      rw [sameItems_iff lefts _ formed others, array.injEq]
  | .object lefts, right, formed, others => by
      cases right <;> simp only [Same, inOrder, reduceCtorEq]
      next rights =>
        rw [object.injEq, sorted_eq_iff
          (by rw [keys_inOrderMembers]; exact formed.1)
          (by rw [keys_inOrderMembers]; exact others.1),
          sameMembers_iff lefts rights formed.2 others.2]
        simp only [inOrderMembers_eq_map, List.length_map]

theorem sameItems_iff : ∀ lefts rights : List Value,
    WellFormedItems lefts → WellFormedItems rights →
      (SameItems lefts rights ↔ inOrderItems lefts = inOrderItems rights)
  | [], [], _, _ => by simp [SameItems]
  | [], _ :: _, _, _ => by simp [SameItems, inOrderItems]
  | _ :: _, [], _, _ => by simp [SameItems, inOrderItems]
  | left :: lefts, right :: rights, formed, others => by
      rw [SameItems, inOrderItems, inOrderItems,
        same_iff left right formed.1 others.1,
        sameItems_iff lefts rights formed.2 others.2, List.cons.injEq]

theorem sameMembers_iff : ∀ lefts rights : Members,
    WellFormedMembers lefts → WellFormedMembers rights →
      (SameMembers lefts rights ↔
        ∀ member ∈ inOrderMembers lefts, member ∈ inOrderMembers rights)
  | [], _, _, _ => by simp [SameMembers, inOrderMembers]
  | (key, left) :: lefts, rights, formed, others => by
      have like : (∃ right, (key, right) ∈ rights ∧ left.Same right) ↔
          (key, left.inOrder) ∈ inOrderMembers rights := by
        rw [inOrderMembers_eq_map, List.mem_map]
        constructor
        · rintro ⟨right, inside, same⟩
          have formedRight := (wellFormedMembers_iff rights).mp others _ inside
          have equal := (same_iff left right formed.1 formedRight).mp same
          exact ⟨(key, right), inside, by rw [equal]⟩
        · rintro ⟨⟨other, right⟩, inside, equal⟩
          simp only [Prod.mk.injEq] at equal
          obtain ⟨rfl, equal⟩ := equal
          have formedRight := (wellFormedMembers_iff rights).mp others _ inside
          exact ⟨right, inside,
            (same_iff left right formed.1 formedRight).mpr equal.symm⟩
      rw [SameMembers, inOrderMembers, List.forall_mem_cons, like,
        sameMembers_iff lefts rights formed.2 others]

end

theorem canonical_eq_iff_same {left right : Value} (formed : left.WellFormed)
    (others : right.WellFormed) :
    left.canonical = right.canonical ↔ left.Same right := by
  rw [canonical_eq_iff formed others, same_iff left right formed others]

mutual

theorem wellFormed_of_ordered : ∀ value : Value,
    value.Ordered → value.WellFormed
  | .null, _ => trivial
  | .bool _, _ => trivial
  | .number _, ordered => ordered
  | .string _, _ => trivial
  | .array items, ordered => wellFormedItems_of_ordered items ordered
  | .object members, ⟨sorted, ordered⟩ =>
      ⟨sorted.imp ne_of_lt, wellFormedMembers_of_ordered members ordered⟩

theorem wellFormedItems_of_ordered : ∀ items : List Value,
    OrderedItems items → WellFormedItems items
  | [], _ => trivial
  | item :: items, ⟨ordered, others⟩ =>
      ⟨wellFormed_of_ordered item ordered,
        wellFormedItems_of_ordered items others⟩

theorem wellFormedMembers_of_ordered : ∀ members : Members,
    OrderedMembers members → WellFormedMembers members
  | [], _ => trivial
  | (_, item) :: members, ⟨ordered, others⟩ =>
      ⟨wellFormed_of_ordered item ordered,
        wellFormedMembers_of_ordered members others⟩

end

mutual

theorem inOrder_of_ordered : ∀ value : Value,
    value.Ordered → value.inOrder = value
  | .null, _ => rfl
  | .bool _, _ => rfl
  | .number _, _ => rfl
  | .string _, _ => rfl
  | .array items, ordered => by
      rw [inOrder, inOrderItems_of_ordered items ordered]
  | .object members, ⟨sorted, ordered⟩ => by
      rw [inOrder, inOrderMembers_of_ordered members ordered]
      exact congrArg object
        ((List.pairwise_map.mp sorted).imp le_of_lt).insertionSort_eq

theorem inOrderItems_of_ordered : ∀ items : List Value,
    OrderedItems items → inOrderItems items = items
  | [], _ => rfl
  | item :: items, ⟨ordered, others⟩ => by
      rw [inOrderItems, inOrder_of_ordered item ordered,
        inOrderItems_of_ordered items others]

theorem inOrderMembers_of_ordered : ∀ members : Members,
    OrderedMembers members → inOrderMembers members = members
  | [], _ => rfl
  | (_, item) :: members, ⟨ordered, others⟩ => by
      rw [inOrderMembers, inOrder_of_ordered item ordered,
        inOrderMembers_of_ordered members others]

end

theorem same_inOrder {value : Value} (formed : value.WellFormed) :
    value.Same value.inOrder := by
  have ordered := ordered_inOrder value formed
  rw [same_iff value _ formed (wellFormed_of_ordered _ ordered),
    inOrder_of_ordered _ ordered]

end Value

end MiryadCore
