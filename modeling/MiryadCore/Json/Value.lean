import Mathlib.Data.List.Basic
import Mathlib.Data.String.Basic

/-!
# JSON values

The tree of `serde_json::Value` as the crate compiles it: the feature
`preserve_order` is off, so an object is a sorted map and its members are
listed here in the order in which it is iterated.
-/

namespace MiryadCore

/-- `serde_json::Number`.  A float is identified by the text it prints as. -/
inductive Number where
  | posInt (value : UInt64)
  | negInt (value : Int64)
  | float (text : String)
  deriving DecidableEq, Repr

inductive Value where
  | null
  | bool (value : Bool)
  | number (value : Number)
  | string (value : String)
  | array (items : List Value)
  | object (members : List (String × Value))
  deriving Repr

/-- `serde_json::Map<String, Value>`, in iteration order. -/
abbrev Members := List (String × Value)

instance keys_trans : IsTrans String (· ≤ ·) := inferInstance

instance keys_antisymm : Std.Antisymm fun key other : String => key ≤ other :=
  inferInstance

namespace Value

mutual

/-- Structural equality, the derived `PartialEq` of the source type. -/
def beq : Value → Value → Bool
  | .null, .null => true
  | .bool left, .bool right => left == right
  | .number left, .number right => left == right
  | .string left, .string right => left == right
  | .array left, .array right => beqItems left right
  | .object left, .object right => beqMembers left right
  | _, _ => false

def beqItems : List Value → List Value → Bool
  | [], [] => true
  | left :: lefts, right :: rights => beq left right && beqItems lefts rights
  | _, _ => false

def beqMembers : List (String × Value) → List (String × Value) → Bool
  | [], [] => true
  | (leftKey, left) :: lefts, (rightKey, right) :: rights =>
      leftKey == rightKey && beq left right && beqMembers lefts rights
  | _, _ => false

end

mutual

theorem beq_iff_eq : ∀ left right : Value, beq left right = true ↔ left = right
  | .null, right => by cases right <;> simp [beq]
  | .bool _, right => by cases right <;> simp [beq]
  | .number _, right => by cases right <;> simp [beq]
  | .string _, right => by cases right <;> simp [beq]
  | .array items, right => by
      cases right <;> simp [beq, beqItems_iff_eq items]
  | .object members, right => by
      cases right <;> simp [beq, beqMembers_iff_eq members]

theorem beqItems_iff_eq :
    ∀ left right : List Value, beqItems left right = true ↔ left = right
  | [], right => by cases right <;> simp [beqItems]
  | item :: items, right => by
      cases right with
      | nil => simp [beqItems]
      | cons other others =>
          simp [beqItems, beq_iff_eq item, beqItems_iff_eq items]

theorem beqMembers_iff_eq :
    ∀ left right : List (String × Value),
      beqMembers left right = true ↔ left = right
  | [], right => by cases right <;> simp [beqMembers]
  | (key, item) :: members, right => by
      cases right with
      | nil => simp [beqMembers]
      | cons other others =>
          obtain ⟨otherKey, otherItem⟩ := other
          simp [beqMembers, beq_iff_eq item, beqMembers_iff_eq members]

end

instance : DecidableEq Value := fun left right =>
  decidable_of_iff (beq left right = true) (beq_iff_eq left right)

/-- `Value::get` on an object: the member stored under `key`. -/
def get? (key : String) : Value → Option Value
  | .object members => members.lookup key
  | _ => none

/-- `Value::as_object`. -/
def asObject : Value → Option Members
  | .object members => some members
  | _ => none

/-- `Value::as_str`. -/
def asString : Value → Option String
  | .string text => some text
  | _ => none

/-- `Value::as_array`. -/
def asArray : Value → Option (List Value)
  | .array items => some items
  | _ => none

theorem asObject_eq_some {value : Value} {members : Members} :
    value.asObject = some members ↔ value = .object members := by
  cases value <;> simp [asObject]

mutual

/-- The string leaves of a value, from left to right.  Keys are not leaves. -/
def stringLeaves : Value → List String
  | .string text => [text]
  | .array items => stringLeavesItems items
  | .object members => stringLeavesMembers members
  | .null => []
  | .bool _ => []
  | .number _ => []

def stringLeavesItems : List Value → List String
  | [] => []
  | item :: items => stringLeaves item ++ stringLeavesItems items

def stringLeavesMembers : List (String × Value) → List String
  | [] => []
  | (_, item) :: members => stringLeaves item ++ stringLeavesMembers members

end

theorem stringLeaves_of_lookup {key : String} {item : Value} {text : String}
    {members : Members} (found : members.lookup key = some item)
    (leaf : text ∈ item.stringLeaves) :
    text ∈ stringLeavesMembers members := by
  induction members with
  | nil => simp at found
  | cons member members induction =>
      obtain ⟨memberKey, member⟩ := member
      simp only [List.lookup_cons] at found
      simp only [stringLeavesMembers, List.mem_append]
      split at found
      · obtain rfl : member = item := by simpa using found
        exact Or.inl leaf
      · exact Or.inr (induction found)

end Value

end MiryadCore
