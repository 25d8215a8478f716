import MiryadCore.Json.Canonical
import MiryadCore.Lymaille.WriteJournal

/-!
# The keys of the write journal

The key of an operation is the digest of the canonical text of its envelope.
As the canonical text of a value is read back as that value, two operations
share a key exactly when they are one operation on one resource and their
bodies differ at most in the order of the members of their objects.
-/

namespace MiryadCore.Lymaille

variable {F64 : Type}

/-- The number of an identifier. -/
private def idNumber (id : Int32) : Number :=
  if 0 ≤ id.toInt then .posInt (UInt64.ofNat id.toInt.toNat)
  else .negInt (Int64.ofInt id.toInt)

private theorem idValue_some (id : Int32) :
    idValue (some id.toInt) = .number (idNumber id) := by
  simp only [idValue, idNumber]
  split_ifs
  · rfl
  · rfl

private theorem toInt_ofInt (id : Int32) :
    (Int64.ofInt id.toInt).toInt = id.toInt := by
  have lower := Int32.le_toInt id
  have upper := Int32.toInt_lt id
  rw [Int64.toInt_ofInt_of_le] <;> omega

private theorem idNumber_wellFormed (id : Int32) :
    (idNumber id).WellFormed := by
  unfold idNumber
  split_ifs with positive
  · trivial
  · rw [Number.WellFormed, toInt_ofInt]
    omega

private theorem idNumber_injective : Function.Injective idNumber := by
  intro left right same
  apply Int32.toInt_inj.mp
  have leftUpper := Int32.toInt_lt left
  have rightUpper := Int32.toInt_lt right
  unfold idNumber at same
  split_ifs at same with positive positive' positive'
  · have numbers := congrArg UInt64.toNat (Number.posInt.inj same)
    simp only [UInt64.toNat_ofNat'] at numbers
    omega
  · have numbers := congrArg Int64.toInt (Number.negInt.inj same)
    rwa [toInt_ofInt, toInt_ofInt] at numbers

theorem idValue_wellFormed (id : Option Int32) :
    (idValue (id.map Int32.toInt)).WellFormed := by
  cases id with
  | none => trivial
  | some id =>
      rw [Option.map_some, idValue_some]
      exact idNumber_wellFormed id

theorem idValue_same (left right : Option Int32) :
    (idValue (left.map Int32.toInt)).Same (idValue (right.map Int32.toInt)) ↔
      left = right := by
  cases left with
  | none =>
      cases right with
      | none => simp [idValue, Value.Same]
      | some right =>
          rw [Option.map_some, idValue_some]
          simp [idValue, Value.Same]
  | some left =>
      cases right with
      | none =>
          rw [Option.map_some, idValue_some]
          simp [idValue, Value.Same]
      | some right =>
          rw [Option.map_some, Option.map_some, idValue_some, idValue_some,
            Value.Same, Value.number_eq_of_text (idNumber_wellFormed left)
              (idNumber_wellFormed right), idNumber_injective.eq_iff,
            Option.some.injEq]

theorem Op.text_injective : Function.Injective Op.text := by
  intro left right
  cases left <;> cases right <;> decide

private def envelopeMembers (op : Op) (resource : String) (id : Option Int32)
    (body : Value) : Members :=
  [("body", body),
    ("id", idValue (id.map Int32.toInt)),
    ("op", .string op.text),
    ("resource", .string resource)]

/-- What `op_key` digests. -/
def envelope (op : Op) (resource : String) (id : Option Int32)
    (body : Value) : Value :=
  .object (envelopeMembers op resource id body)

theorem envelope_wellFormed (op : Op) (resource : String)
    (id : Option Int32) {body : Value} (formed : body.WellFormed) :
    (envelope op resource id body).WellFormed :=
  ⟨by simp [envelopeMembers], formed, idValue_wellFormed id, trivial, trivial,
    trivial⟩

theorem envelope_same (op op' : Op) (resource resource' : String)
    (id id' : Option Int32) (body body' : Value) :
    (envelope op resource id body).Same (envelope op' resource' id' body') ↔
      op = op' ∧ resource = resource' ∧ id = id' ∧ body.Same body' := by
  have bodies (value : Value) : (∃ item, ("body", item) ∈
      envelopeMembers op' resource' id' body' ∧ value.Same item) ↔
        value.Same body' := by
    simp [envelopeMembers]
  have ids (value : Value) : (∃ item, ("id", item) ∈
      envelopeMembers op' resource' id' body' ∧ value.Same item) ↔
        value.Same (idValue (id'.map Int32.toInt)) := by
    simp [envelopeMembers]
  have ops (value : Value) : (∃ item, ("op", item) ∈
      envelopeMembers op' resource' id' body' ∧ value.Same item) ↔
        value.Same (.string op'.text) := by
    simp [envelopeMembers]
  have resources (value : Value) : (∃ item, ("resource", item) ∈
      envelopeMembers op' resource' id' body' ∧ value.Same item) ↔
        value.Same (.string resource') := by
    simp [envelopeMembers]
  rw [envelope, envelope, Value.Same]
  conv => lhs; arg 2; arg 1; unfold envelopeMembers
  simp only [Value.SameMembers, bodies, ids, ops, resources]
  simp only [Value.Same, idValue_same, Op.text_injective.eq_iff,
    envelopeMembers, List.length_cons, true_and, and_true]
  tauto

/-- Canonical texts tell values apart up to the order of the members, a
canonical text is read back, and keys tell operations apart.  A text is read by
the grammar: a float is its literal, and there is no limit to the depth. -/
theorem canonical_keys (crates : Crates F64)
    (injective : Function.Injective crates.sha256Hex) (left right : Value)
    (formed : left.WellFormed) (others : right.WellFormed) :
    (left.canonical = right.canonical ↔ left.Same right) ∧
      (∃ read, Json.parse left.canonical = some read ∧ left.Same read) ∧
      ∀ (op op' : Op) (resource resource' : String) (id id' : Option Int32),
        opKey crates op resource (id.map Int32.toInt) left =
            opKey crates op' resource' (id'.map Int32.toInt) right ↔
          op = op' ∧ resource = resource' ∧ id = id' ∧ left.Same right := by
  refine ⟨Value.canonical_eq_iff_same formed others,
    ⟨_, Value.parse_canonical formed, Value.same_inOrder formed⟩, ?_⟩
  intro op op' resource resource' id id'
  rw [← envelope_same op op' resource resource' id id' left right,
    ← Value.canonical_eq_iff_same (envelope_wellFormed op resource id formed)
      (envelope_wellFormed op' resource' id' others)]
  exact injective.eq_iff

theorem canonical_keys_reordered :
    opKey (⟨String.ofList, fun _ => "", fun _ => none⟩ : Crates ℕ) .create
        "notes" none
        (.object [("b", .null), ("a", .string "\"\x7d")]) =
      opKey (⟨String.ofList, fun _ => "", fun _ => none⟩ : Crates ℕ) .create
        "notes" none
        (.object [("a", .string "\"\x7d"), ("b", .null)]) :=
  ((canonical_keys ⟨String.ofList, fun _ => "", fun _ => none⟩
    (fun _ _ same => String.ofList_injective same)
    (.object [("b", .null), ("a", .string "\"\x7d")])
    (.object [("a", .string "\"\x7d"), ("b", .null)])
    ⟨by decide, trivial, trivial, trivial⟩
    ⟨by decide, trivial, trivial, trivial⟩).2.2 .create .create "notes"
      "notes" none none).mpr ⟨rfl, rfl, rfl, rfl,
        ⟨_, .tail _ (.head _), trivial⟩, ⟨_, .head _, rfl⟩, trivial⟩

end MiryadCore.Lymaille
