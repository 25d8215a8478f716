import MiryadCore.Workflow.Template

/-!
# The two ways to render a `config`

A `config` is rendered field by field, with its raw fields copied, or as one
value.  The first way is the second on the `config` whose raw fields are under
a marker; and what holds no template is copied by both, without the engine.
-/

namespace MiryadCore.Workflow.Template

variable {hbs : Services} {ctx : Value} {rawFields : List String}

/-- The objects that `renderConfig` leaves to `renderValue`. -/
def Special (members : Members) : Prop :=
  members.length = 1 ∧
    ((members.lookup "$raw").isSome ∨ (members.lookup "$json").isSome)

instance decidableSpecial : DecidablePred Special := fun members =>
  inferInstanceAs (Decidable (members.length = 1 ∧
    ((members.lookup "$raw").isSome ∨ (members.lookup "$json").isSome)))

/-- A raw field has its value under the marker `$raw`. -/
def wrapField (rawFields : List String) (member : String × Value) :
    String × Value :=
  if member.1 ∈ rawFields then (member.1, .object [("$raw", member.2)])
  else member

def wrapFields (rawFields : List String) (members : Members) : Members :=
  members.map (wrapField rawFields)

theorem fst_wrapField (member : String × Value) :
    (wrapField rawFields member).1 = member.1 := by
  unfold wrapField
  split
  · rfl
  · rfl

theorem wrapFields_cons (key : String) (item : Value) (members : Members) :
    wrapFields rawFields ((key, item) :: members) =
      (key, (wrapField rawFields (key, item)).2) ::
        wrapFields rawFields members :=
  congrArg (· :: _) (Prod.ext (fst_wrapField (key, item)) rfl)

theorem marker_eq_none {members : Members} (plain : ¬ Special members) :
    marker members = none := by
  unfold marker
  split
  next single =>
    have absent : ∀ name, (name = "$raw" ∨ name = "$json") →
        members.lookup name = none := by
      intro name marks
      by_contra found
      have present := Option.isSome_iff_ne_none.mpr found
      refine plain ⟨single, ?_⟩
      rcases marks with rfl | rfl
      · exact .inl present
      · exact .inr present
    rw [absent "$raw" (.inl rfl), absent "$json" (.inr rfl)]
    rfl
  next => rfl

theorem isSome_lookup_wrapFields (name : String) (members : Members) :
    ((wrapFields rawFields members).lookup name).isSome =
      (members.lookup name).isSome := by
  induction members with
  | nil => rfl
  | cons member members induction =>
      obtain ⟨key, item⟩ := member
      rw [wrapFields_cons, List.lookup_cons, List.lookup_cons]
      cases name == key with
      | true => rfl
      | false => exact induction

theorem special_wrapFields {members : Members} :
    Special (wrapFields rawFields members) ↔ Special members := by
  unfold Special
  rw [isSome_lookup_wrapFields, isSome_lookup_wrapFields, wrapFields,
    List.length_map]

theorem renderField_eq (key : String) (item : Value) :
    renderField hbs ctx rawFields key item =
      renderValue hbs ctx (childPointer "" key)
        (wrapField rawFields (key, item)).2 := by
  unfold renderField wrapField
  by_cases raw : key ∈ rawFields
  · rw [if_pos raw, if_pos raw]
    rfl
  · rw [if_neg raw, if_neg raw]

theorem renderFields_eq (members : Members) :
    renderFields hbs ctx rawFields members =
      renderMembers hbs ctx "" (wrapFields rawFields members) := by
  induction members with
  | nil => rfl
  | cons member members induction =>
      obtain ⟨key, item⟩ := member
      rw [wrapFields_cons, renderFields, renderMembers, renderField_eq,
        induction]

theorem renderConfig_object {members : Members} (plain : ¬ Special members)
    (run : RunInfo) (inputs : Table) :
    renderConfig hbs (.object members) run inputs rawFields =
      .object <$> renderFields hbs (context run inputs) rawFields members :=
  if_neg plain

mutual

/-- No string has an opening, and no key is a marker. -/
def untemplated : Value → Bool
  | .string template => !hasOpening template.toList
  | .array items => untemplatedItems items
  | .object members => untemplatedMembers members
  | .number _ => true
  | .bool _ => true
  | .null => true

def untemplatedItems : List Value → Bool
  | [] => true
  | item :: items => untemplated item && untemplatedItems items

def untemplatedMembers : List (String × Value) → Bool
  | [] => true
  | (key, item) :: members =>
      key ≠ "$raw" && key ≠ "$json" && untemplated item &&
        untemplatedMembers members

end

theorem untemplatedMembers_cons {key : String} {item : Value}
    {members : List (String × Value)}
    (plain : untemplatedMembers ((key, item) :: members) = true) :
    (key ≠ "$raw" ∧ key ≠ "$json") ∧ untemplated item = true ∧
      untemplatedMembers members = true := by
  simp only [untemplatedMembers, Bool.and_eq_true, decide_eq_true_eq] at plain
  exact ⟨plain.1.1, plain.1.2, plain.2⟩

theorem not_special_of_untemplated {members : Members}
    (plain : untemplatedMembers members = true) : ¬ Special members := by
  rintro ⟨single, marked⟩
  obtain ⟨⟨key, item⟩, rfl⟩ := List.length_eq_one_iff.mp single
  obtain ⟨notRaw, notJson⟩ := (untemplatedMembers_cons plain).1
  have other : ∀ name, name ≠ key → [(key, item)].lookup name = none := by
    intro name different
    rw [List.lookup_cons, beq_eq_false_iff_ne.mpr different]
    rfl
  rcases marked with found | found
  · rw [other "$raw" notRaw.symm] at found
    cases found
  · rw [other "$json" notJson.symm] at found
    cases found

mutual

theorem renderValue_untemplated (pointer : String) : ∀ value : Value,
    untemplated value = true →
    renderValue hbs ctx pointer value = pure value
  | .string template, plain => by
      rw [untemplated, Bool.not_eq_true'] at plain
      rw [renderValue, renderString, plain]
      rfl
  | .array items, plain => by
      rw [untemplated] at plain
      rw [renderValue, renderItems_untemplated pointer 0 items plain]
      rfl
  | .object members, plain => by
      rw [untemplated] at plain
      rw [renderValue, marker_eq_none (not_special_of_untemplated plain)]
      dsimp only
      rw [renderMembers_untemplated pointer members plain]
      rfl
  | .number _, _ => rfl
  | .bool _, _ => rfl
  | .null, _ => rfl

theorem renderItems_untemplated (pointer : String) (i : ℕ) :
    ∀ items : List Value, untemplatedItems items = true →
      renderItems hbs ctx pointer i items = pure items
  | [], _ => rfl
  | item :: items, plain => by
      rw [untemplatedItems, Bool.and_eq_true] at plain
      rw [renderItems, renderValue_untemplated _ item plain.1,
        renderItems_untemplated pointer (i + 1) items plain.2]
      rfl

theorem renderMembers_untemplated (pointer : String) :
    ∀ members : List (String × Value), untemplatedMembers members = true →
      renderMembers hbs ctx pointer members = pure members
  | [], _ => rfl
  | (key, item) :: members, plain => by
      obtain ⟨_, plainItem, plainRest⟩ := untemplatedMembers_cons plain
      rw [renderMembers, renderValue_untemplated _ item plainItem,
        renderMembers_untemplated pointer members plainRest]
      rfl

end

theorem renderFields_untemplated (members : Members)
    (plain : untemplatedMembers members = true) :
    renderFields hbs ctx rawFields members = pure members := by
  induction members with
  | nil => rfl
  | cons member members induction =>
      obtain ⟨key, item⟩ := member
      obtain ⟨_, plainItem, plainRest⟩ := untemplatedMembers_cons plain
      have field : renderField hbs ctx rawFields key item = pure item := by
        rw [renderField]
        split
        · rfl
        · exact renderValue_untemplated _ item plainItem
      rw [renderFields, field, induction plainRest]
      rfl

/-- The raw fields of a `config` are rendered as values under their marker, by
the same calls of the engine and to the same result; and a `config` without a
template is its own rendering, without a call. -/
theorem render_paths (hbs : Services) (run : RunInfo) (inputs : Table)
    (rawFields : List String) :
    (∀ members, ¬ Special members →
      renderConfig hbs (.object members) run inputs rawFields =
        renderValue hbs (context run inputs) ""
          (.object (wrapFields rawFields members))) ∧
    ∀ config, untemplated config = true →
      (renderConfig hbs config run inputs rawFields).outcome = .ok config ∧
        (renderConfig hbs config run inputs rawFields).log = [] := by
  refine ⟨?_, ?_⟩
  · intro members plain
    have unwrapped : ¬ Special (wrapFields rawFields members) :=
      mt special_wrapFields.mp plain
    rw [renderConfig_object plain, renderValue, marker_eq_none unwrapped,
      renderFields_eq]
  · intro config plain
    have copied : renderConfig hbs config run inputs rawFields =
        pure config := by
      cases config with
      | object members =>
          rw [untemplated] at plain
          rw [renderConfig_object (not_special_of_untemplated plain),
            renderFields_untemplated members plain]
          rfl
      | null => exact renderValue_untemplated _ _ plain
      | bool value => exact renderValue_untemplated _ _ plain
      | number value => exact renderValue_untemplated _ _ plain
      | string value => exact renderValue_untemplated _ _ plain
      | array items => exact renderValue_untemplated _ _ plain
    rw [copied]
    exact ⟨rfl, rfl⟩

/-- An engine that finds no variable. -/
def unknowing : Services where
  render template _ := .error ("unknown variable in " ++ template)
  fromStr text := .error text

theorem render_paths_raw :
    let run : RunInfo := ⟨"t", "s", 0, .object [], none⟩
    let raw : Value := .string "\x7b\x7bname\x7d\x7d"
    renderConfig unknowing (.object [("keep", raw), ("title", .string "hello")])
        run ∅ ["keep"] =
      renderValue unknowing (context run ∅) ""
        (.object [("keep", .object [("$raw", raw)]),
          ("title", .string "hello")]) ∧
      (renderConfig unknowing (.array [.string "hello"]) run ∅ []).log = [] :=
  ⟨(render_paths unknowing _ ∅ ["keep"]).1 _ (by decide +kernel),
    ((render_paths unknowing _ ∅ []).2 _ (by decide +kernel)).2⟩

end MiryadCore.Workflow.Template
