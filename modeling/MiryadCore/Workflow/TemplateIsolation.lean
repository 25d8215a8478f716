import MiryadCore.Workflow.Template

/-!
# Data is never evaluated as a template

The strings handed to the engine follow a script that depends on the `config`
and on the raw fields alone.  Neither the context nor what the engine and the
JSON parser return can add a string to it.
-/

namespace MiryadCore.Workflow.Template

variable {hbs : Services} {ctx : Value} {rawFields : List String}

/-- A string goes to the engine when it contains an opening. -/
def templateOf (template : String) : List String :=
  if hasOpening template.toList then [template] else []

def jsonTemplates : Value → List String
  | .string template => templateOf template
  | _ => []

mutual

/-- The script of `renderValue`. -/
def templates : Value → List String
  | .string template => templateOf template
  | .array items => itemTemplates items
  | .object members =>
      match marker members with
      | some (.raw _) => []
      | some (.json json) => jsonTemplates json
      | none => memberTemplates members
  | .number _ => []
  | .bool _ => []
  | .null => []

def itemTemplates : List Value → List String
  | [] => []
  | item :: items => templates item ++ itemTemplates items

def memberTemplates : List (String × Value) → List String
  | [] => []
  | (_, item) :: members => templates item ++ memberTemplates members

end

def fieldTemplates (rawFields : List String) : Members → List String
  | [] => []
  | (key, item) :: members =>
      (if key ∈ rawFields then [] else templates item) ++
        fieldTemplates rawFields members

/-- The script of `renderConfig`. -/
def configTemplates (config : Value) (rawFields : List String) : List String :=
  match config with
  | .object members =>
      if members.length = 1 ∧
          ((members.lookup "$raw").isSome ∨ (members.lookup "$json").isSome)
      then
        templates (.object members)
      else
        fieldTemplates rawFields members
  | config => templates config

theorem follows_renderString (template pointer : String) :
    Logged.Follows (templateOf template)
      (renderString hbs template ctx pointer) := by
  rw [renderString, templateOf]
  split
  · apply (Logged.follows_emit template _).bind_silent
    intro rendered _
    split
    · exact Logged.follows_fail _
    · exact Logged.follows_pure rendered
  · exact Logged.follows_pure template

theorem follows_renderJson (json : Value) (pointer : String) :
    Logged.Follows (jsonTemplates json) (renderJson hbs ctx pointer json) := by
  cases json with
  | string template =>
      rw [renderJson, jsonTemplates]
      apply (follows_renderString template pointer).bind_silent
      intro rendered _
      cases hbs.fromStr rendered with
      | ok value => exact Logged.follows_pure value
      | error error => exact Logged.follows_fail _
  | null => exact Logged.follows_fail _
  | bool _ => exact Logged.follows_fail _
  | number _ => exact Logged.follows_fail _
  | array _ => exact Logged.follows_fail _
  | object _ => exact Logged.follows_fail _

mutual

theorem follows_renderValue (pointer : String) : ∀ value : Value,
    Logged.Follows (templates value) (renderValue hbs ctx pointer value)
  | .string template => by
      rw [renderValue, templates]
      exact (follows_renderString template pointer).map _
  | .array items => by
      rw [renderValue, templates]
      exact (follows_renderItems pointer 0 items).map _
  | .object members => by
      rw [renderValue, templates]
      cases marker members with
      | none => exact (follows_renderMembers pointer members).map _
      | some special =>
          cases special with
          | raw value => exact Logged.follows_pure value
          | json value => exact follows_renderJson value pointer
  | .number _ => Logged.follows_pure _
  | .bool _ => Logged.follows_pure _
  | .null => Logged.follows_pure _

theorem follows_renderItems (pointer : String) (i : ℕ) :
    ∀ items : List Value,
      Logged.Follows (itemTemplates items)
        (renderItems hbs ctx pointer i items)
  | [] => Logged.follows_pure []
  | item :: items => by
      rw [renderItems, itemTemplates]
      apply (follows_renderValue _ item).bind
      intro rendered _
      apply (follows_renderItems pointer (i + 1) items).bind_silent
      intro others _
      exact Logged.follows_pure (rendered :: others)

theorem follows_renderMembers (pointer : String) :
    ∀ members : List (String × Value),
      Logged.Follows (memberTemplates members)
        (renderMembers hbs ctx pointer members)
  | [] => Logged.follows_pure []
  | (key, item) :: members => by
      rw [renderMembers, memberTemplates]
      apply (follows_renderValue _ item).bind
      intro rendered _
      apply (follows_renderMembers pointer members).bind_silent
      intro others _
      exact Logged.follows_pure ((key, rendered) :: others)

end

theorem follows_renderFields (members : Members) :
    Logged.Follows (fieldTemplates rawFields members)
      (renderFields hbs ctx rawFields members) := by
  induction members with
  | nil => exact Logged.follows_pure []
  | cons member members induction =>
      obtain ⟨key, item⟩ := member
      rw [renderFields, fieldTemplates]
      have field : Logged.Follows
          (if key ∈ rawFields then [] else templates item)
          (renderField hbs ctx rawFields key item) := by
        rw [renderField]
        split
        · exact Logged.follows_pure item
        · exact follows_renderValue _ item
      apply field.bind
      intro rendered _
      apply induction.bind_silent
      intro others _
      exact Logged.follows_pure ((key, rendered) :: others)

theorem follows_renderConfig (config : Value) (run : RunInfo)
    (inputs : Table) :
    Logged.Follows (configTemplates config rawFields)
      (renderConfig hbs config run inputs rawFields) := by
  cases config with
  | object members =>
      rw [renderConfig, configTemplates]
      split
      · exact follows_renderValue _ _
      · exact (follows_renderFields members).map _
  | null => exact Logged.follows_pure _
  | bool _ => exact Logged.follows_pure _
  | number _ => exact Logged.follows_pure _
  | string _ => exact follows_renderValue _ _
  | array _ => exact follows_renderValue _ _

private theorem mem_templateOf {template text : String}
    (member : text ∈ templateOf template) : text = template := by
  rw [templateOf] at member
  split at member
  · exact List.mem_singleton.mp member
  · cases member

private theorem mem_jsonTemplates {json : Value} {text : String}
    (member : text ∈ jsonTemplates json) : text ∈ json.stringLeaves := by
  cases json with
  | string template =>
      rw [mem_templateOf member]
      simp [Value.stringLeaves]
  | null => cases member
  | bool _ => cases member
  | number _ => cases member
  | array _ => cases member
  | object _ => cases member

private theorem lookup_of_marker_json {members : Members} {json : Value}
    (special : marker members = some (.json json)) :
    members.lookup "$json" = some json := by
  rw [marker] at special
  split at special
  · split at special
    · cases special
    · simpa using special
  · cases special

mutual

theorem mem_templates {text : String} : ∀ value : Value,
    text ∈ templates value → text ∈ value.stringLeaves
  | .string template, member => by
      rw [templates] at member
      rw [mem_templateOf member]
      simp [Value.stringLeaves]
  | .array items, member => by
      rw [templates] at member
      rw [Value.stringLeaves]
      exact mem_itemTemplates items member
  | .object members, member => by
      rw [templates] at member
      rw [Value.stringLeaves]
      cases special : marker members with
      | none =>
          simp only [special] at member
          exact mem_memberTemplates members member
      | some found =>
          cases found with
          | raw value => simp [special] at member
          | json value =>
              simp only [special] at member
              apply Value.stringLeaves_of_lookup (lookup_of_marker_json special)
              exact mem_jsonTemplates member
  | .number _, member => by simp [templates] at member
  | .bool _, member => by simp [templates] at member
  | .null, member => by simp [templates] at member

theorem mem_itemTemplates {text : String} : ∀ items : List Value,
    text ∈ itemTemplates items → text ∈ Value.stringLeavesItems items
  | [], member => by simp [itemTemplates] at member
  | item :: items, member => by
      rw [itemTemplates] at member
      rw [Value.stringLeavesItems]
      rcases List.mem_append.mp member with head | tail
      · exact List.mem_append_left _ (mem_templates item head)
      · exact List.mem_append_right _ (mem_itemTemplates items tail)

theorem mem_memberTemplates {text : String} :
    ∀ members : List (String × Value),
      text ∈ memberTemplates members → text ∈ Value.stringLeavesMembers members
  | [], member => by simp [memberTemplates] at member
  | (_, item) :: members, member => by
      rw [memberTemplates] at member
      rw [Value.stringLeavesMembers]
      rcases List.mem_append.mp member with head | tail
      · exact List.mem_append_left _ (mem_templates item head)
      · exact List.mem_append_right _ (mem_memberTemplates members tail)

end

private theorem mem_fieldTemplates {text : String} {members : Members}
    (member : text ∈ fieldTemplates rawFields members) :
    text ∈ Value.stringLeavesMembers members := by
  induction members with
  | nil => simp [fieldTemplates] at member
  | cons entry members induction =>
      obtain ⟨key, item⟩ := entry
      rw [fieldTemplates] at member
      rw [Value.stringLeavesMembers]
      rcases List.mem_append.mp member with head | tail
      · split at head
        · cases head
        · exact List.mem_append_left _ (mem_templates item head)
      · exact List.mem_append_right _ (induction tail)

theorem mem_configTemplates {config : Value} {text : String}
    (member : text ∈ configTemplates config rawFields) :
    text ∈ config.stringLeaves := by
  cases config with
  | object members =>
      rw [configTemplates] at member
      split at member
      · exact mem_templates _ member
      · rw [Value.stringLeaves]
        exact mem_fieldTemplates member
  | null => exact mem_templates _ member
  | bool _ => exact mem_templates _ member
  | number _ => exact mem_templates _ member
  | string _ => exact mem_templates _ member
  | array _ => exact mem_templates _ member

/-- Two renderings of one `config` hand the same strings to the engine up to
the first error, whatever the run, its variables and its inputs.  Each of
these strings is a leaf of the `config`. -/
theorem renderConfig_isolated (hbs : Services) (config : Value)
    (rawFields : List String) (one other : RunInfo)
    (oneInputs otherInputs : Table) :
    let first := renderConfig hbs config one oneInputs rawFields
    let second := renderConfig hbs config other otherInputs rawFields
    (∀ text ∈ first.log, text ∈ config.stringLeaves) ∧
      (first.log <+: second.log ∨ second.log <+: first.log) ∧
      (∀ value, first.outcome = .ok value → second.log <+: first.log) ∧
      ∀ value value', first.outcome = .ok value →
        second.outcome = .ok value' → first.log = second.log := by
  intro first second
  have begins : Logged.Follows (configTemplates config rawFields) first :=
    follows_renderConfig config one oneInputs
  have follows : Logged.Follows (configTemplates config rawFields) second :=
    follows_renderConfig config other otherInputs
  refine ⟨?_, begins.comparable follows, ?_, ?_⟩
  · intro text member
    exact mem_configTemplates (begins.log.subset member)
  · intro value returned
    exact begins.prefix_of_ok follows returned
  · intro value value' returned returned'
    rw [begins.complete value returned, follows.complete value' returned']

end MiryadCore.Workflow.Template
