import MiryadCore.Control.Logged
import MiryadCore.Workflow.Step

/-!
# Central rendering of the `config` of a step

The Handlebars engine and the JSON parser come from outside the crate and are
parameters.  The log of a rendering lists the strings that it hands to the
engine.
-/

namespace MiryadCore.Workflow.Template

/-- What the crate calls outside itself: `HandleBars::render` with the text of
its error, and `serde_json::from_str` with the text of its own. -/
structure Services where
  render : String → Value → Except String String
  fromStr : String → Except String Value

abbrev Rendering := Logged StepError String

def maxRenderedBytes : ℕ := 1048576

/-- `{"inputs": …, "run": …, "vars": …}`, the data that a template may read. -/
def context (run : RunInfo) (inputs : Table) : Value :=
  .object
    [("inputs", .object inputs.toMembers),
      ("run", .object
        [("depth", .number (.posInt run.depth.toUInt64)),
          ("run_key", .string run.runKey),
          ("step_id", .string run.stepId)]),
      ("vars", run.vars)]

/-- `str::replace` of one character. -/
def replace (char : Char) (replacement : String) (text : List Char) :
    List Char :=
  text.flatMap fun other =>
    if other = char then replacement.toList else [other]

/-- JSON pointer of a member: `~`, then `/`, are escaped. -/
def childPointer (pointer key : String) : String :=
  pointer ++ "/" ++
    String.ofList (replace '/' "~1" (replace '~' "~0" key.toList))

def invalid (pointer detail : String) : StepError :=
  { message := "template invalide à " ++ pointer ++ ": " ++ detail
    retryable := false }

/-- `template.contains` of a double opening brace. -/
def hasOpening : List Char → Bool
  | '\x7b' :: '\x7b' :: _ => true
  | _ :: rest => hasOpening rest
  | [] => false

def renderString (hbs : Services) (template : String) (ctx : Value)
    (pointer : String) : Rendering String := do
  if hasOpening template.toList then
    let rendered ← Logged.emit template
      ((hbs.render template ctx).mapError (invalid pointer))
    if rendered.utf8ByteSize > maxRenderedBytes then
      Logged.fail
        { message := "rendu trop long à " ++ pointer, retryable := false }
    else
      return rendered
  else
    return template

/-- The two special objects, which have a single member. -/
inductive Marker where
  | raw (value : Value)
  | json (value : Value)

def marker (members : Members) : Option Marker :=
  if members.length = 1 then
    match members.lookup "$raw" with
    | some raw => some (.raw raw)
    | none => (members.lookup "$json").map .json
  else
    none

/-- The string under `$json` is rendered, then parsed. -/
def renderJson (hbs : Services) (ctx : Value) (pointer : String) :
    Value → Rendering Value
  | .string template => do
      let rendered ← renderString hbs template ctx pointer
      match hbs.fromStr rendered with
      | .ok value => return value
      | .error error => Logged.fail (invalid pointer error)
  | _ => Logged.fail (invalid pointer "$json doit porter une chaîne")

mutual

def renderValue (hbs : Services) (ctx : Value) (pointer : String) :
    Value → Rendering Value
  | .string template => .string <$> renderString hbs template ctx pointer
  | .array items => .array <$> renderItems hbs ctx pointer 0 items
  | .object members =>
      match marker members with
      | some (.raw raw) => return raw
      | some (.json json) => renderJson hbs ctx pointer json
      | none => .object <$> renderMembers hbs ctx pointer members
  | .number value => return .number value
  | .bool value => return .bool value
  | .null => return .null

def renderItems (hbs : Services) (ctx : Value) (pointer : String) (i : ℕ) :
    List Value → Rendering (List Value)
  | [] => return []
  | item :: items => do
      let item ← renderValue hbs ctx (pointer ++ "/" ++ toString i) item
      let items ← renderItems hbs ctx pointer (i + 1) items
      return item :: items

def renderMembers (hbs : Services) (ctx : Value) (pointer : String) :
    List (String × Value) → Rendering Members
  | [] => return []
  | (key, item) :: members => do
      let item ← renderValue hbs ctx (childPointer pointer key) item
      let members ← renderMembers hbs ctx pointer members
      return (key, item) :: members

end

/-- A member of the top level: `rawFields` are copied. -/
def renderField (hbs : Services) (ctx : Value) (rawFields : List String)
    (key : String) (item : Value) : Rendering Value :=
  if key ∈ rawFields then
    return item
  else
    renderValue hbs ctx (childPointer "" key) item

def renderFields (hbs : Services) (ctx : Value) (rawFields : List String) :
    Members → Rendering Members
  | [] => return []
  | (key, item) :: members => do
      let rendered ← renderField hbs ctx rawFields key item
      let members ← renderFields hbs ctx rawFields members
      return (key, rendered) :: members

def renderConfig (hbs : Services) (config : Value) (run : RunInfo)
    (inputs : Table) (rawFields : List String) : Rendering Value :=
  let ctx := context run inputs
  match config with
  | .object members =>
      if members.length = 1 ∧
          ((members.lookup "$raw").isSome ∨ (members.lookup "$json").isSome)
      then
        renderValue hbs ctx "" (.object members)
      else
        .object <$> renderFields hbs ctx rawFields members
  | config => renderValue hbs ctx "" config

end MiryadCore.Workflow.Template
