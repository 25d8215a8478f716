import MiryadCore.Json.Value
import MiryadCore.Rest.Core

/-!
# Tools on resources

A tool names a resource and an operation on it.  What the operation answers is
serialised, then rendered by the template of the output format.  The
deserialisers and the template engine are those of other crates.
-/

namespace MiryadCore.Mcp

open Rest
open Users (DbErr)

inductive McpError where
  | forbidden
  | notFound
  | database (cause : DbErr)
  | render (text : String)
  | invalidParams (text : String)
  | unknownTool (name : String)
  | internal (text : String)
  | application (cause : HookError)
  | methodNotFound (name : String)
  | parseError
  | invalidRequest
  deriving DecidableEq, Repr

namespace McpError

def rpcCode : McpError → ℤ
  | application _ => -32000
  | forbidden => -32001
  | notFound => -32002
  | unknownTool _ | methodNotFound _ => -32601
  | invalidRequest => -32600
  | invalidParams _ => -32602
  | parseError => -32700
  | database _ | render _ | internal _ => -32603

/-- What the client is told: nothing of the cause of an internal error. -/
def wireMessage : McpError → String
  | forbidden => "MRD-MCP-001: forbidden"
  | notFound => "MRD-MCP-002: resource not found"
  | database _ => "MRD-MCP-003: database error"
  | render _ => "MRD-MCP-004: output rendering error"
  | invalidParams text => "MRD-MCP-005: invalid params: " ++ text
  | unknownTool name => "MRD-MCP-006: unknown tool: " ++ name
  | internal _ => "MRD-MCP-007: internal error"
  | application cause => cause.message
  | methodNotFound name => "MRD-MCP-008: method not found: " ++ name
  | parseError => "MRD-MCP-009: parse error"
  | invalidRequest => "MRD-MCP-010: invalid request"

def data : McpError → Option Value
  | application cause => some (.object
      [("code", (cause.code.map Value.string).getD .null)])
  | _ => none

/-- `From<RestError>` -/
def ofRest : RestError → McpError
  | .notFound => notFound
  | .forbidden => forbidden
  | .database cause => database cause
  | .application cause => application cause
  | .internal text => internal text
  | .invalidInput text => invalidParams text
  | .conflict => internal "MRD-REST-006: conflict"

end McpError

structure RpcError where
  code : ℤ
  message : String
  data : Option Value
  deriving DecidableEq

structure JsonRpcResponse where
  id : Value
  result : Option Value
  error : Option RpcError
  deriving DecidableEq

def JsonRpcResponse.ok (id result : Value) : JsonRpcResponse :=
  { id, result := some result, error := none }

def errorResponse (id : Value) (error : McpError) : JsonRpcResponse :=
  { id, result := none
    error := some { code := error.rpcCode, message := error.wireMessage
                    data := error.data } }

inductive OutputFormat where
  | json
  | yaml
  | markdown
  | custom (template : String)
  deriving DecidableEq, Repr

inductive RenderShape where
  | record
  | list
  deriving DecidableEq, Repr

def DEFAULT_JSON_TEMPLATE : String :=
  "\x7b\x7bjson_to_str this format=\"json_pretty\"\x7d\x7d"

def DEFAULT_YAML_TEMPLATE : String :=
  "\x7b\x7bjson_to_str this format=\"yaml\"\x7d\x7d"

def DEFAULT_MARKDOWN_RECORD_TEMPLATE : String :=
  "\x7b\x7b#each this\x7d\x7d\n- **\x7b\x7b@key\x7d\x7d**: \x7b\x7bthis\x7d\x7d\n\x7b\x7b/each\x7d\x7d\n"

def DEFAULT_MARKDOWN_LIST_TEMPLATE : String :=
  "\x7b\x7b#each items\x7d\x7d\n- \x7b\x7b#each this\x7d\x7d\x7b\x7b@key\x7d\x7d=\x7b\x7bthis\x7d\x7d \x7b\x7b/each\x7d\x7d\n\x7b\x7b/each\x7d\x7d\n_page \x7b\x7bpage\x7d\x7d/\x7b\x7btotal_pages\x7d\x7d, \x7b\x7btotal_items\x7d\x7d item(s) au total_\n"

def OutputFormat.template : OutputFormat → RenderShape → String
  | custom template, _ => template
  | json, _ => DEFAULT_JSON_TEMPLATE
  | yaml, _ => DEFAULT_YAML_TEMPLATE
  | markdown, .record => DEFAULT_MARKDOWN_RECORD_TEMPLATE
  | markdown, .list => DEFAULT_MARKDOWN_LIST_TEMPLATE

inductive McpOp where
  | list
  | get
  | create
  | update
  | delete
  deriving DecidableEq, Repr

def OPERATIONS : List (String × McpOp) :=
  [("_list", .list), ("_get", .get), ("_create", .create),
    ("_update", .update), ("_delete", .delete)]

def stripSuffix (name suffix : String) : Option String :=
  (List.isSuffixOf? suffix.toList name.toList).map String.ofList

def parseToolName (name : String) : Option (String × McpOp) :=
  OPERATIONS.findSome? fun (suffix, op) =>
    (stripSuffix name suffix).map fun resource => (resource, op)

structure ToolCallParams where
  name : String
  arguments : Value

structure ListParams where
  page : Option ℕ
  perPage : Option ℕ
  filter : Option String

/-- The deserialisers that are derived, and the engine of the templates. -/
structure Crates where
  toolCallParams : Value → Except String ToolCallParams
  listParams : Value → Except String ListParams
  idParams : Value → Except String ℤ
  /-- `to_value` of a page, from its records as they are serialised. -/
  pageValue : PagedResult Value → Value
  render : String → Value → Except String String

/-- A mounted entity, with the serialisation of its rows. -/
structure Entity where
  Column : Type
  decidable : DecidableEq Column
  finite : Fintype Column
  resource : Resource Column
  fromValue : Value → Except String (Model Column)
  toValue : Model Column → Except String Value

attribute [instance] Entity.decidable Entity.finite

/-- The entities have distinct names. -/
structure McpToolRegistry where
  format : OutputFormat
  entities : List Entity
  distinct : (entities.map fun entity =>
    entity.resource.resourceName).Nodup

def McpToolRegistry.new (format : OutputFormat) : McpToolRegistry :=
  { format, entities := [], distinct := List.nodup_nil }

/-- `register`, which panics on a name that is taken. -/
def McpToolRegistry.register (registry : McpToolRegistry) (entity : Entity) :
    Option McpToolRegistry :=
  if fresh : entity.resource.resourceName ∈
      registry.entities.map fun entity => entity.resource.resourceName then
    none
  else
    some {
      format := registry.format
      entities := entity :: registry.entities
      distinct := List.nodup_cons.mpr ⟨fresh, registry.distinct⟩ }

/-- The place of an entity in the registry. -/
abbrev McpToolRegistry.Place (registry : McpToolRegistry) : Type :=
  Fin registry.entities.length

def McpToolRegistry.entity (registry : McpToolRegistry)
    (place : registry.Place) : Entity :=
  registry.entities.get place

def McpToolRegistry.get? (registry : McpToolRegistry) (name : String) :
    Option registry.Place :=
  (List.finRange registry.entities.length).find? fun place =>
    (registry.entity place).resource.resourceName = name

/-- The tables of the entities, next to those of the users. -/
structure Database (registry : McpToolRegistry) where
  users : Users.Session
  tables : (place : registry.Place) →
    Table (registry.entity place).resource.toSchema

namespace Entity

variable (crates : Crates) (entity : Entity)

/-- The code of a call, with the errors of this surface. -/
abbrev Code (α : Type) : Type :=
  Query (Request entity.Column)
    (fun request => Except DbErr request.Reply) McpError α

/-- The `?` on a result of `serde_json::from_value`. -/
def decoded {α : Type} (result : Except String α) : entity.Code α :=
  Query.ofExcept (result.mapError .invalidParams)

/-- The `?` on a result of `serde_json::to_value`. -/
def encoded {α : Type} (result : Except String α) : entity.Code α :=
  Query.ofExcept (result.mapError .render)

/-- The `?` on a function of `rest::core`. -/
def core {α : Type} (query : Api entity.Column α) : entity.Code α :=
  query.mapError .ofRest

/-- `to_value` of a page. -/
def pageToValue (page : PagedResult (Model entity.Column)) :
    Except String Value := do
  let items ← page.items.mapM entity.toValue
  return crates.pageValue { page with items }

/-- `McpEntityImpl::call` -/
def call (op : McpOp) (principal : AuthPrincipal) (params : Value) :
    entity.Code Value := do
  match op with
  | .list =>
      let params ← entity.decoded (crates.listParams params)
      let page ← entity.core (Rest.list entity.resource principal params.page
        params.perPage params.filter)
      entity.encoded (entity.pageToValue crates page)
  | .get =>
      let id ← entity.decoded (crates.idParams params)
      let record ← entity.core (Rest.get entity.resource principal id)
      entity.encoded (entity.toValue record)
  | .create =>
      let body ← entity.decoded (entity.fromValue params)
      let created ← entity.core (Rest.create entity.resource principal body)
      entity.encoded (entity.toValue created)
  | .update =>
      let id ← entity.decoded (crates.idParams params)
      let body ← entity.decoded (entity.fromValue params)
      let updated ←
        entity.core (Rest.update entity.resource principal id body)
      entity.encoded (entity.toValue updated)
  | .delete =>
      let id ← entity.decoded (crates.idParams params)
      entity.core (Rest.delete entity.resource principal id)
      return .null

end Entity

def content (text : String) : Value :=
  .object [("content", .array [.object
    [("text", .string text), ("type", .string "text")]])]

def emptyArguments : Value :=
  .object []

variable (crates : Crates) (registry : McpToolRegistry)

def render (format : OutputFormat) (shape : RenderShape) (data : Value) :
    Except McpError String :=
  (crates.render (format.template shape) data).mapError .render

/-- The answer to a call that an entity has answered. -/
def answered (id : Value) (op : McpOp) :
    Except McpError Value → JsonRpcResponse
  | .error error => errorResponse id error
  | .ok data =>
      if op = .delete then .ok id (content "deleted")
      else
        match render crates registry.format
            (if op = .list then .list else .record) data with
        | .ok text => .ok id (content text)
        | .error error => errorResponse id error

/-- The conditions of the statements on each of the tables. -/
abbrev Circumstances : Type :=
  (place : registry.Place) → ℕ → Conditions (registry.entity place).Column

/-- The call of an entity alone, with the tables after it. -/
def callEntity (circumstances : Circumstances registry)
    (database : Database registry) (place : registry.Place) (op : McpOp)
    (principal : AuthPrincipal) (params : Value) :
    Except McpError Value × Database registry :=
  let (answer, after) := Script.run Rest.exec (circumstances place)
    ((registry.entity place).call crates op principal params)
    { users := database.users, table := database.tables place }
  (answer, { users := after.users
             tables := Function.update database.tables place after.table })

/-- `handle_tools_call`, with the tables after it. -/
def handleToolsCall (circumstances : Circumstances registry)
    (database : Database registry) (principal : AuthPrincipal)
    (id params : Value) : JsonRpcResponse × Database registry :=
  match crates.toolCallParams params with
  | .error text => (errorResponse id (.invalidParams text), database)
  | .ok call =>
      match parseToolName call.name with
      | none => (errorResponse id (.unknownTool call.name), database)
      | some (resourceName, op) =>
          match registry.get? resourceName with
          | none => (errorResponse id (.unknownTool call.name), database)
          | some place =>
              let arguments :=
                if call.arguments = .null then emptyArguments
                else call.arguments
              let (answer, after) := callEntity crates registry circumstances
                database place op principal arguments
              (answered crates registry id op answer, after)

end MiryadCore.Mcp
