import MiryadCore.Mcp.Handler
import Mathlib.Data.List.Infix

/-!
# The names of the tools

Each entity declares five tools, named by its resource and an operation.  No
suffix of an operation ends another one, so that a name is read as the resource
and the operation that it was made of.
-/

namespace MiryadCore.Mcp

open Rest

structure ToolDeclaration where
  name : String
  description : String
  inputSchema : Value

/-- The suffix of an operation in `OPERATIONS`. -/
def McpOp.suffix : McpOp → String
  | .list => "_list"
  | .get => "_get"
  | .create => "_create"
  | .update => "_update"
  | .delete => "_delete"

/-- The name of the tool of an operation on a resource. -/
def toolName (resource : String) (op : McpOp) : String :=
  resource ++ op.suffix

def integerSchema : Value :=
  .object [("type", .string "integer")]

def idSchema : Value :=
  .object [("properties", .object [("id", integerSchema)]),
    ("required", .array [.string "id"]), ("type", .string "object")]

def listSchema : Value :=
  .object [("properties", .object [
      ("filter", .object [("type", .string "string")]),
      ("page", integerSchema), ("per_page", integerSchema)]),
    ("type", .string "object")]

/-- The five tools of a resource. -/
def resourceTools (name : String) : List ToolDeclaration :=
  [{ name := toolName name .list
     description := "List " ++ name ++ ", paginated"
     inputSchema := listSchema },
   { name := toolName name .get
     description := "Get a single " ++ name ++ " by id"
     inputSchema := idSchema },
   { name := toolName name .create
     description := "Create a new " ++ name
     inputSchema := .object [("type", .string "object")] },
   { name := toolName name .update
     description := "Update an existing " ++ name ++ " by id"
     inputSchema := idSchema },
   { name := toolName name .delete
     description := "Delete a " ++ name ++ " by id"
     inputSchema := idSchema }]

section Registry

variable (registry : McpToolRegistry)

def resourceNames : List String :=
  registry.entities.map fun entity => entity.resource.resourceName

/-- The tools of all the resources, by their names. -/
def tools : List ToolDeclaration :=
  ((resourceNames registry).mergeSort fun name other => name ≤ other).flatMap
    resourceTools

def ToolDeclaration.toValue (tool : ToolDeclaration) : Value :=
  .object [("description", .string tool.description),
    ("inputSchema", tool.inputSchema), ("name", .string tool.name)]

def handleToolsList (id : Value) : JsonRpcResponse :=
  .ok id (.object [("tools",
    .array ((tools registry).map ToolDeclaration.toValue))])

/-- The names that `tools/list` answers. -/
def toolNames : List String :=
  (tools registry).map ToolDeclaration.name

/-- `parse_tool_name`, then the entity of the resource. -/
def lookup (name : String) : Option (registry.Place × McpOp) := do
  let (resourceName, op) ← parseToolName name
  let place ← registry.get? resourceName
  return (place, op)

end Registry

section Suffixes

variable {name resource suffix : String} {op other : McpOp}

theorem stripSuffix_eq_some :
    stripSuffix name suffix = some resource ↔ name = resource ++ suffix := by
  unfold stripSuffix
  constructor
  · intro stripped
    obtain ⟨before, found, same⟩ := Option.map_eq_some_iff.mp stripped
    have whole := List.isSuffixOf?_eq_some_iff_append_eq.mp found
    apply String.toList_inj.mp
    rw [← whole, ← same]
    simp
  · rintro rfl
    have found : List.isSuffixOf? suffix.toList (resource ++ suffix).toList =
        some resource.toList :=
      List.isSuffixOf?_eq_some_iff_append_eq.mpr (by simp)
    rw [found]
    simp

theorem suffix_inj (ends : op.suffix.toList <:+ other.suffix.toList) :
    op = other := by
  revert ends
  cases op
  all_goals
    cases other
    all_goals decide

theorem toolName_inj {resource' : String}
    (same : toolName resource op = toolName resource' other) :
    resource = resource' ∧ op = other := by
  have texts := congrArg String.toList same
  simp only [toolName, String.toList_append] at texts
  have mine : op.suffix.toList <:+
      resource'.toList ++ other.suffix.toList :=
    ⟨resource.toList, texts⟩
  have theirs : other.suffix.toList <:+
      resource'.toList ++ other.suffix.toList :=
    List.suffix_append _ _
  have equal : op = other := by
    rcases List.suffix_or_suffix_of_suffix mine theirs with ends | ends
    · exact suffix_inj ends
    · exact (suffix_inj ends).symm
  subst equal
  exact ⟨String.toList_inj.mp (List.append_cancel_right texts), rfl⟩

theorem suffix_of_operations {suffix : String} {op : McpOp}
    (listed : (suffix, op) ∈ OPERATIONS) : suffix = op.suffix := by
  revert listed
  unfold OPERATIONS
  simp only [List.mem_cons, List.not_mem_nil, or_false, Prod.mk.injEq]
  rintro (⟨rfl, rfl⟩ | ⟨rfl, rfl⟩ | ⟨rfl, rfl⟩ | ⟨rfl, rfl⟩ | ⟨rfl, rfl⟩)
  all_goals rfl

theorem operations_of_op (op : McpOp) : (op.suffix, op) ∈ OPERATIONS := by
  cases op
  all_goals decide

/-- A name is read as what it was made of. -/
theorem parseToolName_eq_some :
    parseToolName name = some (resource, op) ↔ name = toolName resource op := by
  have sound : ∀ {resource op}, parseToolName name = some (resource, op) →
      name = toolName resource op := by
    intro resource op parsed
    obtain ⟨⟨suffix, op'⟩, listed, stripped⟩ :=
      List.exists_of_findSome?_eq_some parsed
    obtain ⟨before, found, same⟩ := Option.map_eq_some_iff.mp stripped
    obtain ⟨rfl, rfl⟩ := Prod.mk.inj same
    rw [stripSuffix_eq_some.mp found, suffix_of_operations listed]
    rfl
  refine ⟨sound, ?_⟩
  intro made
  have read : (parseToolName name).isSome = true := by
    unfold parseToolName
    rw [List.findSome?_isSome_iff]
    refine ⟨_, operations_of_op op, ?_⟩
    dsimp only
    rw [stripSuffix_eq_some.mpr made]
    rfl
  obtain ⟨⟨resource', op'⟩, parsed⟩ := Option.isSome_iff_exists.mp read
  obtain ⟨rfl, rfl⟩ := toolName_inj (made.symm.trans (sound parsed))
  exact parsed

end Suffixes

section Lookup

variable {registry : McpToolRegistry} {name : String}

theorem get?_eq_some {place : registry.Place} :
    registry.get? name = some place ↔
      (registry.entity place).resource.resourceName = name := by
  unfold McpToolRegistry.get?
  constructor
  · intro found
    have named := List.find?_some found
    rw [decide_eq_true_eq] at named
    exact named
  · intro named
    have present : ((List.finRange registry.entities.length).find? fun place =>
        (registry.entity place).resource.resourceName = name).isSome := by
      rw [List.find?_isSome]
      exact ⟨place, List.mem_finRange place, decide_eq_true named⟩
    obtain ⟨place', found⟩ := Option.isSome_iff_exists.mp present
    have named' := List.find?_some found
    rw [decide_eq_true_eq] at named'
    have same := registry.distinct
    rw [List.nodup_iff_injective_get] at same
    have places : place'.val = place.val := by
      have images : (resourceNames registry).get
            ⟨place'.val, by simp [resourceNames]⟩ =
          (resourceNames registry).get
            ⟨place.val, by simp [resourceNames]⟩ := by
        simp only [resourceNames, List.get_eq_getElem, List.getElem_map]
        exact named'.trans named.symm
      have indices := same images
      exact Fin.mk.inj indices
    rw [found, Fin.ext places]

theorem lookup_eq_some {place : registry.Place} {op : McpOp} :
    lookup registry name = some (place, op) ↔
      name = toolName (registry.entity place).resource.resourceName op := by
  simp only [lookup, Option.bind_eq_bind, Option.bind_eq_some_iff,
    Option.pure_def, Option.some.injEq, Prod.mk.injEq, Prod.exists]
  constructor
  · rintro ⟨resource, op', parsed, place', found, rfl, rfl⟩
    rw [get?_eq_some.mp found]
    exact parseToolName_eq_some.mp parsed
  · intro made
    exact ⟨_, op, parseToolName_eq_some.mpr made, place,
      get?_eq_some.mpr rfl, rfl, rfl⟩

theorem names_resourceTools (resource : String) :
    (resourceTools resource).map ToolDeclaration.name =
      [.list, .get, .create, .update, .delete].map (toolName resource) :=
  rfl

theorem mem_names_resourceTools {resource : String} :
    name ∈ (resourceTools resource).map ToolDeclaration.name ↔
      ∃ op, name = toolName resource op := by
  rw [names_resourceTools, List.mem_map]
  constructor
  · rintro ⟨op, _, rfl⟩
    exact ⟨op, rfl⟩
  · rintro ⟨op, rfl⟩
    refine ⟨op, ?_, rfl⟩
    cases op
    all_goals decide

theorem nodup_resourceTools (resource : String) :
    ((resourceTools resource).map ToolDeclaration.name).Nodup := by
  rw [names_resourceTools]
  apply List.Nodup.map
  · intro op other same
    exact (toolName_inj same).2
  · decide

theorem toolNames_eq : toolNames registry =
    ((resourceNames registry).mergeSort fun name other => name ≤ other).flatMap
      fun resource => (resourceTools resource).map ToolDeclaration.name :=
  List.map_flatMap

theorem mem_toolNames : name ∈ toolNames registry ↔
    ∃ resource ∈ resourceNames registry, ∃ op, name = toolName resource op := by
  rw [toolNames_eq, List.mem_flatMap]
  simp only [List.mem_mergeSort, mem_names_resourceTools]

theorem nodup_toolNames : (toolNames registry).Nodup := by
  have sorted : ((resourceNames registry).mergeSort
      fun name other => name ≤ other).Nodup :=
    (List.mergeSort_perm _ _).nodup_iff.mpr registry.distinct
  rw [toolNames_eq, List.nodup_flatMap]
  refine ⟨fun resource _ => nodup_resourceTools resource, ?_⟩
  apply List.Pairwise.imp _ sorted
  intro resource other apart name mine theirs
  obtain ⟨op, rfl⟩ := mem_names_resourceTools.mp mine
  obtain ⟨op', same⟩ := mem_names_resourceTools.mp theirs
  exact apart (toolName_inj same).1

theorem mem_toolNames_iff : name ∈ toolNames registry ↔
    ∃ place op, lookup registry name = some (place, op) := by
  rw [mem_toolNames]
  simp only [lookup_eq_some, resourceNames, List.mem_map]
  constructor
  · rintro ⟨_, ⟨entity, member, rfl⟩, op, rfl⟩
    obtain ⟨place, rfl⟩ := List.get_of_mem member
    exact ⟨place, op, rfl⟩
  · rintro ⟨place, op, rfl⟩
    exact ⟨_, ⟨_, List.get_mem _ place, rfl⟩, op, rfl⟩

end Lookup

section Calls

variable {crates : Crates} {registry : McpToolRegistry}
  {circumstances : Circumstances registry} {database : Database registry}
  {principal : AuthPrincipal} {id params : Value} {call : ToolCallParams}

theorem handleToolsCall_of_lookup (decoded : crates.toolCallParams params =
      .ok call) {place : registry.Place} {op : McpOp}
    (found : lookup registry call.name = some (place, op)) :
    handleToolsCall crates registry circumstances database principal id params =
      (let (answer, after) := callEntity crates registry circumstances database
          place op principal
          (if call.arguments = .null then emptyArguments else call.arguments)
       (answered crates registry id op answer, after)) := by
  have made := lookup_eq_some.mp found
  have entity : registry.get?
      (registry.entity place).resource.resourceName = some place :=
    get?_eq_some.mpr rfl
  unfold handleToolsCall
  simp only [decoded, parseToolName_eq_some.mpr made, entity]

theorem handleToolsCall_of_none (decoded : crates.toolCallParams params =
      .ok call) (unknown : lookup registry call.name = none) :
    handleToolsCall crates registry circumstances database principal id params =
      (errorResponse id (.unknownTool call.name), database) := by
  unfold handleToolsCall
  simp only [decoded]
  cases parsed : parseToolName call.name with
  | none => rfl
  | some tool =>
      obtain ⟨resource, op⟩ := tool
      dsimp only
      cases found : registry.get? resource with
      | none => rfl
      | some place =>
          simp [lookup, parsed, found] at unknown

end Calls

/-- The names of the tools of a registry, and what they stand for. -/
structure Unambiguous (crates : Crates) (registry : McpToolRegistry) :
    Prop where
  listed : ∀ id, (handleToolsList registry id).result = some (.object
    [("tools", .array ((tools registry).map ToolDeclaration.toValue))])
  distinct : ((tools registry).map ToolDeclaration.name).Nodup
  declared : ∀ name, (∃ tool ∈ tools registry, tool.name = name) ↔
    ∃ place op, lookup registry name = some (place, op)
  resolved : ∀ name place op, lookup registry name = some (place, op) ↔
    name = toolName (registry.entity place).resource.resourceName op
  called : ∀ {circumstances : Circumstances registry} {database principal id}
      {params call place op}, crates.toolCallParams params = .ok call →
    call.name = toolName (registry.entity place).resource.resourceName op →
    handleToolsCall crates registry circumstances database principal id params =
      (let (answer, after) := callEntity crates registry circumstances database
          place op principal
          (if call.arguments = .null then emptyArguments else call.arguments)
       (answered crates registry id op answer, after))
  unknown : ∀ {circumstances : Circumstances registry} {database principal id}
      {params call}, crates.toolCallParams params = .ok call →
    (¬ ∃ tool ∈ tools registry, tool.name = call.name) →
    handleToolsCall crates registry circumstances database principal id params =
      (errorResponse id (.unknownTool call.name), database)

/-- Whatever the names of its resources, each tool of a registry is named once,
and a call finds the tool of its name. -/
theorem tools_unambiguous (crates : Crates) (registry : McpToolRegistry) :
    Unambiguous crates registry := by
  have declared : ∀ name, (∃ tool ∈ tools registry, tool.name = name) ↔
      ∃ place op, lookup registry name = some (place, op) := by
    intro name
    rw [← mem_toolNames_iff, toolNames, List.mem_map]
  constructor
  case listed => exact fun id => rfl
  case distinct => exact nodup_toolNames
  case declared => exact declared
  case resolved => exact fun name place op => lookup_eq_some
  case called =>
    intro circumstances database principal id params call place op decoded named
    exact handleToolsCall_of_lookup decoded (lookup_eq_some.mpr named)
  case unknown =>
    intro circumstances database principal id params call decoded absent
    apply handleToolsCall_of_none decoded
    rw [declared] at absent
    cases found : lookup registry call.name with
    | none => rfl
    | some tool => exact (absent ⟨tool.1, tool.2, found⟩).elim

end MiryadCore.Mcp
