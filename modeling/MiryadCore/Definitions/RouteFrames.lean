import MiryadCore.Definitions.UpdateFrame
import MiryadCore.Rest.RouteSafety

/-!
# The rows of the definitions

The routes of an entity run beside each other.  An update leaves the name of
its row, and the instant of creation where the hook brings it back; so a row
keeps them in every later state, whatever the operations do.
-/

namespace MiryadCore.Definitions

open Rest (AuthPrincipal Conditions Framed Operation Resource Routed Spares
  SeaValue Table routed)
open Rest.Table (overwrite)

section Hooks

variable {Column : Type} [DecidableEq Column] {resource : Resource Column}
  {identifiant createdAt : Column} {conserve : Bool}

/-- The name of a row, and its instant of creation where that is kept. -/
def fixed (identifiant createdAt : Column) (conserve : Bool) : List Column :=
  identifiant :: if conserve then [createdAt] else []

omit [DecidableEq Column] in
theorem Guards.spares
    (guards : Guards resource identifiant createdAt conserve) :
    Spares (fixed identifiant createdAt conserve) resource.hooks := by
  intro body existing principal hooked accepted column member
  obtain ⟨named, dated⟩ := guards.hooked accepted
  rcases List.mem_cons.mp member with rfl | created
  · exact named
  · cases conserve with
    | false => cases created
    | true =>
        obtain rfl := List.mem_singleton.mp created
        rw [overwrite, dated, if_pos rfl]

end Hooks

variable {library : Library} {mounted : SeaValue} {entity : Entity}

namespace Entity

theorem owner_apart (library : Library) (now : SeaValue) (entity : Entity) :
    (entity.resource library now).ownerColumn ≠
      some (entity.resource library now).primaryKey := by
  cases entity
  all_goals exact nofun

def framed (library : Library) (mounted : SeaValue) (entity : Entity) :
    Framed entity.Column where
  toResource := entity.resource library mounted
  frame := fixed entity.identifiant entity.createdAt entity.conserve
  apart := entity.owner_apart library mounted

/-- An operation on an entity, at the instant that its hook reads. -/
structure Call (entity : Entity) where
  now : SeaValue
  principal : AuthPrincipal
  operation : Operation entity.Column

def route (library : Library) (mounted : SeaValue) (entity : Entity)
    (call : Call entity) : Routed (entity.framed library mounted) where
  principal := call.principal
  operation := call.operation
  hooks := (entity.resource library call.now).hooks
  spares := (entity.guards library call.now).spares

end Entity

/-- In every run of the routes of an entity, the id of a row is not drawn
again, and the row has in every later state the creator, the owner and the
name that it had, and the instant of creation where the hook keeps it. -/
theorem definitions_persist (library : Library) (mounted : SeaValue)
    (entity : Entity) (db : Users.Database)
    (table : Table (entity.framed library mounted).toSchema)
    (moves more : List (Move entity.Call (Conditions entity.Column))) :
    let schema := (entity.framed library mounted).toSchema
    let before := (routed (entity.route library mounted) db table
      moves).shared.table
    let after := (routed (entity.route library mounted) db table
      (moves ++ more)).shared.table
    (∀ row ∈ before.rows, schema.keyOf row.values ∈ before.used) ∧
    (∀ id ∈ before.used, id ∈ after.used) ∧
    ∀ row ∈ after.rows, schema.keyOf row.values ∈ before.used →
      ∃ old ∈ before.rows, schema.keyOf old.values = schema.keyOf row.values ∧
        row.creator = old.creator ∧
        row.values entity.identifiant = old.values entity.identifiant ∧
        (∀ column, (entity.resource library mounted).ownerColumn = some column →
          row.values column = old.values column) ∧
        (entity.conserve = true →
          row.values entity.createdAt = old.values entity.createdAt) := by
  intro schema before after
  have persists : Rest.Persists before after :=
    Rest.persists_run moves more
  refine ⟨(Rest.sound_run moves).used, persists.used, ?_⟩
  intro row member used
  obtain ⟨old, held, key, creator, kept⟩ := persists.origin row member used
  refine ⟨old, held, key, creator, ?_, ?_, ?_⟩
  · exact kept entity.identifiant (Or.inl List.mem_cons_self)
  · exact fun column owner => kept column (Or.inr owner)
  · intro conserved
    refine kept entity.createdAt (Or.inl (List.mem_cons_of_mem _ ?_))
    rw [conserved, if_pos rfl]
    exact List.mem_singleton_self _

end MiryadCore.Definitions
