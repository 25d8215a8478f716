import Mathlib.Data.Int.Notation
import MiryadCore.Interactive.Event

/-!
# Identifiers and callers

The kind of an identifier is told by its prefix alone; who may write it
follows from the kind and from the rights of the caller.
-/

namespace MiryadCore.Interactive

/-- Who makes a call, as the database has it at that instant. -/
structure CallerPrincipal where
  userId : ℤ
  subject : String
  isAdmin : Bool
  deriving DecidableEq, Repr

inductive IdKind where
  | catalog
  | private_
  | host
  deriving DecidableEq, Repr

/-- A byte of an identifier: a letter, a digit or an underscore. -/
def identifierChar (char : Char) : Bool :=
  char.isAlphanum || char == '_'

def classify (id : String) : Except LymailleError IdKind :=
  if id.isEmpty || !id.toList.all identifierChar then
    .error (.invalidDefinition "invalid identifier")
  else
    match id.toList with
    | 'G' :: '_' :: _ => .ok .catalog
    | 'H' :: '_' :: _ => .ok .host
    | 'g' :: '_' :: _ => .error (.reservedPrefix id)
    | 'h' :: '_' :: _ => .error (.reservedPrefix id)
    | _ => .ok .private_

def checkWrite (caller : CallerPrincipal) (id : String) :
    Except LymailleError IdKind := do
  match ← classify id with
  | .host => .error (.forbidden "host identifiers are not writable")
  | .catalog =>
      if caller.isAdmin then return .catalog
      else .error (.forbidden "catalog write requires admin")
  | .private_ => return .private_

/-- The modules that a definition grants are ones that its owner may use. -/
def checkGrants (caller : CallerPrincipal) (granted adminOnly : List String) :
    Except LymailleError Unit :=
  if caller.isAdmin then .ok ()
  else
    match granted.find? fun name => name ∈ adminOnly with
    | some name => .error (.forbidden ("module reserved to admins: " ++ name))
    | none => .ok ()

end MiryadCore.Interactive
