import MiryadCore.Control.KeyedTable
import MiryadCore.Interactive.Manager

/-!
# The table of the stored sessions

A row belongs to a subject and an identifier.  Every save writes its state, and
the columns that are told by the state; the context is stamped apart.
-/

namespace MiryadCore.Interactive

/-- The columns of `miryad_lymaille_sessions` that are not the key. -/
structure SessionRow (stored : Type) where
  kind : String
  state : stored
  updatedAt : ℕ
  context : Option String
  deriving DecidableEq, Repr

abbrev Sessions (stored : Type) : Type :=
  KeyedTable (String × SessionId) (SessionRow stored)

/-- `kind_text`. -/
def SessionKind.text : SessionKind → String
  | .work => "work"
  | .config => "config"
  | .sub => "sub"

theorem SessionKind.text_injective : Function.Injective SessionKind.text := by
  intro kind other same
  cases kind <;> cases other <;> first | rfl | exact absurd same (by decide)

namespace Sessions

variable {stored : Type}

/-- The state that `SeaSessionStore::load` finds. -/
def load (subject : String) (id : SessionId) (sessions : Sessions stored) :
    Option stored :=
  (sessions.find (subject, id)).map SessionRow.state

/-- `SeaSessionStore::save`. -/
def save (subject : String) (id : SessionId) (kind : SessionKind)
    (state : stored) (now : ℕ) (sessions : Sessions stored) :
    Sessions stored :=
  sessions.upsert (subject, id)
    { kind := kind.text, state, updatedAt := now, context := none }
    fun row => { row with kind := kind.text, state, updatedAt := now }

/-- The statement of `stamp_context`. -/
def stampContext (subject : String) (id : SessionId) (context : String)
    (sessions : Sessions stored) : Sessions stored :=
  sessions.modify (subject, id) fun row => { row with context := some context }

def readContext (subject : String) (id : SessionId)
    (sessions : Sessions stored) : Option String :=
  (sessions.find (subject, id)).bind SessionRow.context

end Sessions

end MiryadCore.Interactive
