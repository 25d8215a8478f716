import MiryadCore.Lymaille.Store

/-!
# The write journal

The functions of `write_journal.rs`.  The key of an operation is the digest of
its content.  What the crate takes from others is `Crates`: the digest, the
text of a database error and the conversion of a number to a float.
-/

namespace MiryadCore.Lymaille

open Users (DbErr)

/-- Functions of other crates. -/
structure Crates (F64 : Type) where
  /-- `hex::encode(Sha256::digest(text))`. -/
  sha256Hex : List Char → String
  /-- `db_text`, the text of an error without the content of a row. -/
  dbText : DbErr → String
  /-- `Number::as_f64`. -/
  asF64 : Number → Option F64

inductive LymailleError where
  | unknownSubject
  | store (text : String)
  deriving DecidableEq, Repr

inductive Op where
  | create
  | update
  | delete
  deriving DecidableEq, Repr

def Op.text : Op → String
  | .create => "create"
  | .update => "update"
  | .delete => "delete"

def maxResultBytes : ℕ := 64 * 1024

/-- `json!(id)` of an `i32` or of its absence. -/
def idValue : Option ℤ → Value
  | none => .null
  | some id =>
      if 0 ≤ id then .number (.posInt (UInt64.ofNat id.toNat))
      else .number (.negInt (Int64.ofInt id))

variable {F64 : Type} {ι : Type} {entities : ι → Entity}

def opKey (crates : Crates F64) (op : Op) (resource : String)
    (id : Option ℤ) (body : Value) : String :=
  crates.sha256Hex (Value.canonical (.object [
    ("body", body),
    ("id", idValue id),
    ("op", .string op.text),
    ("resource", .string resource)]))

def storeError (crates : Crates F64) (error : DbErr) : LymailleError :=
  .store (crates.dbText error)

def replay (crates : Crates F64) (scope : WriteScope) (opKey : String) :
    Code entities LymailleError (Option Value) :=
  request (storeError crates) (.selectResult scope opKey)

/-- A result that is too long is refused, not cut. -/
def record (crates : Crates F64) (scope : WriteScope) (opKey : String)
    (result : Value) : Code entities LymailleError Unit :=
  if Value.textBytes result.text > maxResultBytes then
    Query.fail (.store "journalized result exceeds 64 KiB")
  else
    request (storeError crates) (.insertResult { scope, opKey, result })

end MiryadCore.Lymaille
