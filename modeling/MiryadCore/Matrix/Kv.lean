import Mathlib.Data.List.AList
import MiryadCore.Control.History
import MiryadCore.Matrix.Leases

/-!
# The cipher of an account

The row of the cipher is read, inserted unless there is one, then read again,
with no transaction.  The ciphers, what they seal and what they are exported to
are those of another crate.
-/

namespace MiryadCore.Matrix

open Users (DbErr)

/-- `matrix_sdk_store_encryption::Error`, with its text -/
inductive CipherError where
  | json (text : String)
  | serialization (text : String)
  | other (text : String)
  deriving DecidableEq, Repr

def CipherError.text : CipherError → String
  | json text | serialization text | other text => text

/-- `Kv` -/
structure Kv (Cipher : Type) where
  accountKey : String
  cipher : Cipher
  deriving DecidableEq, Repr

namespace Kv

/-- `StoreCipher`; the salt and the nonce are random. -/
structure Crates (Cipher Payload Bytes : Type) where
  /-- The ciphers that `new` makes, in turn. -/
  fresh : ℕ → Cipher
  exportCipher (salt : ℕ) (passphrase : String) (cipher : Cipher) :
    Except CipherError Bytes
  importCipher (passphrase : String) (exported : Bytes) :
    Except CipherError Cipher
  encryptValue (cipher : Cipher) (nonce : ℕ) (payload : Payload) :
    Except CipherError Bytes
  decryptValue (cipher : Cipher) (bytes : Bytes) : Except CipherError Payload

variable {Cipher Payload Bytes : Type}

/-- What its documentation promises. -/
structure Crates.Documented (crates : Crates Cipher Payload Bytes) : Prop where
  fresh_injective : Function.Injective crates.fresh
  import_exported : ∀ {salt passphrase cipher exported},
    crates.exportCipher salt passphrase cipher = .ok exported →
    ∀ tried imported, crates.importCipher tried exported = .ok imported ↔
      tried = passphrase ∧ imported = cipher
  decrypt_encrypted : ∀ {cipher nonce payload bytes},
    crates.encryptValue cipher nonce payload = .ok bytes →
    ∀ other opened, crates.decryptValue other bytes = .ok opened ↔
      other = cipher ∧ opened = payload

def CIPHER_KEY : String := "cipher"

/-- The rows of `miryad_matrix_kv` by their account and key, and the number of
ciphers made so far. -/
structure Table (Bytes : Type) where
  made : ℕ
  rows : AList fun _ : String × String => Bytes

inductive OnConflict where
  | doNothing
  | updateValue
  deriving DecidableEq

inductive Request (Bytes : Type) where
  | newCipher
  | salt
  | select (accountKey key : String)
  | insert (accountKey key : String) (value : Bytes) (conflict : OnConflict)
  | delete (accountKey key : String)

@[reducible]
def Request.Reply (Cipher : Type) : Request Bytes → Type
  | .newCipher => Except CipherError Cipher
  | .salt => ℕ
  | .select _ _ => Except DbErr (Option Bytes)
  | .insert _ _ _ _ | .delete _ _ => Except DbErr Unit

/-- Whether a statement, or the source of random bytes, fails. -/
structure Conditions where
  fault : Option DbErr
  failure : Option CipherError
  salt : ℕ

namespace Table

def insert (table : Table Bytes) (accountKey key : String) (value : Bytes) :
    OnConflict → Table Bytes
  | .updateValue =>
      { table with rows := table.rows.insert (accountKey, key) value }
  | .doNothing =>
      match table.rows.lookup (accountKey, key) with
      | some _ => table
      | none => { table with rows := table.rows.insert (accountKey, key) value }

def delete (table : Table Bytes) (accountKey key : String) : Table Bytes :=
  { table with rows := table.rows.erase (accountKey, key) }

/-- The row of the cipher of an account. -/
def cipherRow (table : Table Bytes) (accountKey : String) : Option Bytes :=
  table.rows.lookup (accountKey, CIPHER_KEY)

end Table

/-- One request. -/
def exec (crates : Crates Cipher Payload Bytes) :
    Script.Service (Request Bytes) (Request.Reply Cipher) Conditions
      (Table Bytes) :=
  fun conditions table request =>
    match request with
    | .newCipher =>
        match conditions.failure with
        | some error => (.error error, table)
        | none =>
            (.ok (crates.fresh table.made),
              { table with made := table.made + 1 })
    | .salt => (conditions.salt, table)
    | .select accountKey key =>
        match conditions.fault with
        | some error => (.error error, table)
        | none => (.ok (table.rows.lookup (accountKey, key)), table)
    | .insert accountKey key value conflict =>
        match conditions.fault with
        | some error => (.error error, table)
        | none => (.ok (), table.insert accountKey key value conflict)
    | .delete accountKey key =>
        match conditions.fault with
        | some error => (.error error, table)
        | none => (.ok (), table.delete accountKey key)

abbrev Code (Cipher Bytes α : Type) : Type :=
  Query (Request Bytes) (Request.Reply Cipher) StoreError α

def cipherError (error : CipherError) : StoreError :=
  .cipher error.text

/-- `import_cipher` -/
def importCipher (crates : Crates Cipher Payload Bytes) (passphrase : String)
    (exported : Bytes) : Except StoreError Cipher :=
  (crates.importCipher passphrase exported).mapError cipherError

def selectValue (accountKey key : String) :
    Code Cipher Bytes (Option Bytes) :=
  Script.call (.select accountKey key) fun row =>
    Script.done (row.mapError .db)

def insertRow (accountKey key : String) (value : Bytes)
    (conflict : OnConflict) : Code Cipher Bytes Unit :=
  Script.call (.insert accountKey key value conflict) fun result =>
    Script.done (result.mapError .db)

/-- `StoreCipher::new` -/
def newCipher : Code Cipher Bytes Cipher :=
  Script.call .newCipher fun cipher => Script.done (cipher.mapError cipherError)

/-- `export` -/
def exportCipher (crates : Crates Cipher Payload Bytes) (passphrase : String)
    (cipher : Cipher) : Code Cipher Bytes Bytes :=
  Script.call .salt fun salt =>
    Script.done ((crates.exportCipher salt passphrase cipher).mapError
      cipherError)

/-- `Kv::open` where no row was found; where another call inserted one in between,
the row that won. -/
def createCipher (crates : Crates Cipher Payload Bytes)
    (accountKey passphrase : String) : Code Cipher Bytes Cipher := do
  let fresh ← newCipher
  let exported ← exportCipher crates passphrase fresh
  insertRow accountKey CIPHER_KEY exported .doNothing
  match ← selectValue accountKey CIPHER_KEY with
  | some winner => Query.ofExcept (importCipher crates passphrase winner)
  | none => Query.fail (.corrupt "ligne cipher absente après insertion")

/-- The cipher of `Kv::open`. -/
def openCipher (crates : Crates Cipher Payload Bytes)
    (accountKey passphrase : String) : Code Cipher Bytes Cipher := do
  match ← selectValue accountKey CIPHER_KEY with
  | some exported => Query.ofExcept (importCipher crates passphrase exported)
  | none => createCipher crates accountKey passphrase

/-- `Kv::open` -/
def openKv (crates : Crates Cipher Payload Bytes)
    (accountKey passphrase : String) : Code Cipher Bytes (Kv Cipher) := do
  let cipher ← openCipher crates accountKey passphrase
  return { accountKey, cipher }

def get (kv : Kv Cipher) (key : String) : Code Cipher Bytes (Option Bytes) :=
  selectValue kv.accountKey key

def put (kv : Kv Cipher) (key : String) (value : Bytes) :
    Code Cipher Bytes Unit :=
  insertRow kv.accountKey key value .updateValue

def delete (kv : Kv Cipher) (key : String) : Code Cipher Bytes Unit :=
  Script.call (.delete kv.accountKey key) fun result =>
    Script.done (result.mapError .db)

/-- `Kv::seal` -/
def sealValue (crates : Crates Cipher Payload Bytes) (kv : Kv Cipher)
    (nonce : ℕ) (payload : Payload) : Except StoreError Bytes :=
  (crates.encryptValue kv.cipher nonce payload).mapError fun error =>
    match error with
    | .json text | .serialization text => .serialization text
    | .other text => .cipher text

def openSealed (crates : Crates Cipher Payload Bytes) (kv : Kv Cipher)
    (bytes : Bytes) : Except StoreError Payload :=
  (crates.decryptValue kv.cipher bytes).mapError fun error =>
    .corrupt error.text

/-- A call; what is written is not the row of a cipher. -/
inductive Call (Cipher Bytes : Type) where
  | openKv (accountKey passphrase : String)
  | get (kv : Kv Cipher) (key : String)
  | put (kv : Kv Cipher) (key : String) (value : Bytes)
      (apart : key ≠ CIPHER_KEY)
  | delete (kv : Kv Cipher) (key : String) (apart : key ≠ CIPHER_KEY)

inductive Answer (Cipher Bytes : Type) where
  | opened (result : Except StoreError (Kv Cipher))
  | got (result : Except StoreError (Option Bytes))
  | written (result : Except StoreError Unit)

def program (crates : Crates Cipher Payload Bytes) :
    Call Cipher Bytes →
      Script (Request Bytes) (Request.Reply Cipher) (Answer Cipher Bytes)
  | .openKv accountKey passphrase =>
      Script.bind (openKv crates accountKey passphrase) fun result =>
        .done (.opened result)
  | .get kv key => Script.bind (kv.get key) fun result => .done (.got result)
  | .put kv key value _ =>
      Script.bind (kv.put key value) fun result => .done (.written result)
  | .delete kv key _ =>
      Script.bind (kv.delete key) fun result => .done (.written result)

/-- Calls of any stores, on one database. -/
def system (crates : Crates Cipher Payload Bytes) :
    System (Call Cipher Bytes) (Request Bytes) (Request.Reply Cipher)
      Conditions (Table Bytes) (Answer Cipher Bytes) where
  program := program crates
  exec := exec crates
  ready := fun _ _ => true
  spawns := fun _ => none

@[simp]
theorem system_exec (crates : Crates Cipher Payload Bytes) :
    (system crates).exec = exec crates :=
  rfl

section Requests

variable {table : Table Bytes} {accountKey other key : String} {value : Bytes}

theorem Table.cipherRow_insert (apart : key ≠ CIPHER_KEY)
    (conflict : OnConflict) :
    (table.insert accountKey key value conflict).cipherRow other =
      table.cipherRow other := by
  have elsewhere : ((other, CIPHER_KEY) : String × String) ≠
      (accountKey, key) :=
    fun same => apart (Prod.mk.inj same).2.symm
  cases conflict with
  | updateValue => exact AList.lookup_insert_ne elsewhere
  | doNothing =>
      unfold Table.insert
      cases table.rows.lookup (accountKey, key) with
      | some row => rfl
      | none => exact AList.lookup_insert_ne elsewhere

theorem Table.made_insert (conflict : OnConflict) :
    (table.insert accountKey key value conflict).made = table.made := by
  cases conflict with
  | updateValue => rfl
  | doNothing =>
      unfold Table.insert
      cases table.rows.lookup (accountKey, key) with
      | some row => rfl
      | none => rfl

theorem Table.cipherRow_delete (apart : key ≠ CIPHER_KEY) :
    (table.delete accountKey key).cipherRow other = table.cipherRow other :=
  AList.lookup_erase_ne fun same => apart (Prod.mk.inj same).2.symm

theorem Table.insert_cipher_cases :
    ((table.insert accountKey CIPHER_KEY value .doNothing) = table ∧
      ∃ row, table.cipherRow accountKey = some row) ∨
    (table.cipherRow accountKey = none ∧
      ∀ other, (table.insert accountKey CIPHER_KEY value .doNothing).cipherRow
        other = if other = accountKey then some value
          else table.cipherRow other) := by
  unfold Table.insert Table.cipherRow
  cases found : table.rows.lookup (accountKey, CIPHER_KEY) with
  | some row => exact Or.inl ⟨rfl, row, rfl⟩
  | none =>
      refine Or.inr ⟨rfl, fun other => ?_⟩
      by_cases same : other = accountKey
      · subst same
        rw [if_pos rfl]
        exact AList.lookup_insert _
      · rw [if_neg same]
        exact AList.lookup_insert_ne fun equal => same (Prod.mk.inj equal).1

end Requests

end Kv

end MiryadCore.Matrix
