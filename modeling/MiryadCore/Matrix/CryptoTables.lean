import MiryadCore.Control.Cabinets
import MiryadCore.Matrix.CryptoRecord
import MiryadCore.Matrix.Kv

/-!
# Where the tables hold the records

Each part of a record is a map in one of the tables, at keys of the account.
What is looked up is hashed, and what is kept is sealed.
-/

namespace MiryadCore.Matrix.Crypto

open Columns

variable {Content Sealed : Type}

/-- What the tables hold: the parts of a record, and its inbox. -/
inductive Drawer where
  | map (part : Part)
  | inbox
  deriving DecidableEq, Repr

namespace Slot

def key : Slot → String
  | .account => CryptoStore.KEY_ACCOUNT
  | .identity => CryptoStore.KEY_IDENTITY
  | .backupVersion => CryptoStore.KEY_BACKUP_VERSION
  | .backupDecryptionKey => CryptoStore.KEY_BACKUP_DECRYPTION_KEY
  | .dehydratedDevicePickleKey => CryptoStore.KEY_DEHYDRATED_PICKLE_KEY
  | .nextBatchToken => CryptoStore.KEY_NEXT_BATCH

def plain : (slot : Slot) → slot.Held Content → Plain Content
  | .account => .account
  | .identity => .identity
  | .backupVersion => .text
  | .backupDecryptionKey => .backupKey
  | .dehydratedDevicePickleKey => .dehydratedKey
  | .nextBatchToken => .text

end Slot

namespace Kind

def table : Kind → String
  | .sessions => OLM_TABLE
  | .inboundGroupSessions => INBOUND_TABLE
  | .outboundGroupSessions => OUTBOUND_TABLE
  | .withheldSessionInfo => WITHHELD_TABLE
  | .messageHashes => MESSAGE_HASHES_TABLE
  | .secretRequests => SECRET_REQUESTS_TABLE
  | .identities => IDENTITIES_TABLE
  | .devices => DEVICES_TABLE
  | .trackedUsers => TRACKED_TABLE
  | .roomSettings => ROOM_SETTINGS_TABLE
  | .receivedRoomKeyBundles => ROOM_KEY_BUNDLES_TABLE
  | .roomsPendingKeyBundle => PENDING_BUNDLES_TABLE
  | .downloadedRoomKeys => ROOM_KEYS_DOWNLOADED_TABLE

/-- The columns of the key, the account's apart. -/
def columns : Kind → List String
  | .sessions => ["session_id"]
  | .inboundGroupSessions => ["room_id", "session_id"]
  | .outboundGroupSessions => ["room_id"]
  | .withheldSessionInfo => ["room_id", "session_id"]
  | .messageHashes => ["hash"]
  | .secretRequests => ["request_id"]
  | .identities => ["user_id"]
  | .devices => ["user_id", "device_id"]
  | .trackedUsers => ["user_id"]
  | .roomSettings => ["room_id"]
  | .receivedRoomKeyBundles => ["room_id", "sender_user_id"]
  | .roomsPendingKeyBundle => ["room_id"]
  | .downloadedRoomKeys => ["room_id"]

def others : Kind → List String
  | .sessions => ["sender_key", "payload"]
  | .inboundGroupSessions =>
      ["sender_key", "sender_data_type", "backed_up", "payload"]
  | .secretRequests => ["info_key", "sent_out", "payload"]
  | .trackedUsers => ["dirty", "payload"]
  | .messageHashes | .downloadedRoomKeys => []
  | .outboundGroupSessions | .withheldSessionInfo | .identities | .devices
  | .roomSettings | .receivedRoomKeyBundles | .roomsPendingKeyBundle =>
      ["payload"]

/-- The texts of an index. -/
def texts : (kind : Kind) → kind.Index → List String
  | .inboundGroupSessions, (room, session) => [room, session]
  | .withheldSessionInfo, (room, session) => [room, session]
  | .devices, (user, device) => [user, device]
  | .receivedRoomKeyBundles, (room, sender) => [room, sender]
  | .sessions, text | .outboundGroupSessions, text | .messageHashes, text
  | .secretRequests, text | .identities, text | .trackedUsers, text
  | .roomSettings, text | .roomsPendingKeyBundle, text
  | .downloadedRoomKeys, text => [text]

theorem texts_injective (kind : Kind) : Function.Injective kind.texts := by
  intro one other same
  cases kind <;> simp_all [texts, Prod.ext_iff]

theorem length_texts (kind : Kind) (index : kind.Index) :
    (kind.texts index).length = kind.columns.length := by
  cases kind <;> rfl

/-- The columns that are not sealed. -/
def shown (store : CryptoStore Content Sealed) :
    (kind : Kind) → kind.Held Content → List (Value Sealed)
  | .sessions, session => [store.hashed OLM_TABLE session.senderKey]
  | .inboundGroupSessions, session =>
      [store.hashed INBOUND_TABLE session.senderKey,
        .int session.senderDataType, .flag session.pickle.backedUp]
  | .secretRequests, request =>
      [store.hashed SECRET_REQUESTS_TABLE request.infoKey,
        .flag request.sentOut]
  | .trackedUsers, user => [.flag user.dirty]
  | .messageHashes, _ | .downloadedRoomKeys, _ => []
  | .outboundGroupSessions, _ | .withheldSessionInfo, _ | .identities, _
  | .devices, _ | .roomSettings, _ | .receivedRoomKeyBundles, _
  | .roomsPendingKeyBundle, _ => []

/-- What is sealed in the payload, of the kinds that have one. -/
def plain : (kind : Kind) → kind.Held Content → Option (Plain Content)
  | .sessions, session => some (.olm session.pickle)
  | .inboundGroupSessions, session => some (.inbound session.pickle)
  | .outboundGroupSessions, pickle => some (.outbound pickle)
  | .withheldSessionInfo, entry => some (.withheld entry)
  | .messageHashes, _ => none
  | .secretRequests, request => some (.gossip request)
  | .identities, identity => some (.userIdentity identity)
  | .devices, device => some (.device device)
  | .trackedUsers, user => some (.tracked user)
  | .roomSettings, settings => some (.roomSettings settings)
  | .receivedRoomKeyBundles, bundle => some (.bundle bundle)
  | .roomsPendingKeyBundle, details => some (.pendingBundle details)
  | .downloadedRoomKeys, _ => none

end Kind

namespace CryptoStore

variable (store : CryptoStore Content Sealed)

/-- Opening the blob gives the object. -/
def Seals (plain : Plain Content) (value : Value Sealed) : Prop :=
  ∃ sealed, value = .blob sealed ∧ store.cipher.openSealed sealed = .ok plain

/-- The columns outside of the key, of a thing of a kind. -/
def Cells (kind : Kind) (held : kind.Held Content)
    (values : List (Value Sealed)) : Prop :=
  match kind.plain held with
  | none => values = kind.shown store held
  | some plain => ∃ value, store.Seals plain value ∧
      values = kind.shown store held ++ [value]

/-- A map in the table of the values. -/
@[reducible]
def kvShelf {K V : Type} (text : K → String)
    (injective : Function.Injective text) (holds : V → Value Sealed → Prop) :
    Shelf (Value Sealed) K V where
  table := KV_TABLE
  keys := ["account_key", "key"]
  others := ["value"]
  place k := [store.account, .text (text k)]
  cells v values := ∃ value, holds v value ∧ values = [value]
  mine key := ∃ k, key = [store.account, .text (text k)]
  distinct := by decide
  long _ := rfl
  wide := by
    rintro v values ⟨_, _, rfl⟩
    rfl
  injective := by
    intro one other same
    rw [List.cons.injEq, List.cons.injEq, Value.text.injEq] at same
    exact injective same.2.1
  own k := ⟨k, rfl⟩

theorem hashed_injective (table : String) :
    Function.Injective (store.hashed table) := by
  intro one other same
  exact store.cipher.hash_injective table (Value.text.inj same)

theorem length_of_cells {kind : Kind} {held : kind.Held Content}
    {values : List (Value Sealed)} (cells : store.Cells kind held values) :
    values.length = kind.others.length := by
  unfold Cells at cells
  cases kind with
  | messageHashes | downloadedRoomKeys =>
      rw [cells]
      rfl
  | _ =>
      obtain ⟨_, _, rfl⟩ := cells
      rfl

/-- The map of a kind. -/
@[reducible]
def kindShelf (kind : Kind) :
    Shelf (Value Sealed) kind.Index (kind.Held Content) where
  table := kind.table
  keys := "account_key" :: kind.columns
  others := kind.others
  place index :=
    store.account :: (kind.texts index).map (store.hashed kind.table)
  cells := store.Cells kind
  mine key := key.head? = some store.account
  distinct := by cases kind <;> decide
  long index := by
    rw [List.length_cons, List.length_cons, List.length_map,
      kind.length_texts]
  wide := store.length_of_cells
  injective := by
    intro one other same
    apply kind.texts_injective
    exact (store.hashed_injective kind.table).list_map
      (List.cons.inj same).2
  own _ := rfl

/-- The inbox: where a secret stands is its number. -/
@[reducible]
def inboxShelf : Shelf (Value Sealed) (String × ℕ) String where
  table := SECRETS_INBOX_TABLE
  keys := ["account_key", "secret_name", "seq"]
  others := ["payload"]
  place index := [store.account, store.hashed SECRETS_INBOX_TABLE index.1,
    .int index.2]
  cells secret values := ∃ value, store.Seals (.text secret) value ∧
    values = [value]
  mine key := key.head? = some store.account
  distinct := by decide
  long _ := rfl
  wide := by
    rintro v values ⟨_, _, rfl⟩
    rfl
  injective := by
    rintro ⟨one, i⟩ ⟨other, j⟩ same
    simp only [List.cons.injEq, Value.int.injEq, Int.natCast_inj,
      and_true, true_and] at same
    rw [store.hashed_injective _ same.1, same.2]
  own _ := rfl

theorem custom_injective : Function.Injective fun key : String =>
    CUSTOM_PREFIX ++ key := by
  intro one other same
  have texts := congrArg String.toList same
  rw [String.toList_append, String.toList_append] at texts
  exact String.toList_inj.mp (List.append_cancel_left texts)

@[reducible]
def partShelf : (part : Part) →
    Shelf (Value Sealed) part.Index (part.Held Content Sealed)
  | .cipher =>
      store.kvShelf (fun _ => Kv.CIPHER_KEY) (fun _ _ _ => rfl)
        fun sealed value => value = .blob sealed
  | .slot slot =>
      store.kvShelf (fun _ => slot.key) (fun _ _ _ => rfl)
        fun held => store.Seals (slot.plain held)
  | .customValues =>
      store.kvShelf (CUSTOM_PREFIX ++ ·) custom_injective
        fun value => store.Seals (.bytes value)
  | .of kind => store.kindShelf kind

end CryptoStore

namespace Drawer

@[reducible]
def Index : Drawer → Type
  | .map part => part.Index
  | .inbox => String × ℕ

@[reducible]
def Held (Content Sealed : Type) : Drawer → Type
  | .map part => part.Held Content Sealed
  | .inbox => String

@[reducible]
def shelf (store : CryptoStore Content Sealed) : (drawer : Drawer) →
    Shelf (Value Sealed) drawer.Index (drawer.Held Content Sealed)
  | .map part => store.partShelf part
  | .inbox => store.inboxShelf

end Drawer

/-- The maps of a record, as the tables hold them. -/
def Record.drawers (record : Record Content Sealed) :
    ∀ drawer : Drawer, drawer.Index → Option (drawer.Held Content Sealed)
  | .map part => record.maps part
  | .inbox => fun index => (record.inbox index.1)[index.2]?

/-- The parts whose tables are these. -/
def kindOf (table : String) : Option Drawer :=
  [(OLM_TABLE, Drawer.map (.of .sessions)),
    (INBOUND_TABLE, .map (.of .inboundGroupSessions)),
    (OUTBOUND_TABLE, .map (.of .outboundGroupSessions)),
    (WITHHELD_TABLE, .map (.of .withheldSessionInfo)),
    (MESSAGE_HASHES_TABLE, .map (.of .messageHashes)),
    (SECRET_REQUESTS_TABLE, .map (.of .secretRequests)),
    (IDENTITIES_TABLE, .map (.of .identities)),
    (DEVICES_TABLE, .map (.of .devices)),
    (TRACKED_TABLE, .map (.of .trackedUsers)),
    (ROOM_SETTINGS_TABLE, .map (.of .roomSettings)),
    (ROOM_KEY_BUNDLES_TABLE, .map (.of .receivedRoomKeyBundles)),
    (PENDING_BUNDLES_TABLE, .map (.of .roomsPendingKeyBundle)),
    (ROOM_KEYS_DOWNLOADED_TABLE, .map (.of .downloadedRoomKeys)),
    (SECRETS_INBOX_TABLE, .inbox)].lookup table

/-- The part whose value is at a key. -/
def partOf (key : String) : Option Part :=
  if CryptoStore.CUSTOM_PREFIX.toList.isPrefixOf key.toList then
    some .customValues
  else
    [(Kv.CIPHER_KEY, Part.cipher),
      (CryptoStore.KEY_ACCOUNT, .slot .account),
      (CryptoStore.KEY_IDENTITY, .slot .identity),
      (CryptoStore.KEY_BACKUP_VERSION, .slot .backupVersion),
      (CryptoStore.KEY_BACKUP_DECRYPTION_KEY, .slot .backupDecryptionKey),
      (CryptoStore.KEY_DEHYDRATED_PICKLE_KEY, .slot .dehydratedDevicePickleKey),
      (CryptoStore.KEY_NEXT_BATCH, .slot .nextBatchToken)].lookup key

section Cabinet

variable (store : CryptoStore Content Sealed)

theorem partOf_key : partOf Kv.CIPHER_KEY = some .cipher ∧
    ∀ slot : Slot, partOf slot.key = some (.slot slot) := by
  constructor
  · decide
  · intro slot
    cases slot <;> decide

theorem mine_account {drawer : Drawer} {key : List (Value Sealed)}
    (mine : (drawer.shelf store).mine key) :
    key.head? = some store.account := by
  match drawer with
  | .inbox => exact mine
  | .map (.of kind) => exact mine
  | .map .cipher | .map (.slot _) | .map .customValues =>
      obtain ⟨_, rfl⟩ := mine
      rfl

/-- A table holds values, or things of one kind. -/
theorem drawer_of_table (drawer : Drawer) :
    (kindOf (drawer.shelf store).table = some drawer) ∨
    (drawer.shelf store).table = KV_TABLE ∧ ∃ part, drawer = .map part ∧
      ∀ key, (drawer.shelf store).mine key → ∃ text,
        key = [store.account, .text text] ∧ partOf text = some part := by
  match drawer with
  | .inbox => exact Or.inl rfl
  | .map (.of kind) => exact Or.inl (by cases kind <;> rfl)
  | .map .cipher =>
      refine Or.inr ⟨rfl, _, rfl, ?_⟩
      rintro _ ⟨_, rfl⟩
      exact ⟨_, rfl, partOf_key.1⟩
  | .map (.slot slot) =>
      refine Or.inr ⟨rfl, _, rfl, ?_⟩
      rintro _ ⟨_, rfl⟩
      exact ⟨_, rfl, partOf_key.2 slot⟩
  | .map .customValues =>
      refine Or.inr ⟨rfl, _, rfl, ?_⟩
      rintro _ ⟨key, rfl⟩
      refine ⟨_, rfl, if_pos ?_⟩
      rw [String.toList_append, List.isPrefixOf_iff_prefix]
      exact List.prefix_append _ _

theorem drawer_apart {one other : Drawer} {key : List (Value Sealed)}
    (different : one ≠ other)
    (table : (one.shelf store).table = (other.shelf store).table)
    (mine : (one.shelf store).mine key) : ¬ (other.shelf store).mine key := by
  intro theirs
  have kv : kindOf KV_TABLE = none := by decide
  rcases drawer_of_table store one with kind | ⟨table₁, part₁, rfl, text₁⟩
  · rcases drawer_of_table store other with kind' | ⟨table₂, _, _, _⟩
    · rw [table, kind', Option.some.injEq] at kind
      exact different kind.symm
    · rw [table, table₂, kv] at kind
      cases kind
  · rcases drawer_of_table store other with kind' | ⟨_, part₂, rfl, text₂⟩
    · rw [← table, table₁, kv] at kind'
      cases kind'
    · obtain ⟨text, rfl, is⟩ := text₁ _ mine
      obtain ⟨text', same, is'⟩ := text₂ _ theirs
      rw [List.cons.injEq, List.cons.injEq, Value.text.injEq] at same
      rw [← same.2.1, is, Option.some.injEq] at is'
      exact different (congrArg Drawer.map is')

/-- The drawers of an account. -/
@[reducible]
def CryptoStore.cabinet : Cabinet (Value Sealed) Drawer where
  schema := schema
  Index drawer := drawer.Index
  Content drawer := drawer.Held Content Sealed
  shelf drawer := drawer.shelf store
  known := by
    intro drawer
    match drawer with
    | .inbox => rfl
    | .map (.of kind) => cases kind <;> rfl
    | .map .cipher | .map (.slot _) | .map .customValues => rfl
  apart := drawer_apart store

end Cabinet

section Selections

variable [DecidableEq Sealed] {K V : Type}
  {shelf : Shelf (Value Sealed) K V} {map : K → Option V}
  {chosen : K → V → Prop} {selection : Selection Sealed}
  {rows : AList fun _ : Key (Value Sealed) => Row (Value Sealed)}

variable (selection chosen) in
/-- The rows of a selection are those of the entries that it chooses, in an
order that the database decides. -/
theorem exists_answer (keeps : shelf.Keeps map rows)
    (table : selection.table = shelf.table) (whole : selection.past = none)
    (mine : ∀ {key row}, rows.lookup (shelf.table, key) = some row →
      row.Matches selection.conds → shelf.mine key)
    (fits : ∀ {k v row}, shelf.Entry k v row →
      (row.Matches selection.conds ↔ chosen k v))
    (circumstances : Circumstances Sealed) :
    ∃ entries order, Listing map chosen entries ∧
      List.Forall₂ (fun entry row => shelf.Entry entry.1 entry.2 row) entries
        order ∧
      selection.answer circumstances rows =
        (selection.limited (selection.ordered order)).map
          (Row.project selection.columns) := by
  obtain ⟨entries, listing, related⟩ := keeps.listing mine fits
  have found : selection.found rows =
      (matching rows shelf.table selection.conds).map Prod.snd := by
    unfold Selection.found
    rw [table]
    apply List.filter_eq_self.mpr
    intro row _
    unfold Selection.isPast
    rw [whole]
  rw [← found] at related
  have permuted := (circumstances.shuffle (selection.found rows)).property
  obtain ⟨entries', same, reordered⟩ :=
    List.perm_comp_forall₂ permuted related.flip
  exact ⟨entries', _, listing.perm reordered, same.flip, rfl⟩

end Selections

section Kinds

theorem head_of_schema {table : String} {primaryKey : List String}
    (is : schema table = some primaryKey) :
    primaryKey.head? = some "account_key" := by
  have all : ∀ entry ∈ primaryKeys, entry.2.head? = some "account_key" := by
    decide
  obtain ⟨earlier, later, same, _⟩ := List.lookup_eq_some_iff.mp is
  apply all (table, primaryKey)
  rw [same]
  exact List.mem_append_right _ List.mem_cons_self

theorem head_of_account {key : Key (Value Sealed)} {row : Row (Value Sealed)}
    {value : Value Sealed} (keyed : Keyed schema key row)
    (account : row "account_key" = some value) : key.2.head? = some value := by
  obtain ⟨table, values⟩ := key
  obtain ⟨primaryKey, is, has⟩ := keyed
  have first := head_of_schema is
  cases Row.key_eq_some.mp has with
  | nil => cases first
  | cons begins more =>
      obtain rfl := Option.some.inj first
      rw [account] at begins
      exact begins.symm

variable [DecidableEq Sealed] {store : CryptoStore Content Sealed}
  {record : Record Content Sealed} {kind : Kind}
  {chosen : kind.Index → kind.Held Content → Prop}
  {selection : Selection Sealed} {conds : List (String × Value Sealed)}
  {rows : AList fun _ : Key (Value Sealed) => Row (Value Sealed)}

variable (kind selection) in
theorem kind_answer (holds : store.cabinet.Holds record.drawers rows)
    (table : selection.table = kind.table)
    (account : selection.conds = ("account_key", store.account) :: conds)
    (whole : selection.past = none)
    (fits : ∀ {k v row}, (store.kindShelf kind).Entry k v row →
      (row.Matches selection.conds ↔ chosen k v))
    (circumstances : Circumstances Sealed) :
    ∃ entries order, Listing (record.maps (.of kind)) chosen entries ∧
      List.Forall₂ (fun entry row =>
        (store.kindShelf kind).Entry entry.1 entry.2 row) entries order ∧
      selection.answer circumstances rows =
        (selection.limited (selection.ordered order)).map
          (Row.project selection.columns) := by
  have keeps := holds.keeps (Drawer.map (.of kind))
  apply exists_answer chosen selection keeps table whole
  · intro key row there matched
    apply head_of_account (holds.keyed there)
    rw [account] at matched
    exact matched _ List.mem_cons_self
  · exact fits

end Kinds

end MiryadCore.Matrix.Crypto
