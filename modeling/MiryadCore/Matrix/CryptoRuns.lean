import MiryadCore.Matrix.BackupFlags
import MiryadCore.Matrix.CryptoReplies

/-!
# The stores of all the accounts

Clients of the stores call them beside each other, and the requests of their
calls come in any order.  The record of an account explains what its client is
answered, also when some requests fail, and when all stops at any moment and
starts again.
-/

namespace MiryadCore.Matrix.Crypto

open Columns
open Users (DbErr)

variable {Content Sealed α : Type}

inductive StoreCall (Content : Type) where
  | write (call : WriteCall Content)
  | read (call : ReadCall)

namespace StoreCall

@[reducible]
def Reply : StoreCall Content → Type
  | .write _ => Unit
  | .read call => call.Reply Content

abbrev Result (call : StoreCall Content) : Type :=
  Except StoreError call.Reply

variable (store : CryptoStore Content Sealed) (sdk : Sdk Content)
  (fromPickle : InboundPickle Content →
    Except String (InboundGroupSession Content))

def code : (call : StoreCall Content) → StoreCode Sealed call.Reply
  | .write call => call.code store sdk
  | .read call => call.code store sdk fromPickle

/-- What a call does to the record of its account: a call that fails does
nothing. -/
inductive Steps (faults : DbErr → Prop) : Record Content Sealed →
    (call : StoreCall Content) → call.Result → Record Content Sealed →
    Prop where
  | written (record : Record Content Sealed) (call : WriteCall Content) :
      Steps faults record (.write call) (.ok ()) (call.apply record)
  | refused {record : Record Content Sealed} {call : WriteCall Content}
      {error : StoreError} :
      Excused store faults (call.apply record) error →
      Steps faults record (.write call) (.error error) record
  | answered {record : Record Content Sealed} {call : ReadCall}
      {result : Except StoreError (call.Reply Content)} :
      record.Right sdk fromPickle call result →
      Steps faults record (.read call) result record
  | failed {record : Record Content Sealed} {call : ReadCall}
      {error : StoreError} : Faulty faults error →
      Steps faults record (.read call) (.error error) record

end StoreCall

section Calls

variable [DecidableEq Sealed] (store : CryptoStore Content Sealed)
  (faults : DbErr → Prop) (sdk : Sdk Content)

theorem saves_call (call : WriteCall Content) :
    Saves store faults (call.code store sdk)
      fun record => call.apply record := by
  cases call with
  | saveChanges changes => exact saves_changes store faults sdk changes
  | savePendingChanges changes => exact saves_pending store faults changes
  | saveInboundGroupSessions sessions backedUpToVersion =>
      exact saves_inbound store faults sessions backedUpToVersion
  | markInboundGroupSessionsAsBackedUp roomAndSessionIds =>
      exact saves_marks store faults roomAndSessionIds
  | resetBackupState => exact saves_reset store faults
  | saveTrackedUsers users => exact saves_trackedUsers store faults users
  | setCustomValue key value => exact saves_custom store faults key value
  | removeCustomValue key => exact saves_delete store faults .customValues key
  | deleteDehydratedDevicePickleKey =>
      exact saves_delete store faults (.slot .dehydratedDevicePickleKey) ()
  | deleteOutgoingSecretRequests requestId =>
      exact saves_delete store faults (.of .secretRequests) requestId
  | deleteSecretsFromInbox secretName =>
      exact saves_clear store faults secretName

/-- Each call is a step of the record. -/
theorem meets_call (fromPickle : InboundPickle Content →
      Except String (InboundGroupSession Content))
    (record : Record Content Sealed) (call : StoreCall Content)
    (shared : Shared Sealed) (stored : Stored store record shared) :
    Script.Meets (fun conditions : Conditions Sealed faults =>
        serveTo store.accountKey conditions.val)
      (pact.rely store.accountKey) (pact.guar store.accountKey)
      (call.code store sdk fromPickle)
      (fun result after => ∃ record',
        StoreCall.Steps store sdk fromPickle faults record call result
          record' ∧ Stored store record' after)
      shared := by
  cases call with
  | write call =>
      apply Script.Meets.mono (saves_call store faults sdk call _ _ stored)
      intro result after ends
      cases result with
      | ok value => exact ⟨_, .written record call, ends⟩
      | error error => exact ⟨record, .refused ends.1, ends.2⟩
  | read call =>
      apply Script.Meets.mono
        (answers_call store faults record sdk fromPickle call _ stored)
      rintro result after ⟨stored, right | ⟨error, faulty, rfl⟩⟩
      · exact ⟨record, .answered right, stored⟩
      · exact ⟨record, .failed faulty, stored⟩

end Calls

def Record.empty : Record Content Sealed :=
  { maps := fun _ _ => none, inbox := fun _ => [] }

def Shared.empty : Shared Sealed :=
  { database := ReadCommitted.Store.empty, holder := fun _ => none }

section Empty

variable [DecidableEq Sealed] {store : CryptoStore Content Sealed}

theorem sound_of_rows {rows : AList fun _ : Key (Value Sealed) =>
      Row (Value Sealed)}
    (keyed : ∀ {key row}, rows.lookup key = some row → Keyed schema key row) :
    Sound { database := { ReadCommitted.Store.empty with rows }
            holder := fun _ => none } where
  keyed := keyed
  written := by
    intro tx key row written
    cases written
  held := by
    intro tx key row written
    cases written
  fresh := fun _ => rfl

theorem stored_empty : Stored store Record.empty Shared.empty where
  sound := by
    apply sound_of_rows
    intro key row there
    cases there
  holds :=
    { keeps := by
        intro drawer
        have none : ∀ index, Record.drawers
            (Record.empty : Record Content Sealed) drawer index = none := by
          intro index
          cases drawer <;> rfl
        refine ⟨?_, fun _ => rfl, ?_⟩
        · intro index held is
          rw [none] at is
          cases is
        · intro key row there
          cases there
      keyed := by
        intro key row there
        cases there }
  idle := fun _ _ => rfl

end Empty

/-- What calls a store, and goes on as it is answered. -/
abbrev Client (Content α : Type) : Type :=
  Script (StoreCall Content) StoreCall.Result α

section Clients

variable (ciphers : String → Cipher Content Sealed) (sdk : Sdk Content)
  (fromPickle : InboundPickle Content →
    Except String (InboundGroupSession Content))

/-- The store of an account. -/
def storeOf (accountKey : String) : CryptoStore Content Sealed :=
  { accountKey, cipher := ciphers accountKey }

/-- The clients of all the accounts, at the beginning. -/
def beside (clients : String → Client Content α) (shared : Shared Sealed) :
    Parties String (Request Sealed) Answer (Shared Sealed) α :=
  { shared
    scripts := fun accountKey => (clients accountKey).expand fun call =>
      call.code (storeOf ciphers accountKey) sdk fromPickle }

variable [DecidableEq Sealed]

/-- What the database does for each account. -/
def serveEach (faults : DbErr → Prop) (accountKey : String) :
    Script.Service (Request Sealed) Answer (Conditions Sealed faults)
      (Shared Sealed) :=
  fun conditions => serveTo accountKey conditions.val

/-- The record of an account explains what its client is answered. -/
def Explained (faults : DbErr → Prop) (accountKey : String)
    (client : Client Content α) (before : Record Content Sealed) (value : α)
    (after : Record Content Sealed) : Prop :=
  client.Plays (StoreCall.Steps (storeOf ciphers accountKey) sdk fromPickle
    faults) before value after

variable {ciphers sdk fromPickle} {faults : DbErr → Prop}
  {clients : String → Client Content α}
  {records : String → Record Content Sealed} {shared : Shared Sealed}

variable (sdk fromPickle faults clients) in
theorem goes_beside (begins : ∀ accountKey,
      Stored (storeOf ciphers accountKey) (records accountKey) shared) :
    pact.Goes (serveEach faults)
      (fun accountKey value after => ∃ record,
        Explained ciphers sdk fromPickle faults accountKey (clients accountKey)
          (records accountKey) value record ∧
        Stored (storeOf ciphers accountKey) record after)
      (beside ciphers sdk fromPickle clients shared) := by
  intro accountKey
  apply Script.Meets.expand (pact.refl accountKey)
  · intro record before after stored between
    exact stored_stable _ _ stored between
  · intro record call before stored
    exact meets_call (storeOf ciphers accountKey) faults sdk fromPickle record
      call before stored
  · exact begins accountKey

/-- Whatever the order of the requests of all the clients, and whichever of
them fail, a client that is done was answered as its record says, and the
database holds the record that it has come to. -/
theorem client_explained (begins : ∀ accountKey,
      Stored (storeOf ciphers accountKey) (records accountKey) shared)
    (moves : List (String × Conditions Sealed faults)) {accountKey : String}
    {value : α}
    (done : ((beside ciphers sdk fromPickle clients shared).run
      (serveEach faults) moves).scripts accountKey = .done value) :
    ∃ record,
      Explained ciphers sdk fromPickle faults accountKey (clients accountKey)
        (records accountKey) value record ∧
      Stored (storeOf ciphers accountKey) record
        ((beside ciphers sdk fromPickle clients shared).run
          (serveEach faults) moves).shared :=
  ((goes_beside sdk fromPickle faults clients begins).run moves).returned done

end Clients

section Beside

open CryptoStore (plainStore plainSdk smooth)

/-- The client tracks a user of its account, and asks for those that it
tracks. -/
def tracking (accountKey : String) :
    Client ℕ (Except StoreError (List TrackedUser)) :=
  .call (.write (.saveTrackedUsers [("@user of " ++ accountKey, true)]))
    fun _ => .call (.read .loadTrackedUsers) .done

/-- A request succeeds. -/
def calm : Conditions (Plain ℕ) fun _ => False where
  val := smooth
  property := by
    intro cause fault
    cases fault

/-- Two clients take turns. -/
def turns : List (String × Conditions (Plain ℕ) fun _ => False) :=
  ["@one", "@other", "@one", "@other", "@other", "@one", "@one"].map
    fun accountKey => (accountKey, calm)

theorem client_explained_tracking :
    ∃ record,
      Explained (fun _ => plainStore.cipher) plainSdk
        (fun _ => .error "corrupt") (fun _ => False) "@one" (tracking "@one")
        Record.empty
        (.ok [{ userId := "@user of @one", dirty := true }]) record ∧
      Stored (storeOf (fun _ => plainStore.cipher) "@one") record
        ((beside (fun _ => plainStore.cipher) plainSdk
          (fun _ => .error "corrupt") tracking Shared.empty).run
            (serveEach fun _ => False) turns).shared := by
  have begins : ∀ accountKey,
      Stored (storeOf (fun _ => plainStore.cipher) accountKey) Record.empty
        Shared.empty := fun _ => stored_empty
  exact client_explained begins turns rfl

end Beside

/-- The database when all its transactions are lost. -/
def Shared.restarted (shared : Shared Sealed) : Shared Sealed :=
  { database := { ReadCommitted.Store.empty with rows := shared.database.rows }
    holder := fun _ => none }

/-- Clients of all the accounts, and their requests until all stops. -/
structure Epoch (Content Sealed α : Type) where
  clients : String → Client Content α
  moves : List (String × Conditions Sealed fun _ => True)

section Epochs

variable [DecidableEq Sealed] {store : CryptoStore Content Sealed}
  {record : Record Content Sealed} {shared : Shared Sealed}

theorem Stored.restarted {earlier : Shared Sealed}
    (stored : Stored store record shared)
    (same : shared.database.rows = earlier.database.rows) :
    Stored store record earlier.restarted := by
  have holds := stored.holds
  rw [same] at holds
  refine ⟨sound_of_rows ?_, holds, fun _ _ => rfl⟩
  rw [← same]
  exact stored.sound.keyed

variable (ciphers : String → Cipher Content Sealed) (sdk : Sdk Content)
  (fromPickle : InboundPickle Content →
    Except String (InboundGroupSession Content))

/-- What is left when the epoch is over. -/
def Epoch.leaves (epoch : Epoch Content Sealed α) (shared : Shared Sealed) :
    Shared Sealed :=
  ((beside ciphers sdk fromPickle epoch.clients shared).run
    (serveEach fun _ => True) epoch.moves).shared.restarted

/-- The records of an account from epoch to epoch: those of its clients, as if
the requests that were never made had failed. -/
inductive Lived (accountKey : String) : List (Epoch Content Sealed α) →
    Record Content Sealed → Record Content Sealed → Prop where
  | nil (record : Record Content Sealed) : Lived accountKey [] record record
  | cons {epoch : Epoch Content Sealed α}
      {epochs : List (Epoch Content Sealed α)} {value : α}
      {before between after : Record Content Sealed} :
      Explained ciphers sdk fromPickle (fun _ => True) accountKey
        (epoch.clients accountKey) before value between →
      Lived accountKey epochs between after →
      Lived accountKey (epoch :: epochs) before after

variable {ciphers sdk fromPickle}

/-- A request fails. -/
def stop : Conditions Sealed fun _ => True :=
  ⟨{ fault := some refused, shuffle := fun rows => ⟨rows, .refl rows⟩ },
    fun _ _ => trivial⟩

theorem rows_stop (accountKey : String) (shared : Shared Sealed)
    (asked : Request Sealed) :
    (serveEach (fun _ => True) accountKey stop shared asked).2.database.rows =
      shared.database.rows := by
  cases asked <;> rfl

variable (sdk fromPickle) in
theorem epoch_explained {records : String → Record Content Sealed}
    (begins : ∀ accountKey,
      Stored (storeOf ciphers accountKey) (records accountKey) shared)
    (epoch : Epoch Content Sealed α) (accountKey : String) :
    ∃ value record,
      Explained ciphers sdk fromPickle (fun _ => True) accountKey
        (epoch.clients accountKey) (records accountKey) value record ∧
      Stored (storeOf ciphers accountKey) record
        (epoch.leaves ciphers sdk fromPickle shared) := by
  have goes := (goes_beside sdk fromPickle (fun _ => True) epoch.clients
    begins).run epoch.moves
  have rows : ∀ (shared : Shared Sealed) (asked : Request Sealed),
      (serveEach (fun _ => True) accountKey stop shared asked).2.database.rows =
        shared.database.rows := rows_stop accountKey
  obtain ⟨moves, value, done, same⟩ := Parties.exists_end
    (serveEach fun _ => True) (fun shared => shared.database.rows) rows _ _ rfl
  obtain ⟨record, explained, stored⟩ := (goes.run moves).returned done
  exact ⟨value, record, explained, stored.restarted same⟩

theorem epochs_from {records : String → Record Content Sealed}
    (begins : ∀ accountKey,
      Stored (storeOf ciphers accountKey) (records accountKey) shared)
    (epochs : List (Epoch Content Sealed α)) (accountKey : String) :
    ∃ record,
      Lived ciphers sdk fromPickle accountKey epochs (records accountKey)
        record ∧
      Stored (storeOf ciphers accountKey) record
        (epochs.foldl (fun shared epoch =>
          epoch.leaves ciphers sdk fromPickle shared) shared) := by
  induction epochs generalizing records shared with
  | nil => exact ⟨_, .nil _, begins accountKey⟩
  | cons epoch epochs induction =>
      choose values records' explained stored using
        epoch_explained sdk fromPickle begins epoch
      obtain ⟨record, lived, stored⟩ := induction stored
      exact ⟨record, .cons (explained accountKey) lived, stored⟩

/-- Whatever the clients, the order of their requests, their failures and the
moments at which all stops, the tables hold for each account a record that its
clients explain: no call is ever kept in part. -/
theorem epochs_explained (epochs : List (Epoch Content Sealed α))
    (accountKey : String) :
    ∃ record,
      Lived ciphers sdk fromPickle accountKey epochs Record.empty record ∧
      Stored (storeOf ciphers accountKey) record
        (epochs.foldl (fun shared epoch =>
          epoch.leaves ciphers sdk fromPickle shared) Shared.empty) := by
  have begins : ∀ accountKey,
      Stored (storeOf ciphers accountKey) Record.empty Shared.empty :=
    fun _ => stored_empty
  exact epochs_from begins epochs accountKey

end Epochs

end MiryadCore.Matrix.Crypto
