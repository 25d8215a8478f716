import Mathlib.Logic.Function.Basic
import MiryadCore.Matrix.CryptoChanges

/-!
# The record of an account

What the crypto store of an account is for: plain maps, one for each kind of
thing that it keeps, and an inbox in which secrets stand as they arrived.
-/

namespace MiryadCore.Matrix.Crypto

variable {Content Sealed : Type}

/-- The values that an account has one of. -/
inductive Slot where
  | account
  | identity
  | backupVersion
  | backupDecryptionKey
  | dehydratedDevicePickleKey
  | nextBatchToken
  deriving DecidableEq, Repr

@[reducible]
def Slot.Held (Content : Type) : Slot → Type
  | .backupVersion | .nextBatchToken => String
  | .account | .identity | .backupDecryptionKey
  | .dehydratedDevicePickleKey => Content

/-- The kinds of things that have a table of their own. -/
inductive Kind where
  | sessions
  | inboundGroupSessions
  | outboundGroupSessions
  | withheldSessionInfo
  | messageHashes
  | secretRequests
  | identities
  | devices
  | trackedUsers
  | roomSettings
  | receivedRoomKeyBundles
  | roomsPendingKeyBundle
  | downloadedRoomKeys
  deriving DecidableEq, Repr

@[reducible]
def Kind.Held (Content : Type) : Kind → Type
  | .sessions => OlmSession Content
  | .inboundGroupSessions => InboundGroupSession Content
  | .secretRequests => GossipRequest Content
  | .identities => UserIdentityData Content
  | .devices => DeviceData Content
  | .trackedUsers => TrackedUser
  | .receivedRoomKeyBundles => StoredRoomKeyBundleData Content
  | .messageHashes | .downloadedRoomKeys => Unit
  | .outboundGroupSessions | .withheldSessionInfo | .roomSettings
  | .roomsPendingKeyBundle => Content

/-- What a thing of a kind is found by. -/
@[reducible]
def Kind.Index : Kind → Type
  | .inboundGroupSessions | .withheldSessionInfo | .devices
  | .receivedRoomKeyBundles => String × String
  | .sessions | .outboundGroupSessions | .messageHashes | .secretRequests
  | .identities | .trackedUsers | .roomSettings | .roomsPendingKeyBundle
  | .downloadedRoomKeys => String

instance : (kind : Kind) → DecidableEq kind.Index
  | .inboundGroupSessions | .withheldSessionInfo | .devices
  | .receivedRoomKeyBundles => inferInstanceAs (DecidableEq (String × String))
  | .sessions | .outboundGroupSessions | .messageHashes | .secretRequests
  | .identities | .trackedUsers | .roomSettings | .roomsPendingKeyBundle
  | .downloadedRoomKeys => inferInstanceAs (DecidableEq String)

inductive Part where
  | cipher
  | slot (slot : Slot)
  | customValues
  | of (kind : Kind)
  deriving DecidableEq, Repr

@[reducible]
def Part.Index : Part → Type
  | .cipher => Unit
  | .slot _ => Unit
  | .customValues => String
  | .of kind => kind.Index

instance : (part : Part) → DecidableEq part.Index
  | .cipher => inferInstanceAs (DecidableEq Unit)
  | .slot _ => inferInstanceAs (DecidableEq Unit)
  | .customValues => inferInstanceAs (DecidableEq String)
  | .of kind => inferInstanceAs (DecidableEq kind.Index)

@[reducible]
def Part.Held (Content Sealed : Type) : Part → Type
  | .cipher => Sealed
  | .slot which => which.Held Content
  | .customValues => List UInt8
  | .of kind => kind.Held Content

/-- The session with another mark. -/
def InboundGroupSession.marked (session : InboundGroupSession Content)
    (backedUp : Bool) : InboundGroupSession Content :=
  { session with pickle := { session.pickle with backedUp } }

/-- The record of an account. -/
structure Record (Content Sealed : Type) where
  maps : ∀ part : Part, part.Index → Option (part.Held Content Sealed)
  inbox : String → List String

namespace Record

variable (record : Record Content Sealed)

def set (part : Part) (index : part.Index)
    (held : Option (part.Held Content Sealed)) : Record Content Sealed :=
  { record with
    maps := Function.update record.maps part
      (Function.update (record.maps part) index held) }

def put (part : Part) (index : part.Index)
    (held : part.Held Content Sealed) : Record Content Sealed :=
  record.set part index (some held)

def drop (part : Part) (index : part.Index) : Record Content Sealed :=
  record.set part index none

/-- A secret arrives. -/
def receive (item : SecretsInboxItem) : Record Content Sealed :=
  { record with
    inbox := Function.update record.inbox item.secretName
      (record.inbox item.secretName ++ [item.secret]) }

def clear (secretName : String) : Record Content Sealed :=
  { record with inbox := Function.update record.inbox secretName [] }

/-- A value that may be missing. -/
def putOptional (slot : Slot) :
    Option (slot.Held Content) → Record Content Sealed
  | none => record
  | some held => record.put (.slot slot) () held

def applyAccount (changes : Changes Content) : Record Content Sealed :=
  ((((record.putOptional .identity changes.privateIdentity).putOptional
    .backupVersion changes.backupVersion).putOptional
      .backupDecryptionKey changes.backupDecryptionKey).putOptional
        .dehydratedDevicePickleKey changes.dehydratedDevicePickleKey).putOptional
          .nextBatchToken changes.nextBatchToken

/-- An inbound session, with the mark that it is saved with. -/
def putInbound (session : InboundGroupSession Content) (backedUp : Bool) :
    Record Content Sealed :=
  record.put (.of .inboundGroupSessions) (session.roomId, session.sessionId)
    (session.marked backedUp)

def putWithheld (room : String × List (String × Content)) :
    Record Content Sealed :=
  room.2.foldl (fun record entry =>
    record.put (.of .withheldSessionInfo) (room.1, entry.1) entry.2) record

def applySessions (changes : Changes Content) : Record Content Sealed :=
  let record := changes.sessions.foldl (fun record session =>
    record.put (.of .sessions) session.sessionId session) record
  let record := changes.inboundGroupSessions.foldl (fun record session =>
    record.putInbound session session.pickle.backedUp) record
  let record := changes.outboundGroupSessions.foldl (fun record session =>
    record.put (.of .outboundGroupSessions) session.roomId session.pickle)
    record
  changes.withheldSessionInfo.foldl putWithheld record

def applyHashesAndRequests (changes : Changes Content) :
    Record Content Sealed :=
  let record := changes.messageHashes.foldl (fun record hash =>
    record.put (.of .messageHashes) hash ()) record
  changes.keyRequests.foldl (fun record request =>
    record.put (.of .secretRequests) request.requestId request) record

/-- The devices that are deleted go after the others are put. -/
def applyIdentitiesAndDevices (changes : Changes Content) :
    Record Content Sealed :=
  let record := (changes.identities.new ++ changes.identities.changed ++
    changes.identities.unchanged).foldl (fun record identity =>
      record.put (.of .identities) identity.userId identity) record
  let record := (changes.devices.new ++ changes.devices.changed).foldl
    (fun record device =>
      record.put (.of .devices) (device.userId, device.deviceId) device) record
  changes.devices.deleted.foldl (fun record device =>
    record.drop (.of .devices) (device.userId, device.deviceId)) record

def applyRoomSettingsAndSecrets (changes : Changes Content) :
    Record Content Sealed :=
  let record := changes.roomSettings.foldl (fun record entry =>
    record.put (.of .roomSettings) entry.1 entry.2) record
  changes.secrets.foldl receive record

/-- A room without details is one that waits for no bundle. -/
def applyRoomKeyBundles (changes : Changes Content) :
    Record Content Sealed :=
  let record := changes.receivedRoomKeyBundles.foldl (fun record bundle =>
    record.put (.of .receivedRoomKeyBundles) (bundle.roomId, bundle.senderUser)
      bundle) record
  let record := changes.roomKeyBackupsFullyDownloaded.foldl
    (fun record roomId => record.put (.of .downloadedRoomKeys) roomId ()) record
  changes.roomsPendingKeyBundle.foldl (fun record entry =>
    record.set (.of .roomsPendingKeyBundle) entry.1 entry.2) record

def applyDevices (changes : Changes Content) : Record Content Sealed :=
  (((record.applyHashesAndRequests changes).applyIdentitiesAndDevices
    changes).applyRoomSettingsAndSecrets changes).applyRoomKeyBundles changes

/-- An inbound session, if there is one, is as before but for its mark. -/
def mark (id : String × String) (backedUp : Bool) : Record Content Sealed :=
  match record.maps (.of .inboundGroupSessions) id with
  | none => record
  | some session =>
      record.put (.of .inboundGroupSessions) id (session.marked backedUp)

/-- No inbound session is backed up. -/
def resetMarks : Record Content Sealed :=
  { record with
    maps := Function.update record.maps (.of .inboundGroupSessions) fun id =>
      (record.maps (.of .inboundGroupSessions) id).map (·.marked false) }

def apply (changes : Changes Content) : Record Content Sealed :=
  ((record.applyAccount changes).applySessions changes).applyDevices changes

end Record

/-- A call that writes. -/
inductive WriteCall (Content : Type) where
  | saveChanges (changes : Changes Content)
  | savePendingChanges (changes : PendingChanges Content)
  | saveInboundGroupSessions (sessions : List (InboundGroupSession Content))
    (backedUpToVersion : Option String)
  | markInboundGroupSessionsAsBackedUp
    (roomAndSessionIds : List (String × String))
  | resetBackupState
  | saveTrackedUsers (users : List (String × Bool))
  | setCustomValue (key : String) (value : List UInt8)
  | removeCustomValue (key : String)
  | deleteDehydratedDevicePickleKey
  | deleteOutgoingSecretRequests (requestId : String)
  | deleteSecretsFromInbox (secretName : String)

namespace WriteCall

/-- What the store does. -/
def code (store : CryptoStore Content Sealed) (sdk : Sdk Content) :
    WriteCall Content → StoreCode Sealed Unit
  | .saveChanges changes => store.saveChanges sdk changes
  | .savePendingChanges changes => store.savePendingChanges changes
  | .saveInboundGroupSessions sessions backedUpToVersion =>
      store.saveInboundGroupSessions sessions backedUpToVersion
  | .markInboundGroupSessionsAsBackedUp roomAndSessionIds =>
      store.markInboundGroupSessionsAsBackedUp roomAndSessionIds
  | .resetBackupState => store.resetBackupState
  | .saveTrackedUsers users => store.saveTrackedUsers users
  | .setCustomValue key value => store.setCustomValue key value
  | .removeCustomValue key => store.removeCustomValue key
  | .deleteDehydratedDevicePickleKey => store.deleteDehydratedDevicePickleKey
  | .deleteOutgoingSecretRequests requestId =>
      store.deleteOutgoingSecretRequests requestId
  | .deleteSecretsFromInbox secretName =>
      store.deleteSecretsFromInbox secretName

/-- What it is for. -/
def apply (record : Record Content Sealed) :
    WriteCall Content → Record Content Sealed
  | .saveChanges changes => record.apply changes
  | .savePendingChanges changes => record.putOptional .account changes.account
  | .saveInboundGroupSessions sessions backedUpToVersion =>
      sessions.foldl (fun record session =>
        record.putInbound session backedUpToVersion.isSome) record
  | .markInboundGroupSessionsAsBackedUp roomAndSessionIds =>
      roomAndSessionIds.foldl (fun record id => record.mark id true) record
  | .resetBackupState => record.resetMarks
  | .saveTrackedUsers users =>
      users.foldl (fun record user =>
        record.put (.of .trackedUsers) user.1
          { userId := user.1, dirty := user.2 }) record
  | .setCustomValue key value => record.put .customValues key value
  | .removeCustomValue key => record.drop .customValues key
  | .deleteDehydratedDevicePickleKey =>
      record.drop (.slot .dehydratedDevicePickleKey) ()
  | .deleteOutgoingSecretRequests requestId =>
      record.drop (.of .secretRequests) requestId
  | .deleteSecretsFromInbox secretName => record.clear secretName

end WriteCall

end MiryadCore.Matrix.Crypto
