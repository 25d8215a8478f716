import MiryadCore.Matrix.CryptoShared

/-!
# The tables follow the records

Each statement of the store does to the tables what an operation of the record
does to its maps.  A call that writes leaves all of its changes, or none.
-/

namespace MiryadCore.Matrix.Crypto

open Columns
open Users (DbErr)

variable {Content Sealed : Type}

section Maps

variable (record : Record Content Sealed)

theorem maps_set_self (part : Part) (index : part.Index)
    (held : Option (part.Held Content Sealed)) :
    (record.set part index held).maps part index = held := by
  unfold Record.set
  dsimp only
  rw [Function.update_self, Function.update_self]

theorem maps_set_of_ne {part : Part} {index other : part.Index}
    (different : other ≠ index) (held : Option (part.Held Content Sealed)) :
    (record.set part index held).maps part other = record.maps part other := by
  unfold Record.set
  dsimp only
  rw [Function.update_self, Function.update_of_ne different]

theorem drawers_set_of_ne {part : Part} {other : Drawer}
    (different : other ≠ .map part) (index : part.Index)
    (held : Option (part.Held Content Sealed)) :
    (record.set part index held).drawers other = record.drawers other := by
  cases other with
  | inbox => rfl
  | map other =>
      have apart : other ≠ part := by
        rintro rfl
        exact different rfl
      exact Function.update_of_ne apart _ _

theorem drawers_inbox_of_ne {other : Drawer} (different : other ≠ .inbox)
    (inbox : String → List String) :
    { record with inbox }.drawers other = record.drawers other := by
  cases other with
  | inbox => exact absurd rfl different
  | map other => rfl

theorem inbox_receive_self (item : SecretsInboxItem) :
    ((record.receive item).inbox item.secretName)[
      (record.inbox item.secretName).length]? = some item.secret := by
  simp [Record.receive]

theorem inbox_receive_of_ne {item : SecretsInboxItem} {index : String × ℕ}
    (different : index ≠
      (item.secretName, (record.inbox item.secretName).length)) :
    ((record.receive item).inbox index.1)[index.2]? =
      (record.inbox index.1)[index.2]? := by
  obtain ⟨name, i⟩ := index
  unfold Record.receive
  dsimp only
  by_cases named : name = item.secretName
  · subst named
    have elsewhere : i ≠ (record.inbox item.secretName).length := by
      rintro rfl
      exact different rfl
    rw [Function.update_self]
    rcases lt_or_gt_of_ne elsewhere with before | after
    · exact List.getElem?_append_left before
    · rw [List.getElem?_eq_none (Nat.le_of_lt after), List.getElem?_eq_none]
      rw [List.length_append, List.length_singleton]
      omega
  · rw [Function.update_of_ne named]

theorem inbox_clear_self (name : String) :
    (record.clear name).inbox name = [] :=
  Function.update_self _ _ _

theorem inbox_clear_of_ne {name other : String} (different : other ≠ name) :
    (record.clear name).inbox other = record.inbox other :=
  Function.update_of_ne different _ _

variable (store : CryptoStore Content Sealed)

theorem puts_put (part : Part) (index : part.Index)
    (held : part.Held Content Sealed) :
    store.cabinet.Puts record.drawers (record.put part index held).drawers
      (.map part) index held where
  here := maps_set_self record part index _
  beside _ different := maps_set_of_ne record different _
  others _ different := drawers_set_of_ne record different index _

theorem drops_drop (part : Part) (index : part.Index) :
    store.cabinet.Drops record.drawers (record.drop part index).drawers
      (.map part) (· = index) where
  gone := by
    rintro _ rfl
    exact maps_set_self record part _ _
  stays _ different := maps_set_of_ne record different _
  others _ different := drawers_set_of_ne record different index _

theorem puts_receive (item : SecretsInboxItem) :
    store.cabinet.Puts record.drawers (record.receive item).drawers .inbox
      (item.secretName, (record.inbox item.secretName).length)
      item.secret where
  here := inbox_receive_self record item
  beside _ different := inbox_receive_of_ne record different
  others _ different := drawers_inbox_of_ne record different _

theorem drops_clear (secretName : String) :
    store.cabinet.Drops record.drawers (record.clear secretName).drawers .inbox
      (fun index => index.1 = secretName) where
  gone := by
    rintro ⟨name, i⟩ rfl
    have empty := inbox_clear_self record name
    exact (congrArg (·[i]?) empty).trans List.getElem?_nil
  stays := by
    rintro ⟨name, i⟩ different
    exact congrArg (·[i]?) (inbox_clear_of_ne record different)
  others _ different := drawers_inbox_of_ne record different _

end Maps

section Inbox

variable (store : CryptoStore Content Sealed)

/-- The conditions on the rows of a name. -/
def CryptoStore.secretConds (secretName : String) :
    List (String × Value Sealed) :=
  [("account_key", store.account),
    ("secret_name", store.hashed SECRETS_INBOX_TABLE secretName)]

variable {store}

theorem inbox_fits {secretName : String} {index : String × ℕ}
    {secret : String} {row : Row (Value Sealed)}
    (entry : store.inboxShelf.Entry index secret row) :
    row.Matches (store.secretConds secretName) ↔ index.1 = secretName := by
  have known : ∀ cond ∈ store.secretConds secretName,
      cond.1 ∈ store.inboxShelf.keys := by
    intro cond member
    simp only [CryptoStore.secretConds, List.mem_cons, List.not_mem_nil,
      or_false] at member
    rcases member with rfl | rfl
    · exact List.mem_cons_self
    · exact List.mem_cons_of_mem _ List.mem_cons_self
  rw [entry.key.matches_iff known, CryptoStore.secretConds,
    List.forall_mem_cons, List.forall_mem_cons]
  constructor
  · intro both
    exact store.hashed_injective _ (Option.some.inj both.2.1)
  · rintro rfl
    exact ⟨rfl, rfl, fun _ none => absurd none List.not_mem_nil⟩

variable [DecidableEq Sealed] {record : Record Content Sealed}
  {rows : AList fun _ : Key (Value Sealed) => Row (Value Sealed)}

theorem inbox_listing (holds : store.cabinet.Holds record.drawers rows)
    (secretName : String) :
    ∃ entries, Listing (record.drawers .inbox)
        (fun index _ => index.1 = secretName) entries ∧
      List.Forall₂ (fun entry row =>
        store.inboxShelf.Entry entry.1 entry.2 row) entries
        ((matching rows SECRETS_INBOX_TABLE
          (store.secretConds secretName)).map Prod.snd) := by
  apply (holds.keeps Drawer.inbox).listing
  · intro key row there matched
    exact head_of_account (holds.keyed there) (matched _ List.mem_cons_self)
  · exact inbox_fits

omit [DecidableEq Sealed] in
theorem maximum_of_entries {entries : List ((String × ℕ) × String)}
    {found : List (Row (Value Sealed))}
    (related : List.Forall₂ (fun entry row =>
      store.inboxShelf.Entry entry.1 entry.2 row) entries found) :
    maximumOf found "seq" =
      (entries.map fun entry => (entry.1.2 : ℤ)).max? := by
  apply congrArg List.max?
  induction related with
  | nil => rfl
  | cons first rest induction =>
      have numbered := first.key.apply_eq "seq"
        (List.mem_cons_of_mem _ (List.mem_cons_of_mem _ List.mem_cons_self))
      rw [List.filterMap_cons, numbered, List.map_cons, ← induction]
      rfl

/-- The number after the greatest is that of the secrets. -/
theorem inbox_maximum (holds : store.cabinet.Holds record.drawers rows)
    (secretName : String) {greatest : Option ℤ}
    (is : greatest = maximumOf ((matching rows SECRETS_INBOX_TABLE
      (store.secretConds secretName)).map Prod.snd) "seq") :
    ((record.inbox secretName).length : ℤ) = greatest.elim 0 (· + 1) := by
  obtain ⟨entries, listing, related⟩ := inbox_listing holds secretName
  rw [maximum_of_entries related] at is
  have mem_iff : ∀ {name i secret}, ((name, i), secret) ∈ entries ↔
      (record.inbox name)[i]? = some secret ∧ name = secretName :=
    listing.mem_iff
  have numbered : ∀ i, i < (record.inbox secretName).length →
      (i : ℤ) ∈ entries.map fun entry => (entry.1.2 : ℤ) := by
    intro i inside
    exact List.mem_map.mpr ⟨((secretName, i), _),
      mem_iff.mpr ⟨List.getElem?_eq_getElem inside, rfl⟩, rfl⟩
  cases greatest with
  | none =>
      rw [Option.elim_none]
      have none := List.max?_eq_none_iff.mp is.symm
      by_contra some
      have first := numbered 0 (by omega)
      rw [none] at first
      cases first
  | some last =>
      obtain ⟨member, bound⟩ := List.max?_eq_some_iff.mp is.symm
      obtain ⟨⟨⟨name, i⟩, secret⟩, inside, rfl⟩ := List.mem_map.mp member
      obtain ⟨found, rfl⟩ := mem_iff.mp inside
      have before := (List.getElem?_eq_some_iff.mp found).1
      have most := bound _ (numbered ((record.inbox name).length - 1)
        (by omega))
      dsimp only [Option.elim_some] at most ⊢
      omega

end Inbox

section Statements

variable [DecidableEq Sealed] {store : CryptoStore Content Sealed}
  {record : Record Content Sealed}

theorem moves_upsert {kind : Kind} {held : kind.Held Content}
    (index : kind.Index) {values : List (Value Sealed)}
    (cells : store.Cells kind held values) :
    Moves store
      (upsert kind.table (("account_key" :: kind.columns) ++ kind.others)
        ((store.account :: (kind.texts index).map
          (store.hashed kind.table)) ++ values)
        ("account_key" :: kind.columns))
      record (record.put (.of kind) index held) := by
  refine ⟨⟨rfl, rfl⟩, fun holds => ?_⟩
  have others := (store.kindShelf kind).filter_others
  have takes := holds.upsert (Drawer.map (.of kind)) index held cells
    (puts_put record store (.of kind) index held)
  unfold upsert
  rw [show List.filter _ (("account_key" :: kind.columns) ++ kind.others) =
    kind.others from others]
  exact takes

theorem moves_kvPut {slot : Slot} {held : slot.Held Content} {sealed : Sealed}
    (opens : store.cipher.openSealed sealed = .ok (slot.plain held)) :
    Moves store (store.kvPut slot.key sealed) record
      (record.put (.slot slot) () held) := by
  refine ⟨⟨rfl, rfl⟩, fun holds => ?_⟩
  exact holds.upsert (Drawer.map (.slot slot)) () held
    ⟨_, ⟨sealed, rfl, opens⟩, rfl⟩ (puts_put record store (.slot slot) () held)

theorem moves_custom (key : String) {value : List UInt8} {sealed : Sealed}
    (opens : store.cipher.openSealed sealed = .ok (.bytes value)) :
    Moves store (store.kvPut (CryptoStore.CUSTOM_PREFIX ++ key) sealed) record
      (record.put .customValues key value) := by
  refine ⟨⟨rfl, rfl⟩, fun holds => ?_⟩
  have puts := puts_put record store .customValues key value
  have cells : (store.partShelf .customValues).cells value [.blob sealed] :=
    ⟨_, ⟨sealed, rfl, opens⟩, rfl⟩
  exact holds.upsert (Drawer.map .customValues) key value cells puts

theorem moves_insertIgnore (kind : Kind) (index : kind.Index)
    {held : kind.Held Content} (alike : ∀ other : kind.Held Content, other = held)
    (cells : store.Cells kind held []) :
    Moves store
      (.insertIgnore kind.table (("account_key" :: kind.columns) ++ kind.others)
        (store.account :: (kind.texts index).map (store.hashed kind.table))
        ("account_key" :: kind.columns))
      record (record.put (.of kind) index held) := by
  refine ⟨⟨rfl, rfl⟩, fun holds => ?_⟩
  have takes := holds.insertIgnore (Drawer.map (.of kind)) index held cells alike
    (puts_put record store (.of kind) index held)
  rw [List.append_nil] at takes
  exact takes

theorem moves_delete (part : Part) (index : part.Index) :
    Moves store
      (.delete (store.partShelf part).table
        ((store.partShelf part).keys.zip ((store.partShelf part).place index)))
      record (record.drop part index) := by
  refine ⟨?_, fun holds => ?_⟩
  · cases part <;> exact List.mem_cons_self
  · exact holds.delete_key (Drawer.map part) index
      (drops_drop record store part index)

theorem moves_receive (item : SecretsInboxItem) {sealed : Sealed}
    (opens : store.cipher.openSealed sealed = .ok (.text item.secret)) :
    Moves store
      (.insert SECRETS_INBOX_TABLE
        ["account_key", "secret_name", "seq", "payload"]
        [store.account, store.hashed SECRETS_INBOX_TABLE item.secretName,
          .int (record.inbox item.secretName).length, .blob sealed])
      record (record.receive item) := by
  refine ⟨⟨rfl, rfl⟩, fun holds => ?_⟩
  have cells : store.inboxShelf.cells item.secret [.blob sealed] :=
    ⟨_, ⟨sealed, rfl, opens⟩, rfl⟩
  have new : record.drawers .inbox
      (item.secretName, (record.inbox item.secretName).length) = none :=
    List.getElem?_eq_none (le_refl _)
  exact holds.insert Drawer.inbox _ item.secret cells new
    (puts_receive record store item)

theorem moves_clear (secretName : String) :
    Moves store (.delete SECRETS_INBOX_TABLE (store.secretConds secretName))
      record (record.clear secretName) := by
  refine ⟨List.mem_cons_self, fun holds => ?_⟩
  refine holds.delete Drawer.inbox inbox_fits ?_
    (drops_clear record store secretName)
  intro other index secret row different table
  have table' : (other.shelf store).table = SECRETS_INBOX_TABLE := table
  rcases drawer_of_table store other with kind | ⟨kv, _⟩
  · rw [table'] at kind
    exact absurd (Option.some.inj kind).symm different
  · rw [table'] at kv
    exact absurd kv (by decide)

end Statements

/-- What `next_secret_seq` fails with. -/
def saturated : StoreError :=
  .corrupt "numéro de séquence saturé"

/-- Why a call on a record fails: a fault of the database, a value that is not
sealed, or an inbox that has grown past its numbers. -/
inductive Excused (store : CryptoStore Content Sealed) (faults : DbErr → Prop)
    (record : Record Content Sealed) : StoreError → Prop where
  | fault {error : StoreError} : Faulty faults error →
      Excused store faults record error
  | sealing {plain : Plain Content} {error : StoreError} :
      store.cipher.encryptValue plain = .error error →
      Excused store faults record error
  | full (secretName : String) :
      i64Max < (record.inbox secretName).length →
      Excused store faults record saturated

section Applies

variable [DecidableEq Sealed] (store : CryptoStore Content Sealed)
  (faults : DbErr → Prop) (tx : ℕ)

/-- No secret leaves the inbox. -/
def Grows (change : Record Content Sealed → Record Content Sealed) : Prop :=
  ∀ record secretName, (record.inbox secretName).length ≤
    ((change record).inbox secretName).length

/-- In a transaction, the code does to the tables what the change does to the
record. -/
structure Applies (code : StoreCode Sealed Unit)
    (change : Record Content Sealed → Record Content Sealed) : Prop where
  grows : Grows change
  does : ∀ {before record shared}, Inside store before record tx shared →
    Does store.accountKey faults code
      (fun _ after => Inside store before (change record) tx after)
      (fun error after => Excused store faults (change record) error ∧
        Begun store before tx after) shared

variable {store faults tx} {before record : Record Content Sealed}
  {change change' : Record Content Sealed → Record Content Sealed}
  {shared : Shared Sealed}

omit [DecidableEq Sealed] in
theorem Excused.mono {error : StoreError}
    (excused : Excused store faults record error) (grows : Grows change) :
    Excused store faults (change record) error := by
  cases excused with
  | fault faulty => exact .fault faulty
  | sealing fails => exact .sealing fails
  | full name long => exact .full name (long.trans_le (grows _ _))

theorem does_seal {plain : Plain Content} {each : Sealed → StoreCode Sealed Unit}
    {post : Unit → Shared Sealed → Prop}
    {err : StoreError → Shared Sealed → Prop}
    (fails : ∀ error, store.cipher.encryptValue plain = .error error →
      ∀ after, pact.rely store.accountKey shared after → err error after)
    (does : ∀ sealed, store.cipher.openSealed sealed = .ok plain →
      Does store.accountKey faults (each sealed) post err shared) :
    Does store.accountKey faults
      (do let sealed ← store.sealed plain; each sealed) post err shared := by
  unfold CryptoStore.sealed
  cases encrypts : store.cipher.encryptValue plain with
  | ok sealed => exact does sealed (store.cipher.open_encrypted encrypts)
  | error error => exact fails error encrypts

namespace Applies

theorem pure : Applies store faults tx (Pure.pure ()) fun record => record where
  grows _ _ := le_refl _
  does inside := Query.Meets.pure fun _ between =>
    inside_stable _ _ inside between

variable {code rest : StoreCode Sealed Unit}

theorem bind (first : Applies store faults tx code change)
    (second : Applies store faults tx rest change') :
    Applies store faults tx (do code; rest)
      fun record => change' (change record) where
  grows record name := (first.grows record name).trans (second.grows _ name)
  does inside := by
    apply Query.Meets.bind (pact.refl _)
    apply Query.Meets.mono (first.does inside)
    · exact fun _ _ inside => second.does inside
    · rintro error after ⟨excused, begun⟩ later between
      exact ⟨excused.mono second.grows, begun_stable _ _ begun between⟩

theorem forM {β : Type} {each : β → StoreCode Sealed Unit}
    {changes : Record Content Sealed → β → Record Content Sealed}
    (applies : ∀ item, Applies store faults tx (each item)
      fun record => changes record item) (items : List β) :
    Applies store faults tx (items.forM each)
      fun record => items.foldl changes record := by
  induction items with
  | nil => exact pure
  | cons item items induction => exact (applies item).bind induction

theorem sealing {plain : Plain Content}
    {each : Sealed → StoreCode Sealed Unit} (grows : Grows change)
    (applies : ∀ sealed, store.cipher.openSealed sealed = .ok plain →
      Applies store faults tx (each sealed) change) :
    Applies store faults tx (do let sealed ← store.sealed plain; each sealed)
      change where
  grows := grows
  does inside := by
    apply does_seal
    · intro error fails after between
      exact ⟨.sealing fails, begun_stable _ _ inside.toBegun between⟩
    · exact fun sealed opens => (applies sealed opens).does inside

theorem execute {statement : Statement (Value Sealed)} (grows : Grows change)
    (moves : ∀ record, Moves store statement record (change record)) :
    Applies store faults tx (execute tx statement) change where
  grows := grows
  does inside := by
    apply Query.Meets.mono (inside.execute (moves _))
    · exact fun _ _ inside => inside
    · exact fun _ _ failed => ⟨.fault failed.1, failed.2⟩

end Applies

variable (store faults) in
/-- The code does to the database what the change does to the record, or
fails and does nothing. -/
def Saves (code : StoreCode Sealed Unit)
    (change : Record Content Sealed → Record Content Sealed) : Prop :=
  ∀ record shared, Stored store record shared →
    Does store.accountKey faults code
      (fun _ after => Stored store (change record) after)
      (Unchanged store (Excused store faults (change record)) record) shared

theorem Saves.pure : Saves store faults (Pure.pure ()) fun record => record :=
  fun _ _ stored => Query.Meets.pure fun _ between =>
    stored_stable _ _ stored between

theorem Saves.transaction {body : ℕ → StoreCode Sealed Unit}
    (applies : ∀ tx, Applies store faults tx (body tx) change) :
    Saves store faults (transaction body) change :=
  fun _ _ stored => does_transaction (fun _ => .fault)
    (fun inside => (applies _).does inside) stored

theorem Saves.single {statement : Statement (Value Sealed)}
    (moves : ∀ record, Moves store statement record (change record)) :
    Saves store faults (request (.single statement)) change :=
  fun _ _ stored => does_single (fun _ => .fault) (moves _) stored

theorem Saves.sealing {plain : Plain Content}
    {each : Sealed → StoreCode Sealed Unit}
    (saves : ∀ sealed, store.cipher.openSealed sealed = .ok plain →
      Saves store faults (each sealed) change) :
    Saves store faults (do let sealed ← store.sealed plain; each sealed)
      change := by
  intro record shared stored
  apply does_seal
  · intro error fails after between
    exact ⟨.sealing fails, stored_stable _ _ stored between⟩
  · exact fun sealed opens => saves sealed opens _ _ stored

end Applies

section Calls

theorem grows_put (part : Part) (index : part.Index)
    (held : part.Held Content Sealed) :
    Grows fun record => record.put part index held :=
  fun _ _ => le_refl _

theorem grows_receive (item : SecretsInboxItem) :
    Grows fun record : Record Content Sealed => record.receive item := by
  intro record secretName
  unfold Record.receive
  dsimp only
  by_cases named : secretName = item.secretName
  · subst named
    rw [Function.update_self, List.length_append]
    exact Nat.le_add_right _ _
  · rw [Function.update_of_ne named]

variable [DecidableEq Sealed] (store : CryptoStore Content Sealed)
  (faults : DbErr → Prop) (tx : ℕ)

theorem applies_put (kind : Kind) (index : kind.Index)
    (held : kind.Held Content) {plain : Plain Content}
    (is : kind.plain held = some plain) :
    Applies store faults tx
      (do
        let sealed ← store.sealed plain
        execute tx (upsert kind.table
          (("account_key" :: kind.columns) ++ kind.others)
          ((store.account :: (kind.texts index).map
            (store.hashed kind.table)) ++
              (kind.shown store held ++ [.blob sealed]))
          ("account_key" :: kind.columns)))
      fun record => record.put (.of kind) index held := by
  refine Applies.sealing (grows_put (.of kind) index held) fun sealed opens => ?_
  refine Applies.execute (grows_put (.of kind) index held) fun record => ?_
  apply moves_upsert index
  unfold CryptoStore.Cells
  rw [is]
  exact ⟨_, ⟨sealed, rfl, opens⟩, rfl⟩

theorem applies_putOptional (slot : Slot)
    (held : Option (slot.Held Content)) :
    Applies store faults tx (store.putOptional tx slot.key (held.map slot.plain))
      fun record => record.putOptional slot held := by
  cases held with
  | none => exact Applies.pure
  | some held =>
      refine Applies.sealing (grows_put (.slot slot) () held)
        fun sealed opens => ?_
      exact Applies.execute (grows_put (.slot slot) () held)
        fun _ => moves_kvPut opens

theorem applies_account (changes : Changes Content) :
    Applies store faults tx (store.applyAccount tx changes)
      fun record => record.applyAccount changes :=
  (applies_putOptional store faults tx .identity _).bind <|
    (applies_putOptional store faults tx .backupVersion _).bind <|
      (applies_putOptional store faults tx .backupDecryptionKey _).bind <|
        (applies_putOptional store faults tx .dehydratedDevicePickleKey
          _).bind <|
            applies_putOptional store faults tx .nextBatchToken _

theorem applies_inbound (session : InboundGroupSession Content)
    (backedUp : Bool) :
    Applies store faults tx (store.upsertInbound tx session backedUp)
      fun record => record.putInbound session backedUp :=
  applies_put store faults tx .inboundGroupSessions
    (session.roomId, session.sessionId) (session.marked backedUp) rfl

theorem applies_sessions (changes : Changes Content) :
    Applies store faults tx (store.applySessions tx changes)
      fun record => record.applySessions changes := by
  have sessions := Applies.forM (fun session : OlmSession Content =>
    applies_put store faults tx .sessions session.sessionId session rfl)
    changes.sessions
  have inbound := Applies.forM (fun session : InboundGroupSession Content =>
    applies_inbound store faults tx session session.pickle.backedUp)
    changes.inboundGroupSessions
  have outbound := Applies.forM (fun session : OutboundGroupSession Content =>
    applies_put store faults tx .outboundGroupSessions session.roomId
      session.pickle rfl) changes.outboundGroupSessions
  have withheld := Applies.forM
    (fun room : String × List (String × Content) =>
      Applies.forM (fun entry : String × Content =>
        applies_put store faults tx .withheldSessionInfo (room.1, entry.1)
          entry.2 rfl) room.2) changes.withheldSessionInfo
  exact sessions.bind (inbound.bind (outbound.bind withheld))

theorem applies_note (kind : Kind) (index : kind.Index)
    (held : kind.Held Content) (alike : ∀ other : kind.Held Content,
      other = held) (cells : store.Cells kind held []) :
    Applies store faults tx
      (execute tx (.insertIgnore kind.table
        (("account_key" :: kind.columns) ++ kind.others)
        (store.account :: (kind.texts index).map (store.hashed kind.table))
        ("account_key" :: kind.columns)))
      fun record => record.put (.of kind) index held :=
  Applies.execute (grows_put (.of kind) index held)
    fun _ => moves_insertIgnore kind index alike cells

theorem applies_delete (part : Part) (index : part.Index) :
    Applies store faults tx
      (execute tx (.delete (store.partShelf part).table
        ((store.partShelf part).keys.zip
          ((store.partShelf part).place index))))
      fun record => record.drop part index :=
  Applies.execute (fun _ _ => le_refl _) fun _ => moves_delete part index

theorem applies_hashes (changes : Changes Content) :
    Applies store faults tx (store.applyHashesAndRequests tx changes)
      fun record => record.applyHashesAndRequests changes := by
  have hashes := Applies.forM (fun hash : String =>
    applies_note store faults tx .messageHashes hash () (fun _ => rfl) rfl)
    changes.messageHashes
  have requests := Applies.forM (fun request : GossipRequest Content =>
    applies_put store faults tx .secretRequests request.requestId request
      rfl) changes.keyRequests
  exact hashes.bind requests

theorem applies_identities (changes : Changes Content) :
    Applies store faults tx (store.applyIdentitiesAndDevices tx changes)
      fun record => record.applyIdentitiesAndDevices changes := by
  have identities := Applies.forM (fun identity : UserIdentityData Content =>
    applies_put store faults tx .identities identity.userId identity rfl)
    (changes.identities.new ++ changes.identities.changed ++
      changes.identities.unchanged)
  have devices := Applies.forM (fun device : DeviceData Content =>
    applies_put store faults tx .devices (device.userId, device.deviceId)
      device rfl) (changes.devices.new ++ changes.devices.changed)
  have deleted := Applies.forM (fun device : DeviceData Content =>
    applies_delete store faults tx (.of .devices)
      (device.userId, device.deviceId)) changes.devices.deleted
  exact identities.bind (devices.bind deleted)

theorem applies_pending (entry : String × Option Content) :
    Applies store faults tx
      (match entry.2 with
        | some details => do
            let sealed ← store.sealed (.pendingBundle details)
            execute tx (upsert PENDING_BUNDLES_TABLE
              ["account_key", "room_id", "payload"]
              [store.account, store.hashed PENDING_BUNDLES_TABLE entry.1,
                .blob sealed] ["account_key", "room_id"])
        | none =>
            execute tx (.delete PENDING_BUNDLES_TABLE
              [("account_key", store.account),
                ("room_id", store.hashed PENDING_BUNDLES_TABLE entry.1)]))
      fun record => record.set (.of .roomsPendingKeyBundle) entry.1 entry.2 := by
  obtain ⟨roomId, details⟩ := entry
  cases details with
  | some details =>
      exact applies_put store faults tx .roomsPendingKeyBundle roomId
        details rfl
  | none =>
      exact applies_delete store faults tx (.of .roomsPendingKeyBundle) roomId

theorem applies_bundles (changes : Changes Content) :
    Applies store faults tx (store.applyRoomKeyBundles tx changes)
      fun record => record.applyRoomKeyBundles changes := by
  have bundles := Applies.forM
    (fun bundle : StoredRoomKeyBundleData Content =>
      applies_put store faults tx .receivedRoomKeyBundles
        (bundle.roomId, bundle.senderUser) bundle rfl)
    changes.receivedRoomKeyBundles
  have downloaded := Applies.forM (fun roomId : String =>
    applies_note store faults tx .downloadedRoomKeys roomId ()
      (fun _ => rfl) rfl) changes.roomKeyBackupsFullyDownloaded
  have pending := Applies.forM (fun entry : String × Option Content =>
    applies_pending store faults tx entry) changes.roomsPendingKeyBundle
  exact bundles.bind (downloaded.bind pending)

variable {store tx} in
/-- The number that comes is that of the secrets before it. -/
theorem does_nextSecretSeq {before record : Record Content Sealed}
    {shared : Shared Sealed} (inside : Inside store before record tx shared)
    (item : SecretsInboxItem) :
    Does store.accountKey faults
      (store.nextSecretSeq tx
        (store.hashed SECRETS_INBOX_TABLE item.secretName))
      (fun seq after => Inside store before record tx after ∧
        seq = ((record.inbox item.secretName).length : ℤ))
      (fun error after => Excused store faults (record.receive item) error ∧
        Begun store before tx after) shared := by
  apply Query.Meets.bind (pact.refl _)
  have reads : Does store.accountKey faults
      (request (.maximum tx SECRETS_INBOX_TABLE "seq"
        (store.secretConds item.secretName)))
      (fun greatest after => Inside store before record tx after ∧
        ((record.inbox item.secretName).length : ℤ) =
          greatest.elim 0 (· + 1))
      (fun error after => Inside store before record tx after ∧
        Faulty faults error) shared := by
    refine does_read inside_stable (fun inside => inside.sound) (fun _ => rfl)
      ⟨rfl, fun _ => ⟨_, rfl, fun inside => ?_⟩⟩ inside
    exact inbox_maximum inside.sees item.secretName rfl
  apply Query.Meets.mono reads
  · rintro greatest after ⟨inside, next⟩
    cases greatest with
    | none =>
        exact Query.Meets.pure fun _ between =>
          ⟨inside_stable _ _ inside between, next.symm⟩
    | some last =>
        refine does_ite (fun _ => ?_) fun above => ?_
        · exact Query.Meets.pure fun _ between =>
            ⟨inside_stable _ _ inside between, next.symm⟩
        · refine Query.Meets.fail fun _ between =>
            ⟨.full item.secretName ?_,
              begun_stable _ _ inside.toBegun between⟩
          have longer := inbox_receive_self record item
          have longer := (List.getElem?_eq_some_iff.mp longer).1
          rw [Option.elim_some] at next
          omega
  · rintro error after ⟨inside, faulty⟩ later between
    exact ⟨.fault faulty, begun_stable _ _ inside.toBegun between⟩

/-- A secret is put after those of its name. -/
theorem applies_secret (item : SecretsInboxItem) :
    Applies store faults tx
      (do
        let secretHash := store.hashed SECRETS_INBOX_TABLE item.secretName
        let seq ← store.nextSecretSeq tx secretHash
        let sealed ← store.sealed (.text item.secret)
        execute tx (.insert SECRETS_INBOX_TABLE
          ["account_key", "secret_name", "seq", "payload"]
          [store.account, secretHash, .int seq, .blob sealed]))
      fun record => record.receive item where
  grows := grows_receive item
  does inside := by
    apply Query.Meets.bind (pact.refl _)
    apply Query.Meets.mono (does_nextSecretSeq faults inside item)
    · rintro seq after ⟨inside, rfl⟩
      apply does_seal
      · intro error fails later between
        exact ⟨.sealing fails, begun_stable _ _ inside.toBegun between⟩
      · intro sealed opens
        apply Query.Meets.mono (inside.execute (moves_receive item opens))
        · exact fun _ _ inside => inside
        · exact fun _ _ failed => ⟨.fault failed.1, failed.2⟩
    · rintro error after ⟨excused, begun⟩ later between
      exact ⟨excused, begun_stable _ _ begun between⟩

theorem applies_roomSettings (changes : Changes Content) :
    Applies store faults tx (store.applyRoomSettingsAndSecrets tx changes)
      fun record => record.applyRoomSettingsAndSecrets changes := by
  have settings := Applies.forM (fun entry : String × Content =>
    applies_put store faults tx .roomSettings entry.1 entry.2 rfl)
    changes.roomSettings
  have secrets := Applies.forM (fun item : SecretsInboxItem =>
    applies_secret store faults tx item) changes.secrets
  exact settings.bind secrets

theorem applies_devices (changes : Changes Content) :
    Applies store faults tx (store.applyDevices tx changes)
      fun record => record.applyDevices changes :=
  (applies_hashes store faults tx changes).bind <|
    (applies_identities store faults tx changes).bind <|
      (applies_roomSettings store faults tx changes).bind <|
        applies_bundles store faults tx changes

end Calls

section Saving

theorem apply_of_isEmpty {sdk : Sdk Content} {changes : Changes Content}
    (empty : sdk.isEmpty changes = true ∧
      changes.roomKeyBackupsFullyDownloaded = [] ∧
      changes.roomsPendingKeyBundle = [])
    (record : Record Content Sealed) : record.apply changes = record := by
  have others := sdk.others_of_isEmpty empty.1
  rw [empty.2.1, empty.2.2] at others
  rw [others]
  rfl

variable [DecidableEq Sealed] (store : CryptoStore Content Sealed)
  (faults : DbErr → Prop)

theorem saves_changes (sdk : Sdk Content) (changes : Changes Content) :
    Saves store faults (store.saveChanges sdk changes)
      fun record => record.apply changes := by
  unfold CryptoStore.saveChanges
  split
  next empty =>
    have unchanged : (fun record : Record Content Sealed =>
        record.apply changes) = fun record => record :=
      funext (apply_of_isEmpty empty)
    rw [unchanged]
    exact Saves.pure
  next =>
    apply Saves.transaction
    intro tx
    exact (applies_account store faults tx changes).bind <|
      (applies_sessions store faults tx changes).bind <|
        applies_devices store faults tx changes

theorem saves_pending (changes : PendingChanges Content) :
    Saves store faults (store.savePendingChanges changes)
      fun record => record.putOptional .account changes.account := by
  obtain ⟨account⟩ := changes
  cases account with
  | none => exact Saves.pure
  | some account =>
      apply Saves.transaction
      intro tx
      exact applies_putOptional store faults tx .account (some account)

theorem saves_inbound (sessions : List (InboundGroupSession Content))
    (backedUpToVersion : Option String) :
    Saves store faults
      (store.saveInboundGroupSessions sessions backedUpToVersion)
      fun record => sessions.foldl (fun record session =>
        record.putInbound session backedUpToVersion.isSome) record := by
  apply Saves.transaction
  intro tx
  exact Applies.forM (fun session => applies_inbound store faults tx
    session backedUpToVersion.isSome) sessions

theorem saves_trackedUsers (users : List (String × Bool)) :
    Saves store faults (store.saveTrackedUsers users)
      fun record => users.foldl (fun record user =>
        record.put (.of .trackedUsers) user.1
          { userId := user.1, dirty := user.2 }) record := by
  apply Saves.transaction
  intro tx
  exact Applies.forM (fun user : String × Bool =>
    applies_put store faults tx .trackedUsers user.1
      { userId := user.1, dirty := user.2 } rfl) users

theorem saves_delete (part : Part) (index : part.Index) :
    Saves store faults
      (request (.single (.delete (store.partShelf part).table
        ((store.partShelf part).keys.zip
          ((store.partShelf part).place index)))))
      fun record => record.drop part index :=
  Saves.single fun _ => moves_delete part index

theorem saves_custom (key : String) (value : List UInt8) :
    Saves store faults (store.setCustomValue key value)
      fun record => record.put .customValues key value := by
  apply Saves.sealing
  intro sealed opens
  exact Saves.single fun _ => moves_custom key opens

theorem saves_clear (secretName : String) :
    Saves store faults (store.deleteSecretsFromInbox secretName)
      fun record => record.clear secretName :=
  Saves.single fun _ => moves_clear secretName

end Saving

end MiryadCore.Matrix.Crypto
