import MiryadCore.Matrix.CryptoAnswers

/-!
# Every getter is right

Conditions on columns that are not sealed choose the things of which the
record says so, since the hashes of different texts differ.  Each getter is
right about the record of its account.
-/

namespace MiryadCore.Matrix.Crypto

open Columns
open Users (DbErr)

variable {Content Sealed : Type}

section Conditions

variable {store : CryptoStore Content Sealed} {kind : Kind}
  {index : kind.Index} {held : kind.Held Content} {row : Row (Value Sealed)}

theorem column_of_entry {column : String} {value : Value Sealed}
    (entry : (store.kindShelf kind).Entry index held row)
    (member : column ∈ "account_key" :: kind.columns ++ kind.others)
    (is : ∀ values, store.Cells kind held values →
      Row.ofValues ("account_key" :: kind.columns ++ kind.others)
        ((store.kindShelf kind).place index ++ values) column = some value) :
    row column = some value := by
  obtain ⟨values, cells, has⟩ := entry
  rw [has.apply_eq column member]
  exact is values cells

theorem account_of_entry
    (entry : (store.kindShelf kind).Entry index held row) :
    row "account_key" = some store.account :=
  column_of_entry entry List.mem_cons_self fun _ _ => rfl

theorem fits_account (entry : (store.kindShelf kind).Entry index held row) :
    row.Matches [("account_key", store.account)] ↔ True := by
  simp [Row.Matches, account_of_entry entry]

theorem fits_column {column : String} {value actual : Value Sealed}
    (entry : (store.kindShelf kind).Entry index held row)
    (is : row column = some actual) :
    row.Matches [("account_key", store.account), (column, value)] ↔
      actual = value := by
  simp [Row.Matches, account_of_entry entry, is]

theorem fits_hashed {column text : String} {actual : String}
    (entry : (store.kindShelf kind).Entry index held row)
    (is : row column = some (store.hashed kind.table actual)) :
    row.Matches [("account_key", store.account),
        (column, store.hashed kind.table text)] ↔ actual = text :=
  (fits_column entry is).trans (store.hashed_injective kind.table).eq_iff

theorem fits_flag {column : String} {flag actual : Bool}
    (entry : (store.kindShelf kind).Entry index held row)
    (is : row column = some (.flag actual)) :
    row.Matches [("account_key", store.account), (column, .flag flag)] ↔
      actual = flag := by
  rw [fits_column entry is, Value.flag.injEq]

end Conditions

section Replies

variable [DecidableEq Sealed] (store : CryptoStore Content Sealed)
  (faults : DbErr → Prop) (record : Record Content Sealed) (sdk : Sdk Content)
  (fromPickle : InboundPickle Content →
    Except String (InboundGroupSession Content))

omit [DecidableEq Sealed] in
theorem ofExcept_map {α β : Type} (result : Except StoreError α) (f : α → β) :
    (do
      let value ← Query.ofExcept result
      return f value : StoreCode Sealed β) =
      Query.ofExcept (result.map f) := by
  cases result with
  | ok value => rfl
  | error error => rfl

theorem answers_account :
    Answers store faults record (store.loadAccount sdk)
      fun result => result = record.account sdk := by
  apply Answers.exactly (answers_slot .account fun _ => rfl)
  unfold Record.account
  cases record.slot .account with
  | none => exact Answers.done rfl
  | some pickle =>
      dsimp only
      rw [ofExcept_map]
      exact Answers.done rfl

theorem answers_identity :
    Answers store faults record (store.loadIdentity sdk)
      fun result => result = record.identity sdk := by
  apply Answers.exactly (answers_slot .identity fun _ => rfl)
  unfold Record.identity
  cases record.slot .identity with
  | none => exact Answers.done rfl
  | some pickle =>
      dsimp only
      rw [ofExcept_map]
      exact Answers.done rfl

theorem answers_backupKeys :
    Answers store faults record store.loadBackupKeys fun result =>
      result = .ok { decryptionKey := record.slot .backupDecryptionKey
                     backupVersion := record.slot .backupVersion } := by
  apply Answers.exactly (answers_slot .backupDecryptionKey fun _ => rfl)
  apply Answers.exactly (answers_slot .backupVersion fun _ => rfl)
  exact Answers.done rfl

theorem answers_required {α : Type} (f : Content → α) :
    Answers store faults record
      (do
        match ← store.loadAccount sdk with
        | some account => return f account
        | none => Query.fail (.corrupt "pas de compte"))
      fun result => result = (record.accountForUnpickle sdk).map f := by
  unfold Record.accountForUnpickle
  apply Answers.bind (answers_account store faults record sdk)
  · intro account same
    rw [← same]
    cases account with
    | none => exact Answers.done rfl
    | some account => exact Answers.done rfl
  · intro error same
    rw [← same]
    rfl

theorem answers_accountForUnpickle :
    Answers store faults record (store.loadAccountForUnpickle sdk)
      fun result => result = record.accountForUnpickle sdk := by
  apply Answers.mono (answers_required store faults record sdk id)
  rintro result rfl
  exact id_map (record.accountForUnpickle sdk)

theorem answers_ownDevice :
    Answers store faults record (store.getOwnDevice sdk) fun result =>
      result = (record.accountForUnpickle sdk).map sdk.deviceFromAccount :=
  answers_required store faults record sdk sdk.deviceFromAccount

/-- A getter that goes on with the account. -/
theorem answers_withAccount {α β : Type} (f : Content → Except StoreError α)
    (g : α → β) :
    Answers store faults record
      (do
        let account ← store.loadAccountForUnpickle sdk
        let value ← Query.ofExcept (f account)
        return g value)
      fun result => result = (do
        let account ← record.accountForUnpickle sdk
        let value ← f account
        return g value) := by
  apply Answers.bind (answers_accountForUnpickle store faults record sdk)
  · intro account same
    rw [← same, ofExcept_map]
    refine Answers.done ?_
    change (f account).map g = (f account).bind fun value => .ok (g value)
    cases f account with
    | ok value => rfl
    | error error => rfl
  · intro error same
    rw [← same]
    rfl

theorem answers_outboundGroupSession (roomId : String) :
    Answers store faults record (store.getOutboundGroupSession sdk roomId)
      (record.Right sdk fromPickle (.getOutboundGroupSession roomId)) := by
  apply Answers.exactly (answers_onePayload .outboundGroupSessions roomId
    (fun _ => rfl) rfl)
  cases is : record.maps (.of .outboundGroupSessions) roomId with
  | none => exact Answers.done (by simp only [Record.Right, is])
  | some pickle =>
      apply Answers.mono (answers_withAccount store faults record sdk
        (fun account => (sdk.outboundFromPickle (sdk.deviceId account)
          (sdk.identityKeys account) pickle).mapError .corrupt) some)
      rintro result rfl
      simp only [Record.Right, is]

omit [DecidableEq Sealed] in
theorem sessions_of_rows (account : Content)
    {entries : List (String × OlmSession Content)}
    {rows : List (Row (Value Sealed))}
    (related : List.Forall₂ (fun entry row =>
      (store.kindShelf .sessions).Entry entry.1 entry.2 row) entries rows) :
    ((rows.map (Row.project ["payload"])).mapM fun row => do
      let pickle ← store.payloadAs Plain.asOlm row
      (sdk.sessionFromPickle (sdk.deviceKeys account) pickle).mapError
        .corrupt) =
      entries.mapM fun entry => (sdk.sessionFromPickle (sdk.deviceKeys account)
        entry.2.pickle).mapError .corrupt := by
  apply mapM_of_forall₂
  rw [List.forall₂_map_right_iff]
  apply related.imp
  intro entry row found
  have opens : store.payloadAs Plain.asOlm (Row.project ["payload"] row) =
      .ok entry.2.pickle := payloadAs_eq found rfl rfl
  rw [opens]
  rfl

theorem answers_sessions (senderKey : String) :
    Answers store faults record (store.getSessions sdk senderKey)
      (record.Right sdk fromPickle (.getSessions senderKey)) := by
  apply Answers.bind (answers_kind .sessions
    (fun _ session => session.senderKey = senderKey) rfl rfl ⟨rfl, rfl⟩ ?_)
  · rintro _ ⟨rows, same, entries, order, listing, related, rfl⟩
    obtain rfl := Except.ok.inj same
    have sessions := fun account => sessions_of_rows store sdk account related
    cases related with
    | nil => exact Answers.done ⟨_, listing, rfl⟩
    | cons first rest =>
        refine Answers.mono (answers_withAccount store faults record sdk _ some)
          ?_
        rintro result rfl
        refine ⟨_, listing, ?_⟩
        change _ = (record.accountForUnpickle sdk).bind _
        refine congrArg (record.accountForUnpickle sdk).bind (funext ?_)
        intro account
        rw [← sessions account]
        rfl
  · rintro _ ⟨_, same, _⟩
    cases same
  · intro index session row entry
    apply fits_hashed entry
    apply column_of_entry entry (by decide)
    rintro _ ⟨_, _, rfl⟩
    rfl

theorem answers_inboundAll :
    Answers store faults record (store.getInboundGroupSessions fromPickle)
      (record.Right sdk fromPickle .getInboundGroupSessions) :=
  answers_inbound fromPickle (fun _ _ => True) rfl rfl ⟨rfl, rfl⟩ rfl
    fits_account

theorem answers_inboundOfRoom (roomId : String) :
    Answers store faults record
      (store.getInboundGroupSessionsByRoomId fromPickle roomId)
      (record.Right sdk fromPickle
        (.getInboundGroupSessionsByRoomId roomId)) := by
  refine answers_inbound fromPickle (fun id _ => id.1 = roomId) rfl rfl
    ⟨rfl, rfl⟩ rfl fun entry => ?_
  exact fits_hashed entry (column_of_entry entry (by decide) fun _ _ => rfl)

omit [DecidableEq Sealed] in
theorem fits_mark {id : String × String} {row : Row (Value Sealed)}
    {session : InboundGroupSession Content}
    (entry : (store.kindShelf .inboundGroupSessions).Entry id session row)
    (flag : Bool) :
    row.Matches [("account_key", store.account), ("backed_up", .flag flag)] ↔
      session.pickle.backedUp = flag := by
  apply fits_flag entry
  apply column_of_entry entry (by decide)
  rintro _ ⟨_, _, rfl⟩
  rfl

theorem answers_inboundForBackup (limit : UInt64) :
    Answers store faults record
      (store.inboundGroupSessionsForBackup fromPickle limit)
      (record.Right sdk fromPickle (.inboundGroupSessionsForBackup limit)) :=
  answers_inbound fromPickle (fun _ session => session.pickle.backedUp = false)
    rfl rfl ⟨rfl, rfl⟩ rfl fun entry => fits_mark store entry false

theorem answers_count (kind : Kind)
    (chosen : kind.Index → kind.Held Content → Prop)
    {conds : List (String × Value Sealed)}
    (fits : ∀ {k v row}, (store.kindShelf kind).Entry k v row →
      (row.Matches (("account_key", store.account) :: conds) ↔ chosen k v)) :
    Answers store faults record
      (request (.count kind.table (("account_key", store.account) :: conds)))
      fun result => ∃ count, result = .ok count ∧
        ∃ entries, record.Lists kind chosen entries ∧
          count = entries.length := by
  refine Answers.read (fun _ => rfl) ⟨rfl, fun _ => ⟨_, rfl, fun stored => ?_⟩⟩
  have keeps := stored.holds.keeps (Drawer.map (.of kind))
  obtain ⟨entries, listing, related⟩ := keeps.listing (by
    intro key row there matched
    exact head_of_account (stored.holds.keyed there)
      (matched _ List.mem_cons_self)) fits
  refine ⟨entries, listing, ?_⟩
  rw [related.length_eq, List.length_map]

theorem answers_inboundCounts (backupVersion : Option String) :
    Answers store faults record (store.inboundGroupSessionCounts backupVersion)
      (record.Right sdk fromPickle
        (.inboundGroupSessionCounts backupVersion)) := by
  apply Answers.bind (answers_count store faults record .inboundGroupSessions
    (fun _ _ => True) fits_account)
  · rintro _ ⟨_, same, entries, listing, rfl⟩
    obtain rfl := Except.ok.inj same
    cases backupVersion with
    | none => exact Answers.done ⟨entries, listing, rfl⟩
    | some version =>
        apply Answers.bind (answers_count store faults record
          .inboundGroupSessions
          (fun _ session => session.pickle.backedUp = true)
          fun entry => fits_mark store entry true)
        · rintro _ ⟨_, same, entries', listing', rfl⟩
          obtain rfl := Except.ok.inj same
          have marked := (listing.filter (·.2.pickle.backedUp)).perm_of_same
            listing'
          refine Answers.done ⟨entries, listing, ?_⟩
          rw [← marked.length_eq, ← List.countP_eq_length_filter]
          rfl
        · rintro _ ⟨_, same, _⟩
          cases same
  · rintro _ ⟨_, same, _⟩
    cases same

theorem answers_withheldOfRoom (roomId : String) :
    Answers store faults record (store.getWithheldSessionsByRoomId roomId)
      (record.Right sdk fromPickle (.getWithheldSessionsByRoomId roomId)) := by
  refine answers_allPayloads .withheldSessionInfo (fun id _ => id.1 = roomId)
    (fun _ => rfl) fun entry => ?_
  exact fits_hashed entry (column_of_entry entry (by decide) fun _ _ => rfl)

theorem answers_userDevices (userId : String) :
    Answers store faults record (store.getUserDevices userId)
      (record.Right sdk fromPickle (.getUserDevices userId)) := by
  apply Answers.bind (answers_allPayloads .devices (fun id _ => id.1 = userId)
    (fun _ => rfl) ?_)
  · rintro _ ⟨entries, listing, same⟩
    obtain rfl := Except.ok.inj same
    exact Answers.done ⟨entries, listing, rfl⟩
  · rintro _ ⟨_, _, same⟩
    cases same
  · intro index device row entry
    exact fits_hashed entry (column_of_entry entry (by decide) fun _ _ => rfl)

theorem answers_noted (kind : Kind) (index : kind.Index)
    {columns : List String} {conds : List (String × Value Sealed)}
    (place : ("account_key", store.account) :: conds =
      (store.kindShelf kind).keys.zip ((store.kindShelf kind).place index)) :
    Answers store faults record
      (do
        let rows ← queryRows none (store.scopedSelect kind.table columns conds)
        return !rows.isEmpty)
      fun result => result = .ok (record.maps (.of kind) index).isSome := by
  apply Answers.bind (answers_part (.of kind) index rfl place ⟨rfl, rfl, rfl⟩)
  · rintro rows ⟨_, same, found⟩
    obtain rfl := Except.ok.inj same
    rcases found with ⟨is, rfl⟩ | ⟨held, row, is, entry, rfl⟩
    · rw [is]
      exact Answers.done rfl
    · rw [is]
      exact Answers.done rfl
  · rintro error ⟨_, same, _⟩
    cases same

theorem answers_secretByInfo (infoKey : String) :
    Answers store faults record (store.getSecretRequestByInfo infoKey)
      (record.Right sdk fromPickle (.getSecretRequestByInfo infoKey)) := by
  apply Answers.bind (answers_kind .secretRequests
    (fun _ request => request.infoKey = infoKey) rfl rfl ⟨rfl, rfl⟩ ?_)
  · rintro _ ⟨rows, same, entries, order, listing, related, rfl⟩
    obtain rfl := Except.ok.inj same
    cases related with
    | nil => exact Answers.done ⟨_, listing, rfl⟩
    | cons first rest =>
        have opens : store.payloadAs Plain.asGossip
            (Row.project ["payload"] _) = .ok _ := payloadAs_eq first rfl rfl
        refine Answers.exactly (Answers.done ?_) (Answers.done ⟨_, listing, rfl⟩)
        exact opens
  · rintro _ ⟨_, same, _⟩
    cases same
  · intro index request row entry
    apply fits_hashed entry
    apply column_of_entry entry (by decide)
    rintro _ ⟨_, _, rfl⟩
    rfl

theorem answers_unsent :
    Answers store faults record store.getUnsentSecretRequests
      (record.Right sdk fromPickle .getUnsentSecretRequests) := by
  refine answers_allPayloads .secretRequests
    (fun _ request => request.sentOut = false) (fun _ => rfl) fun entry => ?_
  apply fits_flag entry
  apply column_of_entry entry (by decide)
  rintro _ ⟨_, _, rfl⟩
  rfl

section Inbox

variable {store record}

omit [DecidableEq Sealed] in
theorem listing_inbox (secretName : String) :
    Listing (record.drawers .inbox) (fun index _ => index.1 = secretName)
      ((record.inbox secretName).mapIdx fun i secret =>
        ((secretName, i), secret)) where
  nodup := by
    rw [List.Nodup, List.pairwise_map, List.pairwise_iff_getElem]
    intro i j _ _ before same
    rw [List.getElem_mapIdx, List.getElem_mapIdx] at same
    exact absurd (Prod.mk.inj same).2 (by omega)
  mem_iff := by
    rintro ⟨name, i⟩ secret
    rw [List.mem_mapIdx]
    constructor
    · rintro ⟨j, inside, same⟩
      obtain ⟨⟨rfl, rfl⟩, rfl⟩ := by
        simpa only [Prod.mk.injEq] using same
      exact ⟨List.getElem?_eq_getElem inside, rfl⟩
    · rintro ⟨is, rfl⟩
      obtain ⟨inside, rfl⟩ := List.getElem?_eq_some_iff.mp is
      exact ⟨i, inside, rfl⟩

omit [DecidableEq Sealed] in
/-- Listed by their numbers, the secrets stand as they arrived. -/
theorem inbox_in_order {secretName : String}
    {entries : List ((String × ℕ) × String)}
    (listing : Listing (record.drawers .inbox)
      (fun index _ => index.1 = secretName) entries)
    (sorted : entries.Pairwise fun one other => one.1.2 ≤ other.1.2) :
    entries.map Prod.snd = record.inbox secretName := by
  have same := listing.eq_of_pairwise (listing_inbox secretName) sorted (by
    rw [List.pairwise_iff_getElem]
    intro i j _ _ before
    rw [List.getElem_mapIdx, List.getElem_mapIdx]
    exact before.le) (by
    rintro ⟨⟨name, i⟩, secret⟩ member ⟨⟨name', j⟩, secret'⟩ member' le ge
    obtain ⟨is, rfl⟩ := listing.mem_iff.mp member
    obtain ⟨is', rfl⟩ := listing.mem_iff.mp member'
    obtain rfl : i = j := le_antisymm le ge
    rw [is, Option.some.injEq] at is'
    rw [is'])
  rw [same]
  apply List.ext_getElem?
  intro i
  rw [List.getElem?_map, List.getElem?_mapIdx, Option.map_map]
  exact congrFun Option.map_id _

/-- The number in a row of the inbox. -/
def seqOf (row : Row (Value Sealed)) : ℤ :=
  match row "seq" with
  | some (.int seq) => seq
  | _ => 0

omit [DecidableEq Sealed] in
theorem seq_of_entry {index : String × ℕ} {secret : String}
    {row : Row (Value Sealed)}
    (entry : store.inboxShelf.Entry index secret row) :
    row "seq" = some (.int index.2) :=
  entry.key.apply_eq "seq" (List.mem_cons_of_mem _
    (List.mem_cons_of_mem _ List.mem_cons_self))

omit [DecidableEq Sealed] in
theorem secret_of_entry {index : String × ℕ} {secret : String}
    {row : Row (Value Sealed)}
    (entry : store.inboxShelf.Entry index secret row) :
    store.payloadAs Plain.asText (Row.project ["payload"] row) =
      .ok secret := by
  obtain ⟨_, ⟨_, ⟨sealed, rfl, opens⟩, rfl⟩, has⟩ := entry.others
  obtain - | ⟨payload, -⟩ := has
  have blob : getBlob (Row.project ["payload"] row) "payload" = .ok sealed :=
    getBlob_eq_ok.mpr payload
  rw [CryptoStore.payloadAs, blob]
  change store.openAs Plain.asText sealed = .ok secret
  simp only [CryptoStore.openAs, opens, Plain.asText]

omit [DecidableEq Sealed] in
/-- Rows that have numbers are in the order of their numbers. -/
theorem ordered_pairwise_seq {selection : Selection Sealed}
    (orders : selection.orderBy = some "seq") {rows : List (Row (Value Sealed))}
    (numbered : ∀ row ∈ rows, row "seq" = some (.int (seqOf row))) :
    (selection.ordered rows).Pairwise fun one other =>
      seqOf one ≤ seqOf other := by
  have total : Std.Total fun one other : Row (Value Sealed) =>
      seqOf one ≤ seqOf other :=
    ⟨fun one other => le_total _ _⟩
  have trans : IsTrans (Row (Value Sealed)) fun one other =>
      seqOf one ≤ seqOf other :=
    ⟨fun _ _ _ => le_trans⟩
  have same : selection.ordered rows = rows.insertionSort
      fun one other => seqOf one ≤ seqOf other := by
    unfold Selection.ordered
    rw [orders]
    have mapped := List.map_insertionSort
      (fun one other : Row (Value Sealed) =>
        precedes (one "seq") (other "seq"))
      (fun one other : Row (Value Sealed) => seqOf one ≤ seqOf other)
      id rows (by
        intro one inside other inside'
        rw [numbered one inside, numbered other inside']
        rfl)
    rw [List.map_id, List.map_id] at mapped
    exact mapped
  rw [same]
  exact List.pairwise_insertionSort _ rows

/-- The rows of a name, in their order, hold the secrets as they arrived. -/
theorem inbox_answer {secretName : String} {selection : Selection Sealed}
    {rows : AList fun _ : Key (Value Sealed) => Row (Value Sealed)}
    (holds : store.cabinet.Holds record.drawers rows)
    (table : selection.table = SECRETS_INBOX_TABLE)
    (columns : selection.columns = ["payload"])
    (conds : selection.conds = store.secretConds secretName)
    (whole : selection.past = none ∧ selection.limit = none)
    (orders : selection.orderBy = some "seq")
    (circumstances : Circumstances Sealed) :
    (selection.answer circumstances rows).mapM
        (store.payloadAs Plain.asText) = .ok (record.inbox secretName) := by
  obtain ⟨entries, order, listing, related, answer⟩ :=
    exists_answer (fun index _ => index.1 = secretName) selection
      (holds.keeps Drawer.inbox) table whole.1 (by
        intro key row there matched
        rw [conds] at matched
        exact head_of_account (holds.keyed there)
          (matched _ List.mem_cons_self)) (by
        intro index secret row entry
        rw [conds]
        exact inbox_fits entry) circumstances
  have permuted : (selection.ordered order).Perm order := by
    rw [Selection.ordered, orders]
    exact List.perm_insertionSort _ _
  obtain ⟨entries', same, reordered⟩ :=
    List.perm_comp_forall₂ permuted related.flip
  have numbers : (selection.ordered order).map seqOf =
      entries'.map fun entry => (entry.1.2 : ℤ) := by
    rw [← List.forall₂_eq_eq_eq, List.forall₂_map_left_iff,
      List.forall₂_map_right_iff]
    apply same.imp
    intro row entry found
    rw [seqOf, seq_of_entry found]
  have sorted : entries'.Pairwise fun one other => one.1.2 ≤ other.1.2 := by
    have rows : (selection.ordered order).Pairwise fun one other =>
        seqOf one ≤ seqOf other := by
      apply ordered_pairwise_seq orders
      intro row member
      obtain ⟨entry, _, found⟩ := forall₂_mem_left related.flip member
      rw [seqOf, seq_of_entry found]
    have ints := List.pairwise_map.mpr rows
    rw [numbers] at ints
    exact (List.pairwise_map.mp ints).imp Int.ofNat_le.mp
  rw [answer, Selection.limited, whole.2, columns,
    ← inbox_in_order (listing.perm reordered) sorted, ← mapM_ok]
  apply mapM_of_forall₂
  rw [List.forall₂_map_right_iff]
  exact same.flip.imp fun _ _ found => secret_of_entry found

theorem answers_inboxRows {secretName : String}
    {selection : Selection Sealed} (table : selection.table =
      SECRETS_INBOX_TABLE) (columns : selection.columns = ["payload"])
    (conds : selection.conds = store.secretConds secretName)
    (whole : selection.past = none ∧ selection.limit = none)
    (orders : selection.orderBy = some "seq") :
    Answers store faults record (queryRows none selection)
      fun result => ∃ rows, result = .ok rows ∧
        rows.mapM (store.payloadAs Plain.asText) =
          .ok (record.inbox secretName) :=
  Answers.read (fun _ => rfl) ⟨rfl, fun circumstances => ⟨_, rfl, fun stored =>
    inbox_answer stored.holds table columns conds whole orders circumstances⟩⟩

variable (store record) in
theorem answers_inbox (secretName : String) :
    Answers store faults record (store.getSecretsFromInbox secretName)
      (record.Right sdk fromPickle (.getSecretsFromInbox secretName)) := by
  apply Answers.bind (answers_inboxRows faults rfl rfl rfl ⟨rfl, rfl⟩ rfl)
  · rintro _ ⟨rows, same, opens⟩
    obtain rfl := Except.ok.inj same
    exact Answers.done opens
  · rintro _ ⟨_, same, _⟩
    cases same

end Inbox

/-- Each getter is right, unless a request of it fails. -/
theorem answers_call (call : ReadCall) :
    Answers store faults record (call.code store sdk fromPickle)
      (record.Right sdk fromPickle call) := by
  cases call with
  | loadAccount => exact answers_account store faults record sdk
  | loadIdentity => exact answers_identity store faults record sdk
  | loadBackupKeys => exact answers_backupKeys store faults record
  | loadDehydratedDevicePickleKey =>
      exact answers_slot .dehydratedDevicePickleKey fun _ => rfl
  | nextBatchToken => exact answers_slot .nextBatchToken fun _ => rfl
  | getCustomValue key => exact answers_custom key
  | getOwnDevice => exact answers_ownDevice store faults record sdk
  | getSessions senderKey =>
      exact answers_sessions store faults record sdk fromPickle senderKey
  | getInboundGroupSession roomId sessionId =>
      exact answers_inboundGroupSession roomId sessionId
  | getInboundGroupSessions =>
      exact answers_inboundAll store faults record sdk fromPickle
  | getInboundGroupSessionsByRoomId roomId =>
      exact answers_inboundOfRoom store faults record sdk fromPickle roomId
  | inboundGroupSessionsForBackup limit =>
      exact answers_inboundForBackup store faults record sdk fromPickle limit
  | inboundGroupSessionCounts backupVersion =>
      exact answers_inboundCounts store faults record sdk fromPickle
        backupVersion
  | getWithheldInfo roomId sessionId =>
      exact answers_onePayload .withheldSessionInfo (roomId, sessionId)
        (fun _ => rfl) rfl
  | getWithheldSessionsByRoomId roomId =>
      exact answers_withheldOfRoom store faults record sdk fromPickle roomId
  | getOutboundGroupSession roomId =>
      exact answers_outboundGroupSession store faults record sdk fromPickle
        roomId
  | loadTrackedUsers =>
      exact answers_allPayloads .trackedUsers (fun _ _ => True)
        (fun _ => rfl) fits_account
  | getDevice userId deviceId =>
      exact answers_onePayload .devices (userId, deviceId) (fun _ => rfl) rfl
  | getUserDevices userId =>
      exact answers_userDevices store faults record sdk fromPickle userId
  | getUserIdentity userId =>
      exact answers_onePayload .identities userId (fun _ => rfl) rfl
  | isMessageKnown hash =>
      exact answers_noted store faults record .messageHashes hash rfl
  | getOutgoingSecretRequests requestId =>
      exact answers_onePayload .secretRequests requestId (fun _ => rfl) rfl
  | getSecretRequestByInfo infoKey =>
      exact answers_secretByInfo store faults record sdk fromPickle infoKey
  | getUnsentSecretRequests =>
      exact answers_unsent store faults record sdk fromPickle
  | getSecretsFromInbox secretName =>
      exact answers_inbox store faults record sdk fromPickle secretName
  | getRoomSettings roomId =>
      exact answers_onePayload .roomSettings roomId (fun _ => rfl) rfl
  | getReceivedRoomKeyBundleData roomId userId =>
      exact answers_onePayload .receivedRoomKeyBundles (roomId, userId)
        (fun _ => rfl) rfl
  | getPendingKeyBundleDetailsForRoom roomId =>
      exact answers_onePayload .roomsPendingKeyBundle roomId (fun _ => rfl) rfl
  | getAllRoomsPendingKeyBundles =>
      exact answers_allPayloads .roomsPendingKeyBundle (fun _ _ => True)
        (fun _ => rfl) fits_account
  | hasDownloadedAllRoomKeys roomId =>
      exact answers_noted store faults record .downloadedRoomKeys roomId rfl

end Replies

end MiryadCore.Matrix.Crypto
