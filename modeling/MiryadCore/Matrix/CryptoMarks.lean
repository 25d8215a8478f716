import MiryadCore.Matrix.CryptoWrites

/-!
# The marks of a backup follow the records

A mark reads the rows of its sessions, and writes each back with another flag.
The rows that it has read stay those of the record until it is their turn.
-/

namespace MiryadCore.Matrix.Crypto

open Columns
open Users (DbErr)

variable {Content Sealed : Type}

/-- The entries as they are once they are marked. -/
def Record.markAll (record : Record Content Sealed)
    (entries : List ((String × String) × InboundGroupSession Content))
    (backedUp : Bool) : Record Content Sealed :=
  entries.foldl (fun record entry =>
    record.put (.of .inboundGroupSessions) entry.1 (entry.2.marked backedUp))
    record

section Records

variable {record : Record Content Sealed} {backedUp : Bool}
  {entries : List ((String × String) × InboundGroupSession Content)}

theorem markAll_of_not_mem {id : String × String}
    (absent : id ∉ entries.map Prod.fst) :
    (record.markAll entries backedUp).maps (.of .inboundGroupSessions) id =
      record.maps (.of .inboundGroupSessions) id := by
  induction entries generalizing record with
  | nil => rfl
  | cons entry entries induction =>
      rw [List.map_cons, List.mem_cons, not_or] at absent
      exact (induction absent.2).trans (maps_set_of_ne record absent.1 _)

theorem markAll_of_mem {id : String × String}
    {session : InboundGroupSession Content}
    (distinct : (entries.map Prod.fst).Nodup) (member : (id, session) ∈ entries) :
    (record.markAll entries backedUp).maps (.of .inboundGroupSessions) id =
      some (session.marked backedUp) := by
  induction entries generalizing record with
  | nil => cases member
  | cons entry entries induction =>
      obtain ⟨fresh, distinct⟩ := List.nodup_cons.mp distinct
      rcases List.mem_cons.mp member with rfl | later
      · exact (markAll_of_not_mem fresh).trans (maps_set_self record _ _ _)
      · exact induction distinct later

theorem markAll_others {part : Part}
    (different : part ≠ .of .inboundGroupSessions) :
    (record.markAll entries backedUp).maps part = record.maps part := by
  induction entries generalizing record with
  | nil => rfl
  | cons entry entries induction =>
      exact induction.trans (Function.update_of_ne different _ _)

theorem inbox_markAll :
    (record.markAll entries backedUp).inbox = record.inbox := by
  induction entries generalizing record with
  | nil => rfl
  | cons entry entries induction => exact induction

theorem Record.eq_of_maps {one other : Record Content Sealed}
    (inbox : one.inbox = other.inbox)
    (maps : ∀ part, one.maps part = other.maps part) : one = other := by
  cases one
  cases other
  rw [Record.mk.injEq]
  exact ⟨funext maps, inbox⟩

/-- Marking every session that there is. -/
theorem markAll_eq_resetMarks
    (listing : Listing (record.maps (.of .inboundGroupSessions))
      (fun _ _ => True) entries) :
    record.markAll entries false = record.resetMarks := by
  have inbox : (record.markAll entries false).inbox =
      record.resetMarks.inbox := inbox_markAll
  apply Record.eq_of_maps inbox
  intro part
  by_cases inbound : part = .of .inboundGroupSessions
  · subst inbound
    funext id
    unfold Record.resetMarks
    dsimp only
    rw [Function.update_self]
    cases is : record.maps (.of .inboundGroupSessions) id with
    | none =>
        rw [markAll_of_not_mem, is]
        · rfl
        · intro member
          obtain ⟨⟨_, session⟩, inside, rfl⟩ := List.mem_map.mp member
          rw [(listing.mem_iff.mp inside).1] at is
          cases is
    | some session =>
        exact markAll_of_mem listing.nodup (listing.mem_iff.mpr ⟨is, trivial⟩)
  · rw [markAll_others inbound]
    exact (Function.update_of_ne inbound _ _).symm

theorem markAll_eq_mark {id : String × String}
    (listing : Listing (record.maps (.of .inboundGroupSessions))
      (fun other _ => other = id) entries) :
    record.markAll entries backedUp = record.mark id backedUp := by
  rw [listing.single Iff.rfl]
  unfold Record.mark
  cases record.maps (.of .inboundGroupSessions) id with
  | none => rfl
  | some session => rfl

end Records

section Tables

variable {store : CryptoStore Content Sealed}
  {before record : Record Content Sealed} {faults : DbErr → Prop} {tx : ℕ}
  {shared : Shared Sealed} {id : String × String}
  {session : InboundGroupSession Content} {row : Row (Value Sealed)}

theorem inbound_entry :
    (store.kindShelf .inboundGroupSessions).Entry id session row ↔
      ∃ sealed, store.cipher.openSealed sealed =
          .ok (.inbound session.pickle) ∧
        row "account_key" = some store.account ∧
        row "room_id" = some (store.hashed INBOUND_TABLE id.1) ∧
        row "session_id" = some (store.hashed INBOUND_TABLE id.2) ∧
        row "sender_key" =
          some (store.hashed INBOUND_TABLE session.senderKey) ∧
        row "sender_data_type" = some (.int session.senderDataType) ∧
        row "backed_up" = some (.flag session.pickle.backedUp) ∧
        row "payload" = some (.blob sealed) := by
  constructor
  · rintro ⟨_, ⟨_, ⟨sealed, rfl, opens⟩, rfl⟩, has⟩
    obtain - | ⟨account, - | ⟨room, - | ⟨session, - | ⟨sender, - | ⟨type,
      - | ⟨flag, - | ⟨payload, -⟩⟩⟩⟩⟩⟩⟩ := has
    exact ⟨sealed, opens, account, room, session, sender, type, flag, payload⟩
  · rintro ⟨sealed, opens, account, room, session, sender, type, flag, payload⟩
    exact ⟨_, ⟨_, ⟨sealed, rfl, opens⟩, rfl⟩, .cons account <| .cons room <|
      .cons session <| .cons sender <| .cons type <| .cons flag <|
        .cons payload .nil⟩

theorem Excused.of_inbox {other : Record Content Sealed} {error : StoreError}
    (excused : Excused store faults record error)
    (same : other.inbox = record.inbox) : Excused store faults other error := by
  cases excused with
  | fault faulty => exact .fault faulty
  | sealing fails => exact .sealing fails
  | full name long => exact .full name (same ▸ long)

theorem ofExcept_ok_bind {α β : Type} (value : α)
    (next : α → StoreCode Sealed β) :
    (Query.ofExcept (.ok value) >>= next) = next value :=
  rfl

variable [DecidableEq Sealed]

/-- The session is marked in its row. -/
theorem moves_mark {backedUp : Bool} {sealed : Sealed}
    (is : record.maps (.of .inboundGroupSessions) id = some session)
    (opens : store.cipher.openSealed sealed =
      .ok (.inbound (session.marked backedUp).pickle)) :
    Moves store
      (.update INBOUND_TABLE
        [("backed_up", .flag backedUp), ("payload", .blob sealed)]
        [("account_key", store.account),
          ("room_id", store.hashed INBOUND_TABLE id.1),
          ("session_id", store.hashed INBOUND_TABLE id.2)])
      record (record.put (.of .inboundGroupSessions) id
        (session.marked backedUp)) := by
  refine ⟨List.mem_cons_self, fun holds => ?_⟩
  have puts := puts_put record store (.of .inboundGroupSessions) id
    (session.marked backedUp)
  have assigned : ∀ {row},
      (store.kindShelf .inboundGroupSessions).Entry id session row →
      (store.kindShelf .inboundGroupSessions).Entry id
        (session.marked backedUp) (row.assign
          [("backed_up", .flag backedUp), ("payload", .blob sealed)]) := by
    intro row entry
    obtain ⟨_, _, account, room, sessionId, sender, type, _, _⟩ :=
      inbound_entry.mp entry
    exact inbound_entry.mpr
      ⟨sealed, opens, account, room, sessionId, sender, type, rfl, rfl⟩
  refine holds.update_key (Drawer.map (.of .inboundGroupSessions)) id session ?_
    assigned puts
  exact is

theorem does_setBackupFlag (inside : Inside store before record tx shared)
    (backedUp : Bool)
    (is : record.maps (.of .inboundGroupSessions) id = some session)
    (entry : (store.kindShelf .inboundGroupSessions).Entry id session row) :
    Does store.accountKey faults
      (store.setBackupFlag tx (Row.project CryptoStore.MARK_COLUMNS row)
        backedUp)
      (fun _ after => Inside store before (record.put
        (.of .inboundGroupSessions) id (session.marked backedUp)) tx after)
      (fun error after => Excused store faults record error ∧
        Begun store before tx after) shared := by
  obtain ⟨sealed, opens, _, room, sessionId, _, _, _, payload⟩ :=
    inbound_entry.mp entry
  have roomId : getText (Row.project CryptoStore.MARK_COLUMNS row) "room_id" =
      .ok _ := getText_eq_ok.mpr room
  have sessionId : getText (Row.project CryptoStore.MARK_COLUMNS row)
      "session_id" = .ok _ := getText_eq_ok.mpr sessionId
  have payload : getBlob (Row.project CryptoStore.MARK_COLUMNS row) "payload" =
      .ok sealed := getBlob_eq_ok.mpr payload
  have pickle : store.openInbound sealed = .ok session.pickle := by
    rw [CryptoStore.openInbound, opens]
  unfold CryptoStore.setBackupFlag
  simp only [roomId, sessionId, payload, ofExcept_ok_bind, pickle]
  apply does_seal
  · intro error fails after between
    exact ⟨.sealing fails, begun_stable _ _ inside.toBegun between⟩
  · intro resealed opens
    apply Query.Meets.mono (inside.execute (moves_mark is opens))
    · exact fun _ _ inside => inside
    · exact fun _ _ failed => ⟨.fault failed.1, failed.2⟩

/-- Rows that were read are marked one after the other. -/
theorem does_markAll (backedUp : Bool)
    {entries : List ((String × String) × InboundGroupSession Content)}
    {found : List (Row (Value Sealed))}
    (related : List.Forall₂ (fun entry row =>
      (store.kindShelf .inboundGroupSessions).Entry entry.1 entry.2 row) entries
      found)
    (distinct : (entries.map Prod.fst).Nodup)
    (inside : Inside store before record tx shared)
    (are : ∀ entry ∈ entries,
      record.maps (.of .inboundGroupSessions) entry.1 = some entry.2) :
    Does store.accountKey faults
      ((found.map (Row.project CryptoStore.MARK_COLUMNS)).forM fun row =>
        store.setBackupFlag tx row backedUp)
      (fun _ after =>
        Inside store before (record.markAll entries backedUp) tx after)
      (fun error after => Excused store faults record error ∧
        Begun store before tx after) shared := by
  induction related generalizing record shared with
  | nil =>
      exact Query.Meets.pure fun _ between =>
        inside_stable _ _ inside between
  | @cons entry row entries found first rest induction =>
      obtain ⟨fresh, distinct⟩ := List.nodup_cons.mp distinct
      apply Query.Meets.bind (pact.refl _)
      apply Query.Meets.mono (does_setBackupFlag inside backedUp
        (are _ List.mem_cons_self) first)
      · intro _ after inside
        have rest := induction distinct inside (by
          intro other member
          have different : other.1 ≠ entry.1 := fun same =>
            fresh (same ▸ List.mem_map_of_mem member)
          exact (maps_set_of_ne _ different _).trans
            (are _ (List.mem_cons_of_mem _ member)))
        apply Query.Meets.mono rest
        · exact fun _ _ inside => inside
        · exact fun _ _ failed => ⟨failed.1.of_inbox rfl, failed.2⟩
      · rintro error after ⟨excused, begun⟩ later between
        exact ⟨excused, begun_stable _ _ begun between⟩

variable (store faults tx)

/-- The sessions that a selection chooses are marked. -/
theorem applies_marks (backedUp : Bool)
    {chosen : String × String → InboundGroupSession Content → Prop}
    (conds : List (String × Value Sealed))
    (fits : ∀ {k v row}, (store.kindShelf .inboundGroupSessions).Entry k v
      row → (row.Matches (("account_key", store.account) :: conds) ↔
        chosen k v))
    {change : Record Content Sealed → Record Content Sealed}
    (grows : ∀ record, (change record).inbox = record.inbox)
    (marks : ∀ {record : Record Content Sealed} {entries},
      Listing (record.maps (.of .inboundGroupSessions)) chosen entries →
        record.markAll entries backedUp = change record) :
    Applies store faults tx
      (do
        let rows ← queryRows (some tx) (store.scopedSelect INBOUND_TABLE
          CryptoStore.MARK_COLUMNS conds)
        rows.forM fun row => store.setBackupFlag tx row backedUp)
      change where
  grows record secretName := by rw [grows]
  does := by
    intro before record shared inside
    apply Query.Meets.bind (pact.refl _)
    have reads : Does store.accountKey faults
        (queryRows (some tx) (store.scopedSelect INBOUND_TABLE
          CryptoStore.MARK_COLUMNS conds))
        (fun found after => Inside store before record tx after ∧
          ∃ entries order, Listing (record.maps (.of .inboundGroupSessions))
              chosen entries ∧
            List.Forall₂ (fun entry row =>
              (store.kindShelf .inboundGroupSessions).Entry entry.1 entry.2
                row) entries order ∧
            found = order.map (Row.project CryptoStore.MARK_COLUMNS))
        (fun error after => Inside store before record tx after ∧
          Faulty faults error) shared := by
      refine does_read inside_stable (fun inside => inside.sound) (fun _ => rfl)
        ⟨rfl, fun circumstances => ⟨_, rfl, fun inside => ?_⟩⟩ inside
      exact kind_answer .inboundGroupSessions _ inside.sees rfl rfl rfl fits
        circumstances
    apply Query.Meets.mono reads
    · rintro found after ⟨inside, entries, order, listing, related, rfl⟩
      rw [← marks listing]
      apply Query.Meets.mono (does_markAll backedUp related listing.nodup inside
        fun entry member => (listing.mem_iff.mp member).1)
      · exact fun _ _ inside => inside
      · rintro error after ⟨excused, begun⟩
        exact ⟨excused.of_inbox inbox_markAll, begun⟩
    · rintro error after ⟨inside, faulty⟩ later between
      exact ⟨.fault faulty, begun_stable _ _ inside.toBegun between⟩

omit tx

theorem saves_marks (roomAndSessionIds : List (String × String)) :
    Saves store faults
      (store.markInboundGroupSessionsAsBackedUp roomAndSessionIds)
      fun record =>
        roomAndSessionIds.foldl (fun record id => record.mark id true) record := by
  apply Saves.transaction
  intro tx
  refine Applies.forM (fun id : String × String => ?_) roomAndSessionIds
  refine applies_marks store faults tx true _ ?_ ?_ markAll_eq_mark
  · intro k v row entry
    exact entry.matches_key id
  · intro record
    unfold Record.mark
    split <;> rfl

theorem saves_reset :
    Saves store faults store.resetBackupState Record.resetMarks := by
  apply Saves.transaction
  intro tx
  refine applies_marks store faults tx false _ ?_ (fun _ => rfl)
    markAll_eq_resetMarks
  intro k v row entry
  obtain ⟨_, _, account, _⟩ := inbound_entry.mp entry
  refine ⟨fun _ => trivial, fun _ => ?_⟩
  exact List.forall_mem_singleton.mpr account

end Tables

end MiryadCore.Matrix.Crypto
