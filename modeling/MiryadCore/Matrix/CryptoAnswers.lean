import MiryadCore.Matrix.CryptoCalls
import MiryadCore.Matrix.CryptoMarks

/-!
# The getters answer as the record

A getter finds in the tables what the record of its account holds, whatever the
other accounts do meanwhile.  The rows of a list come in any order, but for the
secrets of the inbox, which come as they arrived.
-/

namespace MiryadCore.Matrix.Crypto

open Columns
open Users (DbErr)

variable {Content Sealed : Type}

section Reads

variable [DecidableEq Sealed] (store : CryptoStore Content Sealed)
  (faults : DbErr → Prop) (record : Record Content Sealed)

/-- The code ends with a result that is right, unless a request fails, and
leaves the record as it is. -/
def Answers {α : Type} (code : StoreCode Sealed α)
    (right : Except StoreError α → Prop) : Prop :=
  ∀ shared, Stored store record shared →
    Script.Meets (fun conditions : Conditions Sealed faults =>
        serveTo store.accountKey conditions.val)
      (pact.rely store.accountKey) (pact.guar store.accountKey) code
      (fun result after => Stored store record after ∧
        (right result ∨ ∃ error, Faulty faults error ∧ result = .error error))
      shared

namespace Answers

variable {store faults record} {α β : Type} {code : StoreCode Sealed α}
  {right : Except StoreError α → Prop}

theorem mono {right' : Except StoreError α → Prop}
    (answers : Answers store faults record code right)
    (weaker : ∀ result, right result → right' result) :
    Answers store faults record code right' := by
  intro shared stored
  apply Script.Meets.mono (answers shared stored)
  rintro result after ⟨stored, found | failed⟩
  · exact ⟨stored, Or.inl (weaker _ found)⟩
  · exact ⟨stored, Or.inr failed⟩

theorem done {result : Except StoreError α} (is : right result) :
    Answers store faults record (Query.ofExcept result) right :=
  fun _ stored _ between => ⟨stored_stable _ _ stored between, Or.inl is⟩

theorem bind {next : α → StoreCode Sealed β}
    {final : Except StoreError β → Prop}
    (answers : Answers store faults record code right)
    (goes : ∀ value, right (.ok value) →
      Answers store faults record (next value) final)
    (fails : ∀ error, right (.error error) → final (.error error)) :
    Answers store faults record (code >>= next) final := by
  intro shared stored
  apply Script.Meets.bind (pact.refl _)
  apply Script.Meets.mono (answers shared stored)
  rintro result after ⟨stored, found⟩
  cases result with
  | ok value =>
      rcases found with is | ⟨_, _, same⟩
      · exact goes value is after stored
      · cases same
  | error error =>
      intro later between
      refine ⟨stored_stable _ _ stored between, ?_⟩
      rcases found with is | failed
      · exact Or.inl (fails error is)
      · obtain ⟨cause, faulty, same⟩ := failed
        cases same
        exact Or.inr ⟨_, faulty, rfl⟩

theorem exactly {value : α} {next : α → StoreCode Sealed β}
    {final : Except StoreError β → Prop}
    (answers : Answers store faults record code fun result =>
      result = .ok value)
    (goes : Answers store faults record (next value) final) :
    Answers store faults record (code >>= next) final := by
  apply answers.bind
  · rintro _ same
    rw [Except.ok.inj same]
    exact goes
  · rintro _ same
    cases same

theorem read {asked : Request Sealed} {right : asked.Reply → Prop}
    (quiet : ∀ answer, begins asked answer = none)
    (reads : ∀ {shared : Shared Sealed},
      abandoned shared.database asked = shared.database ∧
      ∀ circumstances, ∃ reply,
        perform circumstances shared.database asked =
          (.ok reply, shared.database) ∧
        (Stored store record shared → right reply)) :
    Answers store faults record (request asked)
      fun result => ∃ reply, result = .ok reply ∧ right reply := by
  intro shared stored
  apply Script.Meets.mono (does_read stored_stable (fun stored => stored.sound)
    quiet reads stored)
  intro result after ends
  cases result with
  | ok reply => exact ⟨ends.1, Or.inl ⟨reply, rfl, ends.2⟩⟩
  | error error => exact ⟨ends.1, Or.inr ⟨error, ends.2, rfl⟩⟩

end Answers

end Reads

section Payloads

variable {store : CryptoStore Content Sealed} {kind : Kind}
  {held : kind.Held Content} {index : kind.Index} {row : Row (Value Sealed)}
  {α : Type}

theorem payload_mem {plain : Plain Content} (is : kind.plain held = some plain) :
    "payload" ∈ kind.others := by
  cases kind with
  | messageHashes | downloadedRoomKeys => cases is
  | _ => decide

theorem payload_of_entry {plain : Plain Content}
    (entry : (store.kindShelf kind).Entry index held row)
    (is : kind.plain held = some plain) :
    ∃ sealed, row "payload" = some (.blob sealed) ∧
      store.cipher.openSealed sealed = .ok plain := by
  obtain ⟨values, cells, has⟩ := entry.others
  have cells : store.Cells kind held values := cells
  unfold CryptoStore.Cells at cells
  rw [is] at cells
  obtain ⟨_, ⟨sealed, rfl, opens⟩, rfl⟩ := cells
  refine ⟨sealed, ?_, opens⟩
  rw [has.apply_eq "payload" (payload_mem is)]
  cases kind with
  | messageHashes | downloadedRoomKeys => cases is
  | _ => rfl

theorem payloadAs_eq {plain : Plain Content} {type : Plain Content → Option α}
    {value : α} (entry : (store.kindShelf kind).Entry index held row)
    (is : kind.plain held = some plain) (typed : type plain = some value) :
    store.payloadAs type (Row.project ["payload"] row) = .ok value := by
  obtain ⟨sealed, payload, opens⟩ := payload_of_entry entry is
  have blob : getBlob (Row.project ["payload"] row) "payload" = .ok sealed :=
    getBlob_eq_ok.mpr payload
  rw [CryptoStore.payloadAs, blob]
  change store.openAs type sealed = .ok value
  simp only [CryptoStore.openAs, opens, typed]

theorem mapM_of_forall₂ {β ε : Type} {entries : List β}
    {rows : List (Row (Value Sealed))}
    {opens : Row (Value Sealed) → Except ε α} {gives : β → Except ε α}
    (same : List.Forall₂ (fun entry row => opens row = gives entry) entries
      rows) : rows.mapM opens = entries.mapM gives := by
  induction same with
  | nil => rfl
  | cons first rest induction =>
      rw [List.mapM_cons, List.mapM_cons, first, induction]

theorem mapM_ok {β ε : Type} (gives : β → α) (entries : List β) :
    entries.mapM (fun entry => (.ok (gives entry) : Except ε α)) =
      .ok (entries.map gives) := by
  induction entries with
  | nil => rfl
  | cons entry entries induction =>
      rw [List.mapM_cons, induction]
      rfl

end Payloads

section Single

variable [DecidableEq Sealed] {store : CryptoStore Content Sealed}
  {record : Record Content Sealed}
  {rows : AList fun _ : Key (Value Sealed) => Row (Value Sealed)}
  {selection : Selection Sealed}

/-- The row that a selection of a whole key finds. -/
theorem part_answer (holds : store.cabinet.Holds record.drawers rows)
    (part : Part) (index : part.Index)
    (table : selection.table = (store.partShelf part).table)
    (conds : selection.conds = (store.partShelf part).keys.zip
      ((store.partShelf part).place index))
    (whole : selection.past = none ∧ selection.orderBy = none ∧
      selection.limit = none) (circumstances : Circumstances Sealed) :
    (record.maps part index = none ∧
      selection.answer circumstances rows = []) ∨
    ∃ held row, record.maps part index = some held ∧
      (store.partShelf part).Entry index held row ∧
      selection.answer circumstances rows =
        [Row.project selection.columns row] := by
  have keeps := holds.keeps (Drawer.map part)
  obtain ⟨entries, order, listing, related, answer⟩ :=
    exists_answer (fun k _ => k = index) selection keeps table whole.1 (by
        intro key row there matched
        rw [conds] at matched
        have place := ((holds.keyed there).matches_iff
          (store.cabinet.known (Drawer.map part))
          ((store.partShelf part).long index)).mp matched
        rw [show key = _ from place]
        exact (store.partShelf part).own index) (by
        intro k v row entry
        rw [conds]
        exact entry.matches_key index) circumstances
  have plain : selection.limited (selection.ordered order) = order := by
    rw [Selection.limited, whole.2.2, Selection.ordered, whole.2.1]
  rw [plain] at answer
  rw [answer]
  rw [listing.single Iff.rfl] at related
  cases is : record.drawers (.map part) index with
  | none =>
      rw [is] at related
      cases related
      exact Or.inl ⟨is, rfl⟩
  | some held =>
      rw [is] at related
      cases related with
      | cons entry rest =>
          cases rest
          exact Or.inr ⟨held, _, is, entry, rfl⟩

variable {faults : DbErr → Prop} {α : Type}

theorem answers_part (part : Part) (index : part.Index)
    (table : selection.table = (store.partShelf part).table)
    (conds : selection.conds = (store.partShelf part).keys.zip
      ((store.partShelf part).place index))
    (whole : selection.past = none ∧ selection.orderBy = none ∧
      selection.limit = none) :
    Answers store faults record (queryRows none selection)
      fun result => ∃ rows, result = .ok rows ∧
        ((record.maps part index = none ∧ rows = []) ∨
        ∃ held row, record.maps part index = some held ∧
          (store.partShelf part).Entry index held row ∧
          rows = [Row.project selection.columns row]) :=
  Answers.read (fun _ => rfl) ⟨rfl, fun circumstances => ⟨_, rfl, fun stored =>
    part_answer stored.holds part index table conds whole circumstances⟩⟩

/-- The object at a key of a kind. -/
theorem answers_onePayload (kind : Kind) (index : kind.Index)
    {conds : List (String × Value Sealed)}
    {type : Plain Content → Option (kind.Held Content)}
    (typed : ∀ held, (kind.plain held).bind type = some held)
    (place : ("account_key", store.account) :: conds =
      (store.kindShelf kind).keys.zip ((store.kindShelf kind).place index)) :
    Answers store faults record
      (store.onePayload type (store.scopedSelect kind.table ["payload"] conds))
      fun result => result = .ok (record.maps (.of kind) index) := by
  apply Answers.bind (answers_part (.of kind) index rfl place ⟨rfl, rfl, rfl⟩)
  · rintro rows ⟨_, same, found⟩
    obtain rfl := Except.ok.inj same
    rcases found with ⟨is, rfl⟩ | ⟨held, row, is, entry, rfl⟩
    · rw [is]
      exact Answers.done rfl
    · rw [is]
      obtain ⟨plain, sealed, typed⟩ := Option.bind_eq_some_iff.mp (typed held)
      have opens := payloadAs_eq entry sealed typed
      dsimp only [List.head?_cons, CryptoStore.scopedSelect]
      rw [opens]
      exact Answers.done rfl
  · rintro error ⟨_, same, _⟩
    cases same

/-- The object at a key of the table of values. -/
theorem answers_getSealed (part : Part) (index : part.Index) {key : String}
    {type : Plain Content → Option (part.Held Content Sealed)}
    (table : (store.partShelf part).table = KV_TABLE)
    (place : (store.partShelf part).keys.zip
      ((store.partShelf part).place index) =
        [("account_key", store.account), ("key", .text key)])
    (opens : ∀ {held row}, (store.partShelf part).Entry index held row →
      ∃ sealed plain, row "value" = some (.blob sealed) ∧
        store.cipher.openSealed sealed = .ok plain ∧
        type plain = some held) :
    Answers store faults record (store.getSealed type key)
      fun result => result = .ok (record.maps part index) := by
  apply Answers.bind (answers_part part index table.symm place.symm
    ⟨rfl, rfl, rfl⟩)
  · rintro rows ⟨_, same, found⟩
    obtain rfl := Except.ok.inj same
    rcases found with ⟨is, rfl⟩ | ⟨held, row, is, entry, rfl⟩
    · rw [is]
      exact Answers.done rfl
    · rw [is]
      obtain ⟨sealed, plain, value, opens, typed⟩ := opens entry
      have blob : getBlob (Row.project ["value"] row) "value" = .ok sealed :=
        getBlob_eq_ok.mpr value
      have opened : store.openAs type sealed = .ok held := by
        simp only [CryptoStore.openAs, opens, typed]
      dsimp only [List.head?_cons, CryptoStore.scopedSelect]
      simp only [blob, ofExcept_ok_bind, opened]
      exact Answers.done rfl
  · rintro error ⟨_, same, _⟩
    cases same

theorem answers_slot (slot : Slot)
    {type : Plain Content → Option (slot.Held Content)}
    (typed : ∀ held, type (slot.plain held) = some held) :
    Answers store faults record (store.getSealed type slot.key)
      fun result => result = .ok (record.slot slot) := by
  apply answers_getSealed (.slot slot) () rfl rfl
  rintro held row ⟨_, ⟨_, ⟨sealed, rfl, opens⟩, rfl⟩, has⟩
  obtain - | ⟨_, - | ⟨_, - | ⟨value, -⟩⟩⟩ := has
  exact ⟨sealed, _, value, opens, typed held⟩

theorem answers_custom (key : String) :
    Answers store faults record (store.getCustomValue key)
      fun result => result = .ok (record.maps .customValues key) := by
  apply answers_getSealed .customValues key rfl rfl
  rintro held row ⟨_, ⟨_, ⟨sealed, rfl, opens⟩, rfl⟩, has⟩
  obtain - | ⟨_, - | ⟨_, - | ⟨value, -⟩⟩⟩ := has
  exact ⟨sealed, _, value, opens, rfl⟩

end Single

section Lists

variable [DecidableEq Sealed] {store : CryptoStore Content Sealed}
  {faults : DbErr → Prop} {record : Record Content Sealed} {kind : Kind}
  {α : Type}

theorem answers_kind (kind : Kind) (chosen : kind.Index → kind.Held Content → Prop)
    {selection : Selection Sealed} {conds : List (String × Value Sealed)}
    (table : selection.table = kind.table)
    (account : selection.conds = ("account_key", store.account) :: conds)
    (whole : selection.past = none ∧ selection.orderBy = none)
    (fits : ∀ {k v row}, (store.kindShelf kind).Entry k v row →
      (row.Matches selection.conds ↔ chosen k v)) :
    Answers store faults record (queryRows none selection)
      fun result => ∃ rows, result = .ok rows ∧ ∃ entries order,
        Listing (record.maps (.of kind)) chosen entries ∧
        List.Forall₂ (fun entry row =>
          (store.kindShelf kind).Entry entry.1 entry.2 row) entries order ∧
        rows = (selection.limited order).map
          (Row.project selection.columns) := by
  refine Answers.read (fun _ => rfl) ⟨rfl, fun circumstances => ⟨_, rfl,
    fun stored => ?_⟩⟩
  obtain ⟨entries, order, listing, related, answer⟩ := kind_answer kind
    selection stored.holds table account whole.1 fits circumstances
  refine ⟨entries, order, listing, related, answer.trans ?_⟩
  rw [Selection.ordered, whole.2]

/-- The objects of a kind that are chosen. -/
theorem answers_allPayloads (kind : Kind)
    (chosen : kind.Index → kind.Held Content → Prop)
    {conds : List (String × Value Sealed)}
    {type : Plain Content → Option (kind.Held Content)}
    (typed : ∀ held, (kind.plain held).bind type = some held)
    (fits : ∀ {k v row}, (store.kindShelf kind).Entry k v row →
      (row.Matches (("account_key", store.account) :: conds) ↔ chosen k v)) :
    Answers store faults record
      (store.allPayloads type (store.scopedSelect kind.table ["payload"] conds))
      fun result => ∃ entries, record.Lists kind chosen entries ∧
        result = .ok (entries.map Prod.snd) := by
  apply Answers.bind (answers_kind kind chosen rfl rfl ⟨rfl, rfl⟩ fits)
  · rintro rows ⟨_, same, entries, order, listing, related, rfl⟩
    obtain rfl := Except.ok.inj same
    refine Answers.done ⟨entries, listing, ?_⟩
    rw [← mapM_ok]
    apply mapM_of_forall₂
    rw [List.forall₂_map_right_iff]
    apply related.imp
    intro entry row found
    obtain ⟨plain, sealed, typed⟩ :=
      Option.bind_eq_some_iff.mp (typed entry.2)
    exact payloadAs_eq found sealed typed
  · rintro error ⟨_, same, _⟩
    cases same

variable {fromPickle : InboundPickle Content →
  Except String (InboundGroupSession Content)}

omit [DecidableEq Sealed] in
theorem inboundFromRow_eq {id : String × String}
    {session : InboundGroupSession Content} {row : Row (Value Sealed)}
    (entry : (store.kindShelf .inboundGroupSessions).Entry id session row) :
    store.inboundFromRow fromPickle (Row.project ["payload"] row) =
      opened fromPickle session := by
  obtain ⟨sealed, payload, opens⟩ := payload_of_entry entry rfl
  have blob : getBlob (Row.project ["payload"] row) "payload" = .ok sealed :=
    getBlob_eq_ok.mpr payload
  have pickle : store.openInbound sealed = .ok session.pickle := by
    rw [CryptoStore.openInbound, opens]
  rw [CryptoStore.inboundFromRow, blob]
  change store.inboundFromSealed fromPickle sealed = _
  rw [CryptoStore.inboundFromSealed, pickle]
  rfl

theorem forall₂_limitTo {β γ : Type} {related : β → γ → Prop} {one : List β}
    {other : List γ} (limit : Option ℕ) (all : List.Forall₂ related one other) :
    List.Forall₂ related (limitTo limit one) (limitTo limit other) := by
  cases limit with
  | none => exact all
  | some limit => exact List.forall₂_take limit all

variable (fromPickle) in
/-- The inbound sessions of a selection, perhaps limited. -/
theorem answers_inbound
    (chosen : String × String → InboundGroupSession Content → Prop)
    {selection : Selection Sealed} {conds : List (String × Value Sealed)}
    (table : selection.table = INBOUND_TABLE)
    (account : selection.conds = ("account_key", store.account) :: conds)
    (whole : selection.past = none ∧ selection.orderBy = none)
    (columns : selection.columns = ["payload"])
    (fits : ∀ {k v row}, (store.kindShelf .inboundGroupSessions).Entry k v
      row → (row.Matches selection.conds ↔ chosen k v)) :
    Answers store faults record (store.inboundSessions fromPickle selection)
      fun result => ∃ entries,
        Listing (record.maps (.of .inboundGroupSessions)) chosen entries ∧
        result = (limitTo selection.limit entries).mapM
          fun entry => opened fromPickle entry.2 := by
  apply Answers.bind (answers_kind .inboundGroupSessions chosen table account
    whole fits)
  · rintro rows ⟨_, same, entries, order, listing, related, rfl⟩
    obtain rfl := Except.ok.inj same
    refine Answers.done ⟨entries, listing, ?_⟩
    have limited : selection.limited order = limitTo selection.limit order := by
      unfold Selection.limited limitTo
      cases selection.limit <;> rfl
    rw [limited, columns]
    apply mapM_of_forall₂
    rw [List.forall₂_map_right_iff]
    apply (forall₂_limitTo selection.limit related).imp
    exact fun _ _ entry => inboundFromRow_eq entry
  · rintro error ⟨_, same, _⟩
    cases same

omit [DecidableEq Sealed] in
theorem head_of_mapM {id : String × String}
    {entries : List ((String × String) × InboundGroupSession Content)}
    (listing : Listing (record.maps (.of .inboundGroupSessions))
      (fun other _ => other = id) entries) :
    (entries.mapM fun entry => opened fromPickle entry.2).map List.head? =
      match record.maps (.of .inboundGroupSessions) id with
      | none => .ok none
      | some session => (opened fromPickle session).map some := by
  rw [listing.single Iff.rfl]
  cases record.maps (.of .inboundGroupSessions) id with
  | none => rfl
  | some session =>
      dsimp only [Option.map_some, Option.toList_some]
      rw [List.mapM_cons, List.mapM_nil]
      cases opened fromPickle session with
      | ok session => rfl
      | error error => rfl

theorem answers_inboundGroupSession (roomId sessionId : String) :
    Answers store faults record
      (store.getInboundGroupSession fromPickle roomId sessionId)
      fun result => result =
        match record.maps (.of .inboundGroupSessions) (roomId, sessionId) with
        | none => .ok none
        | some session => (opened fromPickle session).map some := by
  apply Answers.bind (answers_inbound fromPickle
    (fun id _ => id = (roomId, sessionId)) rfl rfl ⟨rfl, rfl⟩ rfl
    fun entry => entry.matches_key (roomId, sessionId))
  · rintro sessions ⟨entries, listing, same⟩
    refine Answers.done ?_
    rw [← head_of_mapM listing]
    exact congrArg (Except.map List.head?) same
  · rintro error ⟨entries, listing, same⟩
    rw [← head_of_mapM listing]
    exact congrArg (Except.map List.head?) same

end Lists

end MiryadCore.Matrix.Crypto
