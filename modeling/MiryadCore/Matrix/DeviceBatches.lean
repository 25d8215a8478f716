import Mathlib.Data.String.Basic
import MiryadCore.Control.Pages
import MiryadCore.Matrix.CryptoChanges

/-!
# The inbound sessions of a device, in batches

A batch is ordered by the hashed ids of the sessions, and the next one begins
after the id of its last session.  Several rooms may have a session of one id.
-/

namespace MiryadCore.Matrix.Crypto

open Columns

variable {Content Sealed : Type}

namespace CryptoStore

section Definitions

variable (store : CryptoStore Content Sealed)
  (fromPickle : InboundPickle Content →
    Except String (InboundGroupSession Content))

/-- `inbound_from_sealed` -/
def inboundFromSealed (sealed : Sealed) :
    Except StoreError (InboundGroupSession Content) := do
  let pickle ← store.openInbound sealed
  (fromPickle pickle).mapError .corrupt

/-- A row of `inbound_from_rows`. -/
def inboundFromRow (row : Row (Value Sealed)) :
    Except StoreError (InboundGroupSession Content) := do
  let sealed ← getBlob row "payload"
  store.inboundFromSealed fromPickle sealed

def inboundFromRows (rows : List (Row (Value Sealed))) :
    Except StoreError (List (InboundGroupSession Content)) :=
  rows.mapM (store.inboundFromRow fromPickle)

/-- The conditions on the rows of a device. -/
def deviceConds (curveKey : String) (senderDataType : ℤ) :
    List (String × Value Sealed) :=
  [("account_key", store.account),
    ("sender_key", store.hashed INBOUND_TABLE curveKey),
    ("sender_data_type", .int senderDataType)]

def deviceSelection (curveKey : String) (senderDataType : ℤ)
    (afterSessionId : Option String) (limit : UInt64) : Selection Sealed :=
  { table := INBOUND_TABLE
    columns := ["payload"]
    conds := store.deviceConds curveKey senderDataType
    past := afterSessionId.map fun after =>
      ("session_id", store.cipher.hash INBOUND_TABLE after)
    orderBy := some "session_id"
    limit := some limit.toNat }

variable [DecidableEq Sealed]

def getInboundGroupSessionsForDeviceBatch (curveKey : String)
    (senderDataType : ℤ) (afterSessionId : Option String) (limit : UInt64) :
    StoreCode Sealed (List (InboundGroupSession Content)) := do
  let rows ← queryRows none
    (store.deviceSelection curveKey senderDataType afterSessionId limit)
  Query.ofExcept (store.inboundFromRows fromPickle rows)

/-- What a call answers on a database. -/
def deviceBatch (database : Database Sealed) (curveKey : String)
    (senderDataType : ℤ) (limit : UInt64) (circumstances : Circumstances Sealed)
    (afterSessionId : Option String) :
    Except StoreError (List (InboundGroupSession Content)) :=
  (Query.run serve circumstances
    (store.getInboundGroupSessionsForDeviceBatch fromPickle curveKey
      senderDataType afterSessionId limit) database).1

end Definitions

/-- The calls up to the first empty batch, each after the last session of the
one before. -/
inductive Batches
    (fetch : ℕ → Option String →
      Except StoreError (List (InboundGroupSession Content))) :
    ℕ → Option String → List (List (InboundGroupSession Content)) → Prop where
  | last {count : ℕ} {after : Option String} : fetch count after = .ok [] →
      Batches fetch count after []
  | more {count : ℕ} {after : Option String}
      {batch : List (InboundGroupSession Content)}
      {session : InboundGroupSession Content}
      {rest : List (List (InboundGroupSession Content))} :
      fetch count after = .ok batch → batch.getLast? = some session →
      Batches fetch (count + 1) (some session.sessionId) rest →
      Batches fetch count after (batch :: rest)

section Rows

variable (store : CryptoStore Content Sealed)
  (fromPickle : InboundPickle Content →
    Except String (InboundGroupSession Content))

/-- The row of a session, as `upsert_inbound` leaves it. -/
structure Written (row : Row (Value Sealed))
    (session : InboundGroupSession Content) : Prop where
  roomId : row "room_id" = some (store.hashed INBOUND_TABLE session.roomId)
  sessionId : row "session_id" =
    some (store.hashed INBOUND_TABLE session.sessionId)
  senderKey : row "sender_key" =
    some (store.hashed INBOUND_TABLE session.senderKey)
  senderDataType : row "sender_data_type" = some (.int session.senderDataType)
  reads : store.inboundFromRow fromPickle row = .ok session

variable [DecidableEq Sealed]

/-- The rows of the account are those of sessions. -/
def Saved (database : Database Sealed) : Prop :=
  ∀ key row, database.rows.lookup (INBOUND_TABLE, key) = some row →
    row "account_key" = some store.account →
    ∃ session, store.Written fromPickle row session

/-- The rows of a device. -/
def deviceRows (database : Database Sealed) (curveKey : String)
    (senderDataType : ℤ) : List (Row (Value Sealed)) :=
  (matching database.rows INBOUND_TABLE
    (store.deviceConds curveKey senderDataType)).map Prod.snd

/-- The session of a row. -/
def readRow (row : Row (Value Sealed)) :
    Option (InboundGroupSession Content) :=
  (store.inboundFromRow fromPickle row).toOption

/-- The sessions of a device. -/
def deviceSessions (database : Database Sealed) (curveKey : String)
    (senderDataType : ℤ) : List (InboundGroupSession Content) :=
  (store.deviceRows database curveKey senderDataType).filterMap
    (store.readRow fromPickle)

/-- The hashed ids of the sessions of a device, in order. -/
def sortedIds (database : Database Sealed) (curveKey : String)
    (senderDataType : ℤ) : List String :=
  ((store.deviceSessions fromPickle database curveKey senderDataType).map
    fun session => store.cipher.hash INBOUND_TABLE session.sessionId).mergeSort
      fun one other => one ≤ other

end Rows

/-- The row that a save brings. -/
def inboundRow (store : CryptoStore Content Sealed)
    (session : InboundGroupSession Content) (backedUp : Bool)
    (sealed : Sealed) : Row (Value Sealed) :=
  Row.ofValues
    ["account_key", "room_id", "session_id", "sender_key", "sender_data_type",
      "backed_up", "payload"]
    [store.account, store.hashed INBOUND_TABLE session.roomId,
      store.hashed INBOUND_TABLE session.sessionId,
      store.hashed INBOUND_TABLE session.senderKey,
      .int session.senderDataType, .flag backedUp, .blob sealed]

theorem written_of_save {store : CryptoStore Content Sealed}
    {fromPickle : InboundPickle Content →
      Except String (InboundGroupSession Content)}
    {session : InboundGroupSession Content} {backedUp : Bool} {sealed : Sealed}
    (encrypts : store.cipher.encryptValue
      (.inbound { session.pickle with backedUp }) = .ok sealed)
    (reads : fromPickle { session.pickle with backedUp } =
      .ok { session with pickle := { session.pickle with backedUp } }) :
    store.Written fromPickle (store.inboundRow session backedUp sealed)
      { session with pickle := { session.pickle with backedUp } } := by
  refine ⟨rfl, rfl, rfl, rfl, ?_⟩
  have payload : getBlob (store.inboundRow session backedUp sealed) "payload" =
      .ok sealed :=
    getBlob_eq_ok.mpr rfl
  have opened : store.openInbound sealed =
      .ok { session.pickle with backedUp } := by
    simp only [openInbound, store.cipher.open_encrypted encrypts]
  simp only [inboundFromRow, payload, inboundFromSealed, opened, reads,
    Except.mapError, bind, Except.bind]

section Batch

variable [DecidableEq Sealed] {store : CryptoStore Content Sealed}
  {fromPickle : InboundPickle Content →
    Except String (InboundGroupSession Content)}
  {database : Database Sealed} {curveKey : String} {senderDataType : ℤ}

/-- The hashed id in a row. -/
def hashedId (row : Row (Value Sealed)) : String :=
  match row "session_id" with
  | some (.text value) => value
  | _ => ""

theorem written_of_deviceRows (saved : store.Saved fromPickle database)
    {row : Row (Value Sealed)}
    (member : row ∈ store.deviceRows database curveKey senderDataType) :
    ∃ session, store.Written fromPickle row session := by
  obtain ⟨⟨key, found⟩, inside, rfl⟩ := List.mem_map.mp member
  obtain ⟨there, fits⟩ := mem_matching.mp inside
  exact saved key found there (fits _ List.mem_cons_self)

omit [DecidableEq Sealed] in
theorem Written.hashedId_eq {row : Row (Value Sealed)}
    {session : InboundGroupSession Content}
    (written : store.Written fromPickle row session) :
    hashedId row = store.cipher.hash INBOUND_TABLE session.sessionId := by
  unfold hashedId
  rw [written.sessionId]
  rfl

omit [DecidableEq Sealed] in
theorem Written.readRow_eq {row : Row (Value Sealed)}
    {session : InboundGroupSession Content}
    (written : store.Written fromPickle row session) :
    store.readRow fromPickle row = some session := by
  unfold readRow
  rw [written.reads]
  rfl

/-- The rows from which a batch is made. -/
def pageRows (store : CryptoStore Content Sealed)
    (database : Database Sealed) (curveKey : String) (senderDataType : ℤ)
    (limit : UInt64) (circumstances : Circumstances Sealed)
    (cursor : Option String) : List (Row (Value Sealed)) :=
  let selection : Selection Sealed :=
    { store.deviceSelection curveKey senderDataType none limit with
      past := cursor.map fun value => ("session_id", value) }
  selection.limited (selection.ordered
    (circumstances.shuffle (selection.found database.rows)).val)

theorem text_of_deviceRows (saved : store.Saved fromPickle database)
    {row : Row (Value Sealed)}
    (member : row ∈ store.deviceRows database curveKey senderDataType) :
    row "session_id" = some (.text (hashedId row)) := by
  obtain ⟨session, written⟩ := written_of_deviceRows saved member
  rw [written.hashedId_eq]
  exact written.sessionId

variable (curveKey senderDataType) in
theorem found_eq (saved : store.Saved fromPickle database) (limit : UInt64)
    (cursor : Option String) :
    Selection.found
      { store.deviceSelection curveKey senderDataType none limit with
        past := cursor.map fun value => ("session_id", value) }
      database.rows =
    Pages.left hashedId (store.deviceRows database curveKey senderDataType)
      cursor := by
  apply List.filter_congr
  intro row member
  cases cursor with
  | none => rfl
  | some cursor =>
      have text := text_of_deviceRows saved member
      simp only [Selection.isPast, Option.map_some, text, Pages.past]

omit [DecidableEq Sealed] in
/-- Rows that have an id are in the order of their ids. -/
theorem ordered_pairwise {selection : Selection Sealed}
    (orders : selection.orderBy = some "session_id")
    {rows : List (Row (Value Sealed))}
    (texts : ∀ row ∈ rows, row "session_id" = some (.text (hashedId row))) :
    (selection.ordered rows).Pairwise
      fun one other => hashedId one ≤ hashedId other := by
  have total : Std.Total fun one other : Row (Value Sealed) =>
      hashedId one ≤ hashedId other :=
    ⟨fun one other => le_total _ _⟩
  have trans : IsTrans (Row (Value Sealed)) fun one other =>
      hashedId one ≤ hashedId other :=
    ⟨fun _ _ _ => le_trans⟩
  have same : selection.ordered rows = rows.insertionSort
      fun one other => hashedId one ≤ hashedId other := by
    unfold Selection.ordered
    rw [orders]
    have mapped := List.map_insertionSort
      (fun one other : Row (Value Sealed) =>
        precedes (one "session_id") (other "session_id"))
      (fun one other : Row (Value Sealed) => hashedId one ≤ hashedId other)
      id rows (by
        intro one inside other inside'
        rw [texts one inside, texts other inside']
        rfl)
    rw [List.map_id, List.map_id] at mapped
    exact mapped
  rw [same]
  exact List.pairwise_insertionSort _ rows

variable (curveKey senderDataType) in
theorem pageRows_isPage (saved : store.Saved fromPickle database)
    (limit : UInt64) (circumstances : Circumstances Sealed)
    (cursor : Option String) :
    Pages.IsPage hashedId limit.toNat
      (store.deviceRows database curveKey senderDataType) cursor
      (store.pageRows database curveKey senderDataType limit circumstances
        cursor) := by
  have found := found_eq curveKey senderDataType saved limit cursor
  have shuffled := (circumstances.shuffle (Selection.found
    { store.deviceSelection curveKey senderDataType none limit with
      past := cursor.map fun value => ("session_id", value) }
    database.rows)).property
  refine ⟨_, ?_, ?_, rfl⟩
  · rw [← found]
    exact (List.perm_insertionSort _ _).trans shuffled
  · apply ordered_pairwise rfl
    intro row member
    have inside := shuffled.subset member
    rw [found] at inside
    exact text_of_deviceRows saved (List.mem_of_mem_filter inside)

omit [DecidableEq Sealed] in
theorem inboundFromRow_project (row : Row (Value Sealed)) :
    store.inboundFromRow fromPickle (row.project ["payload"]) =
      store.inboundFromRow fromPickle row :=
  rfl

omit [DecidableEq Sealed] in
theorem inboundFromRows_eq {rows : List (Row (Value Sealed))}
    (written : ∀ row ∈ rows, ∃ session, store.Written fromPickle row session) :
    store.inboundFromRows fromPickle (rows.map (Row.project ["payload"])) =
      .ok (rows.filterMap (store.readRow fromPickle)) := by
  unfold inboundFromRows
  induction rows with
  | nil => rfl
  | cons row rows induction =>
      obtain ⟨session, reads⟩ := written row List.mem_cons_self
      have rest := induction fun other member =>
        written other (List.mem_cons_of_mem _ member)
      rw [List.map_cons, List.mapM_cons, inboundFromRow_project, reads.reads,
        rest, List.filterMap_cons_some reads.readRow_eq]
      rfl

theorem written_of_pageRows (saved : store.Saved fromPickle database)
    {limit : UInt64} {circumstances : Circumstances Sealed}
    {cursor : Option String} {row : Row (Value Sealed)}
    (member : row ∈ store.pageRows database curveKey senderDataType limit
      circumstances cursor) :
    ∃ session, store.Written fromPickle row session := by
  obtain ⟨order, perm, _, same⟩ := pageRows_isPage curveKey senderDataType saved limit circumstances cursor
  rw [same] at member
  have inside := perm.subset (List.mem_of_mem_take member)
  exact written_of_deviceRows saved (List.mem_of_mem_filter inside)

/-- A call answers with the sessions of its page. -/
theorem deviceBatch_eq (saved : store.Saved fromPickle database)
    (limit : UInt64) {circumstances : Circumstances Sealed}
    (faultless : circumstances.fault = none) (after : Option String) :
    store.deviceBatch fromPickle database curveKey senderDataType limit
      circumstances after =
    .ok ((store.pageRows database curveKey senderDataType limit circumstances
      (after.map (store.cipher.hash INBOUND_TABLE))).filterMap
        (store.readRow fromPickle)) := by
  have written : ∀ row ∈ store.pageRows database curveKey senderDataType limit
      circumstances (after.map (store.cipher.hash INBOUND_TABLE)),
      ∃ session, store.Written fromPickle row session :=
    fun row member => written_of_pageRows saved member
  have answers := inboundFromRows_eq written
  have selection : store.deviceSelection curveKey senderDataType after limit =
      { store.deviceSelection curveKey senderDataType none limit with
        past := (after.map (store.cipher.hash INBOUND_TABLE)).map fun value =>
          ("session_id", value) } := by
    cases after with
    | none => rfl
    | some after => rfl
  have asked : (queryRows none (store.deviceSelection curveKey senderDataType
      after limit)).run serve circumstances database =
      (.ok ((store.pageRows database curveKey senderDataType limit circumstances
        (after.map (store.cipher.hash INBOUND_TABLE))).map
          (Row.project ["payload"])), database) := by
    rw [selection]
    simp only [queryRows, request, Query.askWith, Query.run, Script.run, serve,
      faultless]
    rfl
  unfold deviceBatch getInboundGroupSessionsForDeviceBatch
  rw [Query.run_bind_ok asked]
  exact answers

omit [DecidableEq Sealed] in
theorem ids_of_rows {rows : List (Row (Value Sealed))}
    (written : ∀ row ∈ rows, ∃ session, store.Written fromPickle row session) :
    (rows.filterMap (store.readRow fromPickle)).map
      (fun session => store.cipher.hash INBOUND_TABLE session.sessionId) =
    rows.map hashedId := by
  induction rows with
  | nil => rfl
  | cons row rows induction =>
      obtain ⟨session, reads⟩ := written row List.mem_cons_self
      have rest := induction fun other member =>
        written other (List.mem_cons_of_mem _ member)
      rw [List.filterMap_cons_some reads.readRow_eq, List.map_cons,
        List.map_cons, rest, reads.hashedId_eq]

variable (curveKey senderDataType) in
theorem ids_of_page (saved : store.Saved fromPickle database)
    (limit : UInt64) (circumstances : Circumstances Sealed)
    (cursor : Option String) :
    ((store.pageRows database curveKey senderDataType limit circumstances
      cursor).filterMap (store.readRow fromPickle)).map
      (fun session => store.cipher.hash INBOUND_TABLE session.sessionId) =
    (store.pageRows database curveKey senderDataType limit circumstances
      cursor).map hashedId :=
  ids_of_rows fun _ member => written_of_pageRows saved member

section Calls

variable {limit : UInt64} {envs : ℕ → Circumstances Sealed} {count : ℕ}

/-- The calls go on as the pages do. -/
theorem Batches.paging (saved : store.Saved fromPickle database)
    (faultless : ∀ count, (envs count).fault = none) {after : Option String}
    {batches : List (List (InboundGroupSession Content))}
    (batched : Batches (fun count => store.deviceBatch fromPickle database
      curveKey senderDataType limit (envs count)) count after batches) :
    ∃ pages, Pages.Paging hashedId
        (fun count => store.pageRows database curveKey senderDataType limit
          (envs count)) count
        (after.map (store.cipher.hash INBOUND_TABLE)) pages ∧
      batches = pages.map (List.filterMap (store.readRow fromPickle)) := by
  induction batched with
  | @last count after fetched =>
      have read := (deviceBatch_eq saved limit (faultless count)
        after).symm.trans fetched
      have ids := ids_of_page curveKey senderDataType saved limit (envs count)
        (after.map (store.cipher.hash INBOUND_TABLE))
      rw [Except.ok.inj read] at ids
      exact ⟨[], .last (List.map_eq_nil_iff.mp ids.symm), rfl⟩
  | @more count after batch session rest fetched ends batched induction =>
      obtain ⟨pages, paging, rfl⟩ := induction
      have read := (deviceBatch_eq saved limit (faultless count)
        after).symm.trans fetched
      have ids := congrArg List.getLast? (ids_of_page curveKey senderDataType saved limit (envs count)
        (after.map (store.cipher.hash INBOUND_TABLE)))
      obtain rfl := Except.ok.inj read
      rw [List.getLast?_map, List.getLast?_map, ends, Option.map_some] at ids
      obtain ⟨row, final, same⟩ := Option.map_eq_some_iff.mp ids.symm
      rw [Option.map_some, ← same] at paging
      exact ⟨_, .more final paging, rfl⟩

/-- The pages go on as the calls do. -/
theorem batches_of_paging (saved : store.Saved fromPickle database)
    (faultless : ∀ count, (envs count).fault = none) {cursor : Option String}
    {pages : List (List (Row (Value Sealed)))}
    (paging : Pages.Paging hashedId
      (fun count => store.pageRows database curveKey senderDataType limit
        (envs count)) count cursor pages) :
    ∀ after : Option String,
      after.map (store.cipher.hash INBOUND_TABLE) = cursor →
      Batches (fun count => store.deviceBatch fromPickle database curveKey
        senderDataType limit (envs count)) count after
        (pages.map (List.filterMap (store.readRow fromPickle))) := by
  induction paging with
  | @last count cursor empty =>
      rintro after rfl
      apply Batches.last
      rw [deviceBatch_eq saved limit (faultless count), empty]
      rfl
  | @more count cursor row rest ends paging induction =>
      rintro after rfl
      have ids := congrArg List.getLast? (ids_of_page curveKey senderDataType saved limit (envs count)
        (after.map (store.cipher.hash INBOUND_TABLE)))
      rw [List.getLast?_map, List.getLast?_map, ends, Option.map_some] at ids
      obtain ⟨session, final, same⟩ := Option.map_eq_some_iff.mp ids
      apply Batches.more (deviceBatch_eq saved limit (faultless count) after)
        final
      exact induction (some session.sessionId) (congrArg some same)

/-- Repeated until a batch is empty, the calls return each session of the
device once exactly when no batch ends between two sessions of one id. -/
theorem deviceBatches_complete_iff (saved : store.Saved fromPickle database)
    (positive : 0 < limit.toNat)
    (faultless : ∀ count, (envs count).fault = none) :
    (∃ batches, Batches (fun count => store.deviceBatch fromPickle database
      curveKey senderDataType limit (envs count)) 0 none batches) ∧
    ∀ batches, Batches (fun count => store.deviceBatch fromPickle database
        curveKey senderDataType limit (envs count)) 0 none batches →
      (batches.flatten.Perm (store.deviceSessions fromPickle database curveKey
          senderDataType) ↔
        Pages.Aligned limit.toNat (store.sortedIds fromPickle database curveKey
          senderDataType)) := by
  have isPage := fun count cursor => pageRows_isPage curveKey senderDataType saved limit (envs count) cursor
  have whole : Pages.left hashedId
      (store.deviceRows database curveKey senderDataType) none =
      store.deviceRows database curveKey senderDataType :=
    List.filter_eq_self.mpr fun _ _ => rfl
  have ids : ((store.deviceSessions fromPickle database curveKey
      senderDataType).map fun session =>
        store.cipher.hash INBOUND_TABLE session.sessionId) =
      (store.deviceRows database curveKey senderDataType).map hashedId := by
    unfold deviceSessions
    exact ids_of_rows fun row member => written_of_deviceRows saved member
  have keys : Pages.sortedKeys hashedId
      (store.deviceRows database curveKey senderDataType) none =
      store.sortedIds fromPickle database curveKey senderDataType := by
    unfold Pages.sortedKeys sortedIds
    rw [whole, ids]
  constructor
  · obtain ⟨pages, paging⟩ := Pages.exists_paging isPage 0 none
    exact ⟨_, batches_of_paging saved faultless paging none rfl⟩
  · intro batches batched
    obtain ⟨pages, paging, rfl⟩ := batched.paging saved faultless
    have counted := paging.rows_of isPage positive
    rw [Option.map_none, whole, keys] at counted
    obtain ⟨complete, short⟩ := counted
    rw [← List.filterMap_flatten]
    constructor
    · intro perm
      by_contra misaligned
      have fewer := short misaligned
      have total := perm.length_eq
      have lengths := congrArg List.length ids
      have bound := List.length_filterMap_le (store.readRow fromPickle)
        pages.flatten
      simp only [List.length_map] at lengths
      omega
    · intro aligned
      unfold deviceSessions
      exact (complete aligned).filterMap _

end Calls

end Batch

/-- A store that keeps what it is given as it is. -/
def openStore : CryptoStore String (Plain String) where
  accountKey := "bot"
  cipher :=
    { hash := fun _ value => value
      encryptValue := .ok
      openSealed := .ok
      hash_injective := fun _ => Function.injective_id
      open_encrypted := fun same => same.symm }

/-- The session `s` of a room. -/
def roomSession (room : String) : InboundGroupSession String :=
  { roomId := room, sessionId := "s", senderKey := "k", senderDataType := 1
    pickle := { backedUp := false, content := room } }

/-- The content of a pickle tells the room. -/
def readPickle (pickle : InboundPickle String) :
    Except String (InboundGroupSession String) :=
  .ok { roomSession pickle.content with pickle }

/-- The sessions of the rooms. -/
def savedRooms (rooms : List String) : Database (Plain String) :=
  { rows := rooms.foldr
      (fun room rows => rows.insert
        (INBOUND_TABLE, [openStore.account, .text room, .text "s"])
        (openStore.inboundRow (roomSession room) false
          (.inbound (roomSession room).pickle))) ∅
    writes := []
    transactions := 0 }

theorem savedRooms_saved (rooms : List String) :
    openStore.Saved readPickle (savedRooms rooms) := by
  intro key row found _
  induction rooms with
  | nil => cases found
  | cons room rooms induction =>
      by_cases here : (INBOUND_TABLE, key) =
          (INBOUND_TABLE, [openStore.account, .text room, .text "s"])
      · have latest : (savedRooms (room :: rooms)).rows.lookup
            (INBOUND_TABLE, key) =
            some (openStore.inboundRow (roomSession room) false
              (.inbound (roomSession room).pickle)) := by
          rw [here]
          exact AList.lookup_insert _
        rw [latest] at found
        obtain rfl := Option.some.inj found
        exact ⟨_, written_of_save rfl rfl⟩
      · apply induction
        rw [← found]
        exact (AList.lookup_insert_ne here).symm

/-- No statement fails. -/
def steady : Circumstances (Plain String) where
  fault := none
  shuffle := fun rows => ⟨rows, List.Perm.refl _⟩

theorem deviceBatches_of_rooms :
    (∃ batches, Batches (fun _ => openStore.deviceBatch readPickle
      (savedRooms ["a", "b", "c"]) "k" 1 2 steady) 0 none batches) ∧
    ∀ batches, Batches (fun _ => openStore.deviceBatch readPickle
        (savedRooms ["a", "b", "c"]) "k" 1 2 steady) 0 none batches →
      (batches.flatten.Perm (openStore.deviceSessions readPickle
          (savedRooms ["a", "b", "c"]) "k" 1) ↔
        Pages.Aligned 2 (openStore.sortedIds readPickle
          (savedRooms ["a", "b", "c"]) "k" 1)) :=
  deviceBatches_complete_iff (savedRooms_saved ["a", "b", "c"]) (by decide)
    fun _ => rfl

/-- The session of the other room is not returned. -/
theorem deviceBatches_not_complete :
    ¬ ∀ (limit : UInt64) (batches : List (List (InboundGroupSession String))),
      0 < limit.toNat →
      Batches (fun _ => openStore.deviceBatch readPickle
        (savedRooms ["a", "b"]) "k" 1 limit steady) 0 none batches →
      batches.flatten.Perm
        (openStore.deviceSessions readPickle (savedRooms ["a", "b"]) "k" 1) := by
  intro complete
  have batches : Batches (fun _ => openStore.deviceBatch readPickle
      (savedRooms ["a", "b"]) "k" 1 1 steady) 0 none [[roomSession "a"]] :=
    .more rfl rfl (.last rfl)
  have perm := complete 1 _ (by decide) batches
  exact absurd perm.length_eq (by decide)

end CryptoStore

end MiryadCore.Matrix.Crypto
