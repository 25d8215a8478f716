import MiryadCore.Control.Logged
import MiryadCore.Matrix.Kv

/-!
# Openings of one account agree

A cipher that was made is with one call until that call inserts it, so that no
two accounts come to have the same one.  A row of a cipher is written once, and
each opening goes by the row that it read last.
-/

namespace MiryadCore.Matrix.Kv

variable {Cipher Payload Bytes : Type} {crates : Crates Cipher Payload Bytes}
  {table : Table Bytes}

/-- The cipher was exported to this value with this passphrase. -/
def Crates.Exported (crates : Crates Cipher Payload Bytes)
    (passphrase : String) (cipher : Cipher) (value : Bytes) : Prop :=
  ∃ salt, crates.exportCipher salt passphrase cipher = .ok value

theorem Crates.Documented.exported_inj (documented : crates.Documented)
    {passphrase passphrase' : String} {cipher cipher' : Cipher} {value : Bytes}
    (exported : crates.Exported passphrase cipher value)
    (exported' : crates.Exported passphrase' cipher' value) :
    passphrase = passphrase' ∧ cipher = cipher' := by
  obtain ⟨salt, gives⟩ := exported
  obtain ⟨salt', gives'⟩ := exported'
  apply (documented.import_exported gives' passphrase cipher).mp
  exact (documented.import_exported gives passphrase cipher).mpr ⟨rfl, rfl⟩

/-- The cipher is one of those made so far. -/
def Table.Made (crates : Crates Cipher Payload Bytes) (table : Table Bytes)
    (cipher : Cipher) : Prop :=
  ∃ index < table.made, crates.fresh index = cipher

/-- The cipher is not in a row. -/
def Table.Unused (crates : Crates Cipher Payload Bytes) (table : Table Bytes)
    (cipher : Cipher) : Prop :=
  ∀ accountKey value passphrase, table.cipherRow accountKey = some value →
    ¬ crates.Exported passphrase cipher value

/-- The ciphers of the accounts were made here, each for one account. -/
structure Founded (crates : Crates Cipher Payload Bytes)
    (table : Table Bytes) : Prop where
  exported : ∀ {accountKey value}, table.cipherRow accountKey = some value →
    ∃ passphrase cipher, table.Made crates cipher ∧
      crates.Exported passphrase cipher value
  apart : ∀ {one other mine theirs passphrase passphrase' cipher},
    table.cipherRow one = some mine → table.cipherRow other = some theirs →
    crates.Exported passphrase cipher mine →
    crates.Exported passphrase' cipher theirs → one = other

theorem founded_empty (crates : Crates Cipher Payload Bytes) (made : ℕ) :
    Founded crates { made, rows := ∅ } := by
  constructor
  · intro accountKey value found
    cases found
  · intro one other mine theirs passphrase passphrase' cipher found
    cases found

/-- What a call has learnt. -/
inductive Stage (Cipher Bytes : Type) where
  | free (call : Call Cipher Bytes)
  | made (accountKey passphrase : String) (cipher : Cipher)
  | exported (accountKey passphrase : String) (cipher : Cipher) (value : Bytes)
  | read (accountKey passphrase : String) (value : Bytes)

namespace Stage

def allows : Stage Cipher Bytes → Request Bytes → Prop
  | .free (.openKv accountKey _), .select asked key =>
      asked = accountKey ∧ key = CIPHER_KEY
  | .free (.openKv _ _), .newCipher => True
  | .free (.get _ _), .select _ _ => True
  | .free (.put _ _ _ _), .insert _ key _ _ => key ≠ CIPHER_KEY
  | .free (.delete _ _ _), .delete _ key => key ≠ CIPHER_KEY
  | .made _ _ _, .salt => True
  | .exported accountKey _ _ value, request =>
      request = .insert accountKey CIPHER_KEY value .doNothing
  | _, _ => False

def next (crates : Crates Cipher Payload Bytes) :
    Stage Cipher Bytes → (request : Request Bytes) → request.Reply Cipher →
      Stage Cipher Bytes
  | .free (.openKv accountKey passphrase), .select _ _, .ok (some value) =>
      .read accountKey passphrase value
  | .free (.openKv accountKey passphrase), .newCipher, .ok cipher =>
      .made accountKey passphrase cipher
  | .made accountKey passphrase cipher, .salt, salt =>
      match crates.exportCipher salt passphrase cipher with
      | .ok value => .exported accountKey passphrase cipher value
      | .error _ => .free (.openKv accountKey passphrase)
  | .exported accountKey passphrase _ _, .insert _ _ _ _, _ =>
      .free (.openKv accountKey passphrase)
  | stage, _, _ => stage

/-- The cipher that a call has made and not inserted. -/
def token : Stage Cipher Bytes → Option Cipher
  | .made _ _ cipher | .exported _ _ cipher _ => some cipher
  | .free _ | .read _ _ _ => none

/-- What holds of the table at a stage. -/
def Holds (crates : Crates Cipher Payload Bytes) (table : Table Bytes) :
    Stage Cipher Bytes → Prop
  | .free _ => True
  | .made _ _ cipher =>
      table.Made crates cipher ∧ table.Unused crates cipher
  | .exported _ passphrase cipher value =>
      table.Made crates cipher ∧ table.Unused crates cipher ∧
        crates.Exported passphrase cipher value
  | .read accountKey _ value => table.cipherRow accountKey = some value

end Stage

/-- A call carries the cipher of the row that it read. -/
def Ends (crates : Crates Cipher Payload Bytes) :
    Call Cipher Bytes → Stage Cipher Bytes → Answer Cipher Bytes → Prop
  | .openKv accountKey passphrase, stage, .opened (.ok kv) =>
      kv.accountKey = accountKey ∧
        ∃ value, stage = .read accountKey passphrase value ∧
          crates.importCipher passphrase value = .ok kv.cipher
  | .openKv _ _, _, .opened (.error _) => True
  | .openKv _ _, _, _ => False
  | _, _, _ => True

def protocol (crates : Crates Cipher Payload Bytes) :
    Protocol (Call Cipher Bytes) (Request Bytes) (Request.Reply Cipher)
      (Answer Cipher Bytes) (Stage Cipher Bytes) where
  start := .free
  allows := Stage.allows
  next := Stage.next crates
  ends := Ends crates

theorem imported_obeys {accountKey passphrase : String} {value : Bytes} :
    Script.Obeys (protocol crates)
      (Query.ofExcept (importCipher crates passphrase value) :
        Code Cipher Bytes Cipher)
      (.read accountKey passphrase value)
      fun stage result => ∀ cipher, result = .ok cipher →
        ∃ value, stage = .read accountKey passphrase value ∧
          crates.importCipher passphrase value = .ok cipher := by
  intro cipher same
  exact ⟨value, rfl, Logged.mapError_eq_ok.mp same⟩

theorem createCipher_obeys (accountKey passphrase : String) :
    Script.Obeys (protocol crates)
      (createCipher crates accountKey passphrase)
      (.free (.openKv accountKey passphrase))
      fun stage result => ∀ cipher, result = .ok cipher →
        ∃ value, stage = .read accountKey passphrase value ∧
          crates.importCipher passphrase value = .ok cipher := by
  refine ⟨trivial, fun cipher => ?_⟩
  cases cipher with
  | error error => exact fun _ same => nomatch same
  | ok cipher =>
      refine ⟨trivial, fun salt => ?_⟩
      have stages : (protocol crates).next
          ((protocol crates).next (.free (.openKv accountKey passphrase))
            .newCipher (.ok cipher)) .salt salt =
          match crates.exportCipher salt passphrase cipher with
          | .ok value => .exported accountKey passphrase cipher value
          | .error _ => .free (.openKv accountKey passphrase) := rfl
      rw [stages]
      show Script.Obeys _ (Script.bind (Script.done
        ((crates.exportCipher salt passphrase cipher).mapError cipherError))
          _) _ _
      cases crates.exportCipher salt passphrase cipher with
      | error error => exact fun _ same => nomatch same
      | ok exported =>
          refine ⟨rfl, fun inserted => ?_⟩
          cases inserted with
          | error error => exact fun _ same => nomatch same
          | ok _ =>
              refine ⟨⟨rfl, rfl⟩, fun winner => ?_⟩
              cases winner with
              | error error => exact fun _ same => nomatch same
              | ok winner =>
                  cases winner with
                  | none => exact fun _ same => nomatch same
                  | some winner => exact imported_obeys

theorem openCipher_obeys (accountKey passphrase : String) :
    Script.Obeys (protocol crates)
      (openCipher crates accountKey passphrase)
      (.free (.openKv accountKey passphrase))
      fun stage result => ∀ cipher, result = .ok cipher →
        ∃ value, stage = .read accountKey passphrase value ∧
          crates.importCipher passphrase value = .ok cipher := by
  refine ⟨⟨rfl, rfl⟩, fun row => ?_⟩
  cases row with
  | error error => exact fun _ same => nomatch same
  | ok row =>
      cases row with
      | some exported => exact imported_obeys
      | none => exact createCipher_obeys accountKey passphrase

theorem program_obeys (call : Call Cipher Bytes) :
    ((system crates).program call).Obeys (protocol crates)
      ((protocol crates).start call) ((protocol crates).ends call) := by
  cases call with
  | get kv key => exact ⟨trivial, fun _ => trivial⟩
  | put kv key value apart => exact ⟨apart, fun _ => trivial⟩
  | delete kv key apart => exact ⟨apart, fun _ => trivial⟩
  | openKv accountKey passphrase =>
      apply Script.Obeys.bind
      apply Query.obeys_bind
      apply (openCipher_obeys accountKey passphrase).mono
      intro stage result ends
      cases result with
      | error error => trivial
      | ok cipher => exact ⟨rfl, ends cipher rfl⟩

section Turns

variable {stage : Stage Cipher Bytes} {request : Request Bytes}

/-- A turn leaves the rows of the ciphers, or inserts one where there was
none. -/
theorem turn_cases (allowed : stage.allows request) (conditions : Conditions)
    (table : Table Bytes) :
    (table.made ≤ (exec crates conditions table request).2.made ∧
      ∀ accountKey,
        (exec crates conditions table request).2.cipherRow accountKey =
          table.cipherRow accountKey) ∨
    ∃ accountKey passphrase cipher value,
      stage = .exported accountKey passphrase cipher value ∧
      table.cipherRow accountKey = none ∧
      (exec crates conditions table request).2.made = table.made ∧
      ∀ other, (exec crates conditions table request).2.cipherRow other =
        if other = accountKey then some value else table.cipherRow other := by
  have quiet : ∀ {after : Table Bytes}, after = table →
      table.made ≤ after.made ∧ ∀ accountKey,
        after.cipherRow accountKey = table.cipherRow accountKey := by
    intro after same
    subst same
    exact ⟨le_refl _, fun _ => rfl⟩
  cases request with
  | newCipher =>
      left
      cases failure : conditions.failure with
      | some error => exact quiet (by simp [exec, failure])
      | none =>
          simp only [exec, failure]
          exact ⟨Nat.le_succ _, fun _ => rfl⟩
  | salt => exact Or.inl (quiet rfl)
  | select accountKey key =>
      left
      cases fault : conditions.fault with
      | some error => exact quiet (by simp [exec, fault])
      | none => exact quiet (by simp [exec, fault])
  | delete accountKey key =>
      left
      cases fault : conditions.fault with
      | some error => exact quiet (by simp [exec, fault])
      | none =>
          simp only [exec, fault]
          refine ⟨le_refl _, fun other => ?_⟩
          cases stage with
          | free call =>
              cases call with
              | delete kv key apart =>
                  exact Table.cipherRow_delete allowed
              | openKv accountKey passphrase => exact allowed.elim
              | get kv key => exact allowed.elim
              | put kv key value apart => exact allowed.elim
          | made accountKey passphrase cipher => exact allowed.elim
          | exported accountKey passphrase cipher value => cases allowed
          | read accountKey passphrase value => exact allowed.elim
  | insert accountKey key value conflict =>
      cases fault : conditions.fault with
      | some error => exact Or.inl (quiet (by simp [exec, fault]))
      | none =>
          simp only [exec, fault]
          cases stage with
          | free call =>
              cases call with
              | put kv key value apart =>
                  left
                  refine ⟨?_, fun other => Table.cipherRow_insert allowed _⟩
                  rw [Table.made_insert]
              | openKv accountKey passphrase => exact allowed.elim
              | get kv key => exact allowed.elim
              | delete kv key apart => exact allowed.elim
          | made accountKey passphrase cipher => exact allowed.elim
          | read accountKey passphrase value => exact allowed.elim
          | exported accountKey passphrase cipher value =>
              cases allowed
              rcases Table.insert_cipher_cases with
                ⟨same, _⟩ | ⟨missing, rows⟩
              · exact Or.inl (quiet same)
              · exact Or.inr ⟨_, _, _, _, rfl, missing,
                  Table.made_insert _, rows⟩

theorem Founded.quiet {after : Table Bytes} (founded : Founded crates table)
    (grown : table.made ≤ after.made)
    (same : ∀ accountKey,
      after.cipherRow accountKey = table.cipherRow accountKey) :
    Founded crates after := by
  constructor
  · intro accountKey value found
    rw [same] at found
    obtain ⟨passphrase, cipher, ⟨index, before, made⟩, exported⟩ :=
      founded.exported found
    exact ⟨passphrase, cipher, ⟨index, before.trans_le grown, made⟩, exported⟩
  · intro one other mine theirs passphrase passphrase' cipher found found'
    rw [same] at found found'
    exact founded.apart found found'

theorem Stage.Holds.quiet {after : Table Bytes}
    (holds : stage.Holds crates table) (grown : table.made ≤ after.made)
    (same : ∀ accountKey,
      after.cipherRow accountKey = table.cipherRow accountKey) :
    stage.Holds crates after := by
  have made : ∀ {cipher}, table.Made crates cipher →
      after.Made crates cipher := by
    intro cipher told
    obtain ⟨index, before, made⟩ := told
    exact ⟨index, before.trans_le grown, made⟩
  have unused : ∀ {cipher}, table.Unused crates cipher →
      after.Unused crates cipher := by
    intro cipher free accountKey value passphrase found
    rw [same] at found
    exact free accountKey value passphrase found
  cases stage with
  | free call => trivial
  | made accountKey passphrase cipher => exact ⟨made holds.1, unused holds.2⟩
  | exported accountKey passphrase cipher value =>
      exact ⟨made holds.1, unused holds.2.1, holds.2.2⟩
  | read accountKey passphrase value => exact (same accountKey).trans holds

variable {accountKey passphrase : String} {cipher : Cipher} {value : Bytes}

/-- A cipher is inserted that is in no row. -/
theorem Founded.inserted {after : Table Bytes}
    (documented : crates.Documented) (founded : Founded crates table)
    (holds : (Stage.exported accountKey passphrase cipher value).Holds crates
      table)
    (grown : table.made ≤ after.made)
    (rows : ∀ other, after.cipherRow other =
      if other = accountKey then some value else table.cipherRow other) :
    Founded crates after := by
  obtain ⟨⟨index, before, made⟩, unused, exported⟩ := holds
  have alone : ∀ {other theirs passphrase'},
      after.cipherRow other = some theirs →
      crates.Exported passphrase' cipher theirs → other = accountKey := by
    intro other theirs passphrase' found exported'
    rw [rows] at found
    by_cases same : other = accountKey
    · exact same
    · rw [if_neg same] at found
      exact absurd exported' (unused other theirs passphrase' found)
  constructor
  · intro other theirs found
    rw [rows] at found
    by_cases same : other = accountKey
    · rw [if_pos same] at found
      obtain rfl := Option.some.inj found
      exact ⟨passphrase, cipher, ⟨index, before.trans_le grown, made⟩, exported⟩
    · rw [if_neg same] at found
      obtain ⟨passphrase', cipher', ⟨index', before', made'⟩, exported'⟩ :=
        founded.exported found
      exact ⟨passphrase', cipher', ⟨index', before'.trans_le grown, made'⟩,
        exported'⟩
  · intro one other mine theirs passphrase₁ passphrase₂ cipher' found found'
      exported₁ exported₂
    by_cases same : cipher' = cipher
    · subst same
      rw [alone found exported₁, alone found' exported₂]
    · have elsewhere : ∀ {account row passphrase'},
          after.cipherRow account = some row →
          crates.Exported passphrase' cipher' row →
          table.cipherRow account = some row := by
        intro account row passphrase' there told
        rw [rows] at there
        by_cases here : account = accountKey
        · rw [if_pos here] at there
          obtain rfl := Option.some.inj there
          exact absurd (documented.exported_inj told exported).2 same
        · rwa [if_neg here] at there
      exact founded.apart (elsewhere found exported₁)
        (elsewhere found' exported₂) exported₁ exported₂

/-- What a call knows that has not made the cipher inserted. -/
theorem Stage.Holds.inserted {after : Table Bytes}
    (documented : crates.Documented)
    (exported : crates.Exported passphrase cipher value)
    (holds : stage.Holds crates table) (apart : stage.token ≠ some cipher)
    (missing : table.cipherRow accountKey = none)
    (grown : table.made ≤ after.made)
    (rows : ∀ other, after.cipherRow other =
      if other = accountKey then some value else table.cipherRow other) :
    stage.Holds crates after := by
  have made : ∀ {cipher'}, table.Made crates cipher' →
      after.Made crates cipher' := by
    intro cipher' told
    obtain ⟨index, before, made⟩ := told
    exact ⟨index, before.trans_le grown, made⟩
  have unused : ∀ {cipher'}, cipher' ≠ cipher →
      table.Unused crates cipher' → after.Unused crates cipher' := by
    intro cipher' different free other theirs passphrase' found told
    rw [rows] at found
    by_cases here : other = accountKey
    · rw [if_pos here] at found
      obtain rfl := Option.some.inj found
      exact different (documented.exported_inj told exported).2
    · rw [if_neg here] at found
      exact free other theirs passphrase' found told
  cases stage with
  | free call => trivial
  | made account passphrase' cipher' =>
      have different : cipher' ≠ cipher := fun same => apart (congrArg some same)
      exact ⟨made holds.1, unused different holds.2⟩
  | exported account passphrase' cipher' value' =>
      have different : cipher' ≠ cipher := fun same => apart (congrArg some same)
      exact ⟨made holds.1, unused different holds.2.1, holds.2.2⟩
  | read account passphrase' value' =>
      have there : table.cipherRow account = some value' := holds
      show after.cipherRow account = some value'
      rw [rows, if_neg]
      · exact there
      · intro same
        rw [same, missing] at there
        cases there

theorem fresh_new (documented : crates.Documented) (table : Table Bytes) :
    ¬ table.Made crates (crates.fresh table.made) := by
  intro told
  obtain ⟨index, before, made⟩ := told
  exact absurd (documented.fresh_injective made) before.ne

theorem Founded.unused (documented : crates.Documented)
    (founded : Founded crates table) (new : ¬ table.Made crates cipher) :
    table.Unused crates cipher := by
  intro other theirs passphrase' found told
  obtain ⟨_, cipher', made, exported⟩ := founded.exported found
  obtain ⟨_, rfl⟩ := documented.exported_inj exported told
  exact new made

/-- What a call knows after its turn. -/
theorem holds_next (documented : crates.Documented)
    (founded : Founded crates table) (holds : stage.Holds crates table)
    (allowed : stage.allows request) (conditions : Conditions) :
    (stage.next crates request
      (exec crates conditions table request).1).Holds crates
        (exec crates conditions table request).2 := by
  cases stage with
  | read account passphrase' value' => cases request <;> exact allowed.elim
  | made account passphrase' cipher' =>
      cases request with
      | salt =>
          show (match crates.exportCipher conditions.salt passphrase' cipher'
            with
            | .ok value => Stage.exported account passphrase' cipher' value
            | .error _ => .free (.openKv account passphrase')).Holds crates
              table
          cases exports : crates.exportCipher conditions.salt passphrase'
            cipher' with
          | error error => trivial
          | ok value => exact ⟨holds.1, holds.2, conditions.salt, exports⟩
      | newCipher => exact allowed.elim
      | select other key => exact allowed.elim
      | insert other key value conflict => exact allowed.elim
      | delete other key => exact allowed.elim
  | exported account passphrase' cipher' value' =>
      cases allowed
      trivial
  | free call =>
      cases call with
      | get kv key => cases request <;> trivial
      | put kv key value apart => cases request <;> trivial
      | delete kv key apart => cases request <;> trivial
      | openKv account passphrase' =>
          cases request with
          | salt => exact allowed.elim
          | insert other key value conflict => exact allowed.elim
          | delete other key => exact allowed.elim
          | newCipher =>
              cases failure : conditions.failure with
              | some error =>
                  simp only [exec, failure]
                  trivial
              | none =>
                  simp only [exec, failure]
                  have unused := founded.unused documented
                    (fresh_new documented table)
                  exact ⟨⟨table.made, Nat.lt_succ_self _, rfl⟩, unused⟩
          | select other key =>
              obtain ⟨rfl, rfl⟩ := allowed
              cases fault : conditions.fault with
              | some error =>
                  simp only [exec, fault]
                  trivial
              | none =>
                  simp only [exec, fault]
                  cases found : table.rows.lookup (other, CIPHER_KEY) with
                  | none => trivial
                  | some row => exact found

/-- A call keeps its cipher, or has one that is new. -/
theorem token_next (allowed : stage.allows request) (conditions : Conditions)
    (table : Table Bytes) {held : Cipher}
    (has : (stage.next crates request
      (exec crates conditions table request).1).token = some held) :
    stage.token = some held ∨ held = crates.fresh table.made := by
  cases stage with
  | read account passphrase' value' => cases request <;> exact allowed.elim
  | made account passphrase' cipher' =>
      cases request with
      | salt =>
          left
          revert has
          show (match crates.exportCipher conditions.salt passphrase' cipher'
            with
            | .ok value => Stage.exported account passphrase' cipher' value
            | .error _ => .free (.openKv account passphrase')).token =
              some held → some cipher' = some held
          cases crates.exportCipher conditions.salt passphrase' cipher' with
          | error error => exact fun has => nomatch has
          | ok value => exact id
      | newCipher => exact allowed.elim
      | select other key => exact allowed.elim
      | insert other key value conflict => exact allowed.elim
      | delete other key => exact allowed.elim
  | exported account passphrase' cipher' value' =>
      cases allowed
      cases has
  | free call =>
      cases call with
      | get kv key => cases request <;> cases has
      | put kv key value apart => cases request <;> cases has
      | delete kv key apart => cases request <;> cases has
      | openKv account passphrase' =>
          cases request with
          | salt => exact allowed.elim
          | insert other key value conflict => exact allowed.elim
          | delete other key => exact allowed.elim
          | newCipher =>
              cases failure : conditions.failure with
              | some error =>
                  simp only [exec, failure] at has
                  cases has
              | none =>
                  simp only [exec, failure] at has
                  exact Or.inr (Option.some.inj has).symm
          | select other key =>
              cases fault : conditions.fault with
              | some error =>
                  simp only [exec, fault] at has
                  cases has
              | none =>
                  simp only [exec, fault] at has
                  cases found : table.rows.lookup (other, key) with
                  | none =>
                      rw [found] at has
                      cases has
                  | some row =>
                      rw [found] at has
                      cases has

end Turns

theorem outline (documented : crates.Documented) :
    Outline (system crates) (protocol crates) (fun _ => True) Stage.token
      (fun table _ => Founded crates table)
      (fun _ stage table _ => stage.Holds crates table) where
  obeys := program_obeys
  begins := fun _ _ _ _ _ _ _ => trivial
  bare := fun _ _ => rfl
  keeps := by
    intro task stage table trace request turn conditions
    rcases turn_cases turn.allowed conditions table with
      quiet | ⟨accountKey, passphrase, cipher, value, rfl, _, made, rows⟩
    · exact turn.inv.quiet quiet.1 quiet.2
    · exact turn.inv.inserted documented turn.own made.ge rows
  reaches := fun turn conditions =>
    holds_next documented turn.inv turn.own turn.allowed conditions
  renews := by
    intro task stage table trace request turn conditions held has
    rcases token_next turn.allowed conditions table has with kept | new
    · exact Or.inl kept
    · right
      intro other otherStage own token
      apply fresh_new documented table
      rw [← new]
      cases otherStage with
      | made account passphrase cipher =>
          obtain rfl := Option.some.inj token
          exact own.1
      | exported account passphrase cipher value =>
          obtain rfl := Option.some.inj token
          exact own.1
      | free call => cases token
      | read account passphrase value => cases token
  frames := by
    intro task stage table trace request turn conditions other otherStage
      different own apart
    rcases turn_cases turn.allowed conditions table with
      quiet | ⟨accountKey, passphrase, cipher, value, rfl, missing, made, rows⟩
    · exact own.quiet quiet.1 quiet.2
    · exact own.inserted documented turn.own.2.2 (apart cipher rfl) missing
        made.ge rows
  spawned := fun _ _ _ _ spawns => nomatch spawns
  passes := fun _ _ _ _ spawns => nomatch spawns

/-- What an opening asks: it may insert a cipher exported with its
passphrase. -/
def Opening (crates : Crates Cipher Payload Bytes)
    (accountKey passphrase : String) : Request Bytes → Prop
  | .insert asked key value conflict =>
      asked = accountKey ∧ key = CIPHER_KEY ∧ conflict = .doNothing ∧
        ∃ cipher, crates.Exported passphrase cipher value
  | .delete _ _ => False
  | _ => True

theorem createCipher_only (accountKey passphrase : String) :
    Query.Only (Opening crates accountKey passphrase)
      (createCipher crates accountKey passphrase) := by
  refine ⟨trivial, fun cipher => ?_⟩
  cases cipher with
  | error error => trivial
  | ok cipher =>
      refine ⟨trivial, fun salt => ?_⟩
      show Script.Only _ (Script.bind (Script.done
        ((crates.exportCipher salt passphrase cipher).mapError cipherError)) _)
      cases exports : crates.exportCipher salt passphrase cipher with
      | error error => trivial
      | ok exported =>
          refine ⟨⟨rfl, rfl, rfl, cipher, salt, exports⟩, fun inserted => ?_⟩
          cases inserted with
          | error error => trivial
          | ok _ =>
              refine ⟨trivial, fun winner => ?_⟩
              cases winner with
              | error error => trivial
              | ok winner =>
                  cases winner with
                  | none => trivial
                  | some winner => exact Query.Only.done _

theorem program_only (accountKey passphrase : String) :
    ((system crates).program (.openKv accountKey passphrase)).Only
      (Opening crates accountKey passphrase) := by
  apply Script.Only.bind
  · apply Query.Only.bind
    · refine ⟨trivial, fun row => ?_⟩
      cases row with
      | error error => trivial
      | ok row =>
          cases row with
          | some exported => exact Query.Only.done _
          | none => exact createCipher_only accountKey passphrase
    · intro cipher
      exact Query.Only.pure _
  · intro result
    trivial

section Run

abbrev Moves (Cipher Bytes : Type) : Type :=
  List (Move (Call Cipher Bytes) Conditions)

variable {moves : Moves Cipher Bytes}

theorem admitted (moves : Moves Cipher Bytes) :
    ∀ move ∈ moves, move.Admitted fun _ : Call Cipher Bytes => True := by
  intro move _
  cases move with
  | start call => trivial
  | step task conditions => trivial

theorem founded_of_run (documented : crates.Documented)
    (founded : Founded crates table) (moves : Moves Cipher Bytes) :
    Founded crates ((system crates).run table moves).shared := by
  obtain ⟨stages, outlined⟩ :=
    (outline documented).run founded moves (admitted moves)
  exact outlined.inv

/-- A row of a cipher stays. -/
theorem kept_of_move (documented : crates.Documented)
    (founded : Founded crates table) (moves : Moves Cipher Bytes)
    (move : Move (Call Cipher Bytes) Conditions) {accountKey : String}
    {value : Bytes}
    (found : ((system crates).run table moves).shared.cipherRow accountKey =
      some value) :
    ((system crates).run table (moves ++ [move])).shared.cipherRow
      accountKey = some value := by
  have last : (system crates).run table (moves ++ [move]) =
      (system crates).next ((system crates).run table moves) move :=
    System.run_append moves [move]
  rw [last]
  rcases (system crates).next_cases ((system crates).run table moves) move with
    ⟨call, _, same⟩ |
    ⟨task, conditions, call, request, rest, _, asks, _, same⟩ | same
  · rw [same]
    exact found
  · obtain ⟨stages, outlined⟩ :=
      (outline documented).run founded moves (admitted moves)
    obtain ⟨stage, _, allowed, _⟩ := outlined.stage_of_task asks
    rw [same]
    rcases @turn_cases _ _ _ crates _ _ allowed conditions
      ((system crates).run table moves).shared with
      quiet | ⟨other, _, _, _, _, missing, _, rows⟩
    · exact (quiet.2 accountKey).trans found
    · refine (rows accountKey).trans ?_
      rw [if_neg]
      · exact found
      · intro equal
        rw [equal, missing] at found
        cases found
  · rw [same]
    exact found

theorem kept_of_run (documented : crates.Documented)
    (founded : Founded crates table) {earlier moves : Moves Cipher Bytes}
    (begins : earlier <+: moves) {accountKey : String} {value : Bytes}
    (found : ((system crates).run table earlier).shared.cipherRow accountKey =
      some value) :
    ((system crates).run table moves).shared.cipherRow accountKey =
      some value := by
  obtain ⟨more, rfl⟩ := begins
  induction more using List.reverseRecOn with
  | nil =>
      rw [List.append_nil]
      exact found
  | append_singleton more move induction =>
      rw [← List.append_assoc]
      exact kept_of_move documented founded _ move induction

theorem ends_of_run (documented : crates.Documented)
    (founded : Founded crates table) {task : ℕ} {call : Call Cipher Bytes}
    {answer : Answer Cipher Bytes}
    (returns : ((system crates).run table moves).tasks[task]? =
      some (call, .done answer)) :
    ∃ stage, stage.Holds crates ((system crates).run table moves).shared ∧
      Ends crates call stage answer := by
  obtain ⟨stages, outlined⟩ :=
    (outline documented).run founded moves (admitted moves)
  obtain ⟨stage, staged, ends⟩ := outlined.stage_of_task returns
  exact ⟨stage, outlined.own staged, ends⟩

theorem opened_of_run (documented : crates.Documented)
    (founded : Founded crates table) {task : ℕ} {accountKey passphrase : String}
    {kv : Kv Cipher}
    (returns : ((system crates).run table moves).tasks[task]? =
      some (.openKv accountKey passphrase, .done (.opened (.ok kv)))) :
    kv.accountKey = accountKey ∧ ∃ value,
      ((system crates).run table moves).shared.cipherRow accountKey =
        some value ∧
      crates.importCipher passphrase value = .ok kv.cipher := by
  obtain ⟨stage, holds, same, value, rfl, imported⟩ :=
    ends_of_run documented founded returns
  exact ⟨same, value, holds, imported⟩

theorem exported_of_opened (documented : crates.Documented)
    (founded : Founded crates table) {task : ℕ} {accountKey passphrase : String}
    {kv : Kv Cipher}
    (returns : ((system crates).run table moves).tasks[task]? =
      some (.openKv accountKey passphrase, .done (.opened (.ok kv)))) :
    kv.accountKey = accountKey ∧ ∃ value,
      ((system crates).run table moves).shared.cipherRow accountKey =
        some value ∧
      crates.Exported passphrase kv.cipher value := by
  obtain ⟨same, value, found, imported⟩ :=
    opened_of_run documented founded returns
  obtain ⟨passphrase', cipher, _, salt, exports⟩ :=
    (founded_of_run documented founded moves).exported found
  obtain ⟨rfl, rfl⟩ :=
    (documented.import_exported exports passphrase kv.cipher).mp imported
  exact ⟨same, value, found, salt, exports⟩

/-- Openings of one account carry one cipher, and of two accounts two. -/
theorem same_cipher_iff (documented : crates.Documented)
    (founded : Founded crates table) {one other : ℕ}
    {accountKey accountKey' passphrase passphrase' : String}
    {kv kv' : Kv Cipher}
    (returns : ((system crates).run table moves).tasks[one]? =
      some (.openKv accountKey passphrase, .done (.opened (.ok kv))))
    (returns' : ((system crates).run table moves).tasks[other]? =
      some (.openKv accountKey' passphrase', .done (.opened (.ok kv')))) :
    kv'.cipher = kv.cipher ↔ kv'.accountKey = kv.accountKey := by
  obtain ⟨same, value, found, exported⟩ :=
    exported_of_opened documented founded returns
  obtain ⟨same', value', found', exported'⟩ :=
    exported_of_opened documented founded returns'
  rw [same, same']
  constructor
  · intro equal
    rw [equal] at exported'
    exact (founded_of_run documented founded moves).apart found' found
      exported' exported
  · intro equal
    rw [equal, found] at found'
    obtain rfl := Option.some.inj found'
    exact (documented.exported_inj exported' exported).2

/-- An opening with another passphrase than that of the row. -/
theorem refused_of_run (documented : crates.Documented)
    (founded : Founded crates table) {task : ℕ}
    {accountKey passphrase passphrase' : String} {cipher : Cipher}
    {value : Bytes}
    {left : Script (Request Bytes) (Request.Reply Cipher)
      (Answer Cipher Bytes)}
    (asked : ((system crates).run table moves).tasks[task]? =
      some (.openKv accountKey passphrase, left))
    (found : ((system crates).run table moves).shared.cipherRow accountKey =
      some value)
    (exported : crates.Exported passphrase' cipher value)
    (different : passphrase ≠ passphrase') :
    (∀ answer, left = .done answer →
      ∃ error, answer = .opened (.error error)) ∧
    ∀ earlier conditions, earlier ++ [.step task conditions] <+: moves →
      ((system crates).run table
        (earlier ++ [.step task conditions])).shared.rows =
      ((system crates).run table earlier).shared.rows := by
  constructor
  · intro answer done
    subst done
    obtain ⟨stage, holds, ends⟩ := ends_of_run documented founded asked
    cases answer with
    | got result => exact ends.elim
    | written result => exact ends.elim
    | opened result =>
        cases result with
        | error error => exact ⟨error, rfl⟩
        | ok kv =>
            obtain ⟨_, value', found', exported'⟩ :=
              exported_of_opened documented founded asked
            rw [found] at found'
            obtain rfl := Option.some.inj found'
            exact absurd (documented.exported_inj exported' exported).1
              different
  · intro earlier conditions begins
    rcases System.move_cases (system crates) table earlier
      (.step task conditions) with same | asks
    · rw [same.1]
    · obtain ⟨mover, during, request, is, after, grown⟩ := asks
      cases is
      have there : _ ∈ ((system crates).run table moves).turns task :=
        Pool.mem_turns.mpr ⟨(System.trace_suffix (system crates) table
          begins).subset (grown ▸ List.mem_cons_self), rfl⟩
      have opening := (program_only accountKey passphrase).of_follows
        (System.follows moves asked) _ there
      rw [after, system_exec]
      cases request with
      | newCipher =>
          cases failure : conditions.failure with
          | some error => simp only [exec, failure]
          | none => simp only [exec, failure]
      | salt => rfl
      | select other key =>
          cases fault : conditions.fault with
          | some error => simp only [exec, fault]
          | none => simp only [exec, fault]
      | delete other key => exact opening.elim
      | insert other key inserted conflict =>
          obtain ⟨rfl, rfl, rfl, cipher', exported'⟩ := opening
          cases fault : conditions.fault with
          | some error => simp only [exec, fault]
          | none =>
              simp only [exec, fault]
              rcases Table.insert_cipher_cases with
                ⟨same, _⟩ | ⟨missing, rows⟩
              · rw [same]
              · have mine : ((system crates).run table (earlier ++
                    [.step task conditions])).shared.cipherRow other =
                    some inserted := by
                  rw [after]
                  simp only [system_exec, exec, fault]
                  rw [rows, if_pos rfl]
                have stays := kept_of_run documented founded begins mine
                rw [found] at stays
                obtain rfl := Option.some.inj stays
                exact absurd (documented.exported_inj exported' exported).1
                  different

end Run

/-- In a run, the rows of the ciphers and the openings. -/
structure Guarded (crates : Crates Cipher Payload Bytes)
    (table : Table Bytes) (moves : Moves Cipher Bytes) : Prop where
  single : ∀ accountKey,
    (((system crates).run table moves).shared.rows.entries.lookupAll
      (accountKey, CIPHER_KEY)).length ≤ 1
  kept : ∀ {earlier accountKey value}, earlier <+: moves →
    ((system crates).run table earlier).shared.cipherRow accountKey =
      some value →
    ((system crates).run table moves).shared.cipherRow accountKey = some value
  opened : ∀ {task : ℕ} {accountKey passphrase kv},
    ((system crates).run table moves).tasks[task]? =
      some (.openKv accountKey passphrase, .done (.opened (.ok kv))) →
    kv.accountKey = accountKey ∧ ∃ value,
      ((system crates).run table moves).shared.cipherRow accountKey =
        some value ∧
      crates.importCipher passphrase value = .ok kv.cipher
  shared : ∀ {one other : ℕ} {accountKey accountKey' passphrase passphrase'}
      {kv kv' : Kv Cipher},
    ((system crates).run table moves).tasks[one]? =
      some (.openKv accountKey passphrase, .done (.opened (.ok kv))) →
    ((system crates).run table moves).tasks[other]? =
      some (.openKv accountKey' passphrase', .done (.opened (.ok kv'))) →
    ∀ {nonce payload bytes}, kv.sealValue crates nonce payload = .ok bytes →
    ∀ opened, kv'.openSealed crates bytes = .ok opened ↔
      accountKey' = accountKey ∧ opened = payload
  refused : ∀ {task : ℕ} {accountKey passphrase left passphrase' cipher value},
    ((system crates).run table moves).tasks[task]? =
      some (.openKv accountKey passphrase, left) →
    ((system crates).run table moves).shared.cipherRow accountKey =
      some value →
    crates.Exported passphrase' cipher value → passphrase ≠ passphrase' →
    (∀ answer, left = .done answer →
      ∃ error, answer = .opened (.error error)) ∧
    ∀ earlier conditions, earlier ++ [.step task conditions] <+: moves →
      ((system crates).run table
        (earlier ++ [.step task conditions])).shared.rows =
      ((system crates).run table earlier).shared.rows

/-- In every run, all openings of an account have the cipher of its row. -/
theorem ciphers_guarded (documented : crates.Documented)
    (founded : Founded crates table) (moves : Moves Cipher Bytes) :
    Guarded crates table moves where
  single := fun accountKey => List.lookupAll_length_le_one _
    ((system crates).run table moves).shared.rows.nodupKeys
  kept := fun begins found => kept_of_run documented founded begins found
  opened := fun returns => opened_of_run documented founded returns
  shared := by
    intro one other accountKey accountKey' passphrase passphrase' kv kv'
      returns returns' nonce payload bytes encrypted opened
    have same := (opened_of_run documented founded returns).1
    have same' := (opened_of_run documented founded returns').1
    rw [sealValue, Logged.mapError_eq_ok] at encrypted
    rw [openSealed, Logged.mapError_eq_ok,
      documented.decrypt_encrypted encrypted,
      same_cipher_iff documented founded returns returns', same, same']
  refused := fun asked found exported different =>
    refused_of_run documented founded asked found exported different

/-- A crate whose exports and sealed payloads tell what they are made of. -/
def plainCrates : Crates ℕ String (String × ℕ × String) where
  fresh := id
  exportCipher _ passphrase cipher := .ok (passphrase, cipher, "")
  importCipher passphrase exported :=
    if exported.1 = passphrase then .ok exported.2.1
    else .error (.other "wrong passphrase")
  encryptValue cipher _ payload := .ok ("", cipher, payload)
  decryptValue cipher bytes :=
    if bytes.2.1 = cipher then .ok bytes.2.2
    else .error (.other "decryption failed")

theorem plainCrates_documented : plainCrates.Documented where
  fresh_injective := Function.injective_id
  import_exported := by
    intro salt passphrase cipher exported exports tried imported
    cases exports
    by_cases same : passphrase = tried
    · simp [plainCrates, same, eq_comm]
    · simp [plainCrates, same, eq_comm]
  decrypt_encrypted := by
    intro cipher nonce payload bytes encrypts other opened
    cases encrypts
    by_cases same : cipher = other
    · simp [plainCrates, same, eq_comm]
    · simp [plainCrates, same, eq_comm]

/-- Both find no row; the second one to insert is refused, as its passphrase is
another one. -/
def racingMoves : Moves ℕ (String × ℕ × String) :=
  [.start (.openKv "bot" "first"), .start (.openKv "bot" "second"),
    .step 0 ⟨none, none, 0⟩, .step 1 ⟨none, none, 0⟩,
    .step 0 ⟨none, none, 0⟩, .step 1 ⟨none, none, 0⟩,
    .step 0 ⟨none, none, 0⟩, .step 1 ⟨none, none, 0⟩,
    .step 0 ⟨none, none, 0⟩, .step 1 ⟨none, none, 0⟩,
    .step 0 ⟨none, none, 0⟩, .step 1 ⟨none, none, 0⟩]

theorem ciphers_guarded_racing :
    Guarded plainCrates { made := 0, rows := ∅ } racingMoves :=
  ciphers_guarded plainCrates_documented (founded_empty _ 0) racingMoves

end MiryadCore.Matrix.Kv
