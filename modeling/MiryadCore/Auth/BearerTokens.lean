import MiryadCore.Auth.Dual
import MiryadCore.Auth.SessionSafety

/-!
# Whom a bearer authenticates

A secret that was given for a subject authenticates its bearer for as long as
its row is neither revoked nor expired, unless its shape is that of a JWT.  No
other secret is taken for a token of the API.
-/

namespace MiryadCore.Auth

open Rest (AuthPrincipal)

/-- A service that has returned `Ok` for a subject and a secret. -/
inductive Gives : Service → Code → String → String → Prop where
  | issue {subject name secret : String} {expiresAt : Option ℤ} {id : ℤ} :
      Gives (.tokens (.issue subject name expiresAt))
        (.done (.issued (.ok { id, token := secret }))) subject secret
  | ensure {subject name secret : String} {expiresAt : Option ℤ} :
      Gives (.tokens (.ensure subject name secret expiresAt))
        (.done (.ensured (.ok ()))) subject secret
  | serviceAccount {accounts : Accounts} {subject secret tokenName : String}
      {groups : List String} {expiresAt : Option ℤ} :
      Gives (.serviceAccount accounts subject secret tokenName groups
        expiresAt) (.done (.ensured (.ok ()))) subject secret

/-- The row that a turn inserts or reads, less what a validation may write. -/
def RowOf (turn : Turn) (row : Token) : Prop :=
  inserted turn = some row ∨ ∃ record, selected turn = some record ∧
    record.kept = row

section Course

variable {secrets : Secrets} {codecs : Codecs} {turns : List Turn}
  {left : Code} {subject name token : String} {expiresAt : Option ℤ}

/-- An issue that has succeeded has inserted its row. -/
theorem issue_done {issued : IssuedToken}
    (follows : (issueToken secrets subject name expiresAt).Follows turns
      (.done (.issued (.ok issued)))) :
    ∃ hash asker there bytes dater place createdAt last reached row,
      secrets.hashToken issued.token = .ok hash ∧
      turns = [⟨asker, there, .random, bytes⟩, ⟨dater, place, .now, createdAt⟩,
        ⟨last, reached, .insert subject name hash createdAt expiresAt,
          .ok row⟩] := by
  rcases follows.of_call with start | first
  · cases start.2
  obtain ⟨asker, there, bytes, more, rfl, drawn⟩ := first
  dsimp only at drawn
  cases hashed : secrets.hashToken (generateToken secrets bytes) with
  | error error =>
      rw [hashed] at drawn
      cases drawn.of_done.2
  | ok hash =>
      rw [hashed] at drawn
      rcases drawn.of_call with start | second
      · cases start.2
      obtain ⟨dater, place, createdAt, more, rfl, dated⟩ := second
      rcases dated.of_call with start | third
      · cases start.2
      obtain ⟨last, reached, answer, more, rfl, ended⟩ := third
      cases answer with
      | error error => cases ended.of_done.2
      | ok row =>
          obtain ⟨rfl, same⟩ := ended.of_done
          cases same
          exact ⟨hash, asker, there, bytes, dater, place, createdAt, last,
            reached, row, hashed, rfl⟩

/-- A token that is ensured has its row read, or inserted. -/
theorem ensure_done
    (follows : (ensureToken secrets subject name token expiresAt).Follows turns
      (.done (.ensured (.ok ())))) :
    ∃ hash asker there, secrets.hashToken token = .ok hash ∧
      ((∃ existing, existing.subject = subject ∧
        turns = [⟨asker, there, .select hash, .ok (some existing)⟩]) ∨
      ∃ dater place createdAt last reached row,
        turns = [⟨asker, there, .select hash, .ok none⟩,
          ⟨dater, place, .now, createdAt⟩,
          ⟨last, reached, .insert subject name hash createdAt expiresAt,
            .ok row⟩]) := by
  unfold ensureToken at follows
  cases hashed : secrets.hashToken token with
  | error error =>
      rw [hashed] at follows
      cases follows.of_done.2
  | ok hash =>
      rw [hashed] at follows
      rcases follows.of_call with start | first
      · cases start.2
      obtain ⟨asker, there, found, more, rfl, read⟩ := first
      refine ⟨hash, asker, there, rfl, ?_⟩
      cases found with
      | error error => cases read.of_done.2
      | ok found =>
          cases found with
          | some existing =>
              left
              dsimp only at read
              split at read
              next => cases read.of_done.2
              next same =>
                obtain ⟨rfl, _⟩ := read.of_done
                exact ⟨existing, not_not.mp same, rfl⟩
          | none =>
              right
              rcases read.of_call with start | second
              · cases start.2
              obtain ⟨dater, place, createdAt, more, rfl, dated⟩ := second
              rcases dated.of_call with start | third
              · cases start.2
              obtain ⟨last, reached, answer, more, rfl, ended⟩ := third
              cases answer with
              | error error => cases ended.of_done.2
              | ok row =>
                  obtain ⟨rfl, _⟩ := ended.of_done
                  exact ⟨dater, place, createdAt, last, reached, row, rfl⟩

theorem ensureServiceAccount_cases (secrets : Secrets) (accounts : Accounts)
    (subject token tokenName : String) (groups : List String)
    (expiresAt : Option ℤ) :
    (∃ error, ensureServiceAccount secrets accounts subject token tokenName
      groups expiresAt = .done (.ensured (.error error))) ∨
    ensureServiceAccount secrets accounts subject token tokenName groups
      expiresAt = ensureToken secrets subject tokenName token expiresAt := by
  unfold ensureServiceAccount
  cases accounts.existing subject with
  | error error => exact Or.inl ⟨_, rfl⟩
  | ok existing =>
      dsimp only
      cases accounts.resolveUser subject none with
      | error error => exact Or.inl ⟨_, rfl⟩
      | ok account =>
          dsimp only
          cases accounts.syncGroupMemberships account.id groups with
          | error error => exact Or.inl ⟨_, rfl⟩
          | ok synced => exact Or.inr rfl

end Course

section Rows

variable {call : Type}
  {sys : System call Request Request.Reply Conditions Tokens Answer}
  (served : sys.exec = exec) {clock nextId : ℤ}
  {moves : List (Move call Conditions)} {secrets : Secrets}
  {turns : List Turn} {subject name token : String} {expiresAt : Option ℤ}

/-- The turns of a call have a row, that of a subject and a secret. -/
structure Rows (secrets : Secrets) (turns : List Turn)
    (subject secret : String) : Prop where
  some_row : ∃ turn ∈ turns, ∃ row, RowOf turn row
  row : ∀ turn ∈ turns, ∀ row, RowOf turn row →
    row.subject = subject ∧ secrets.hashToken secret = .ok row.tokenHash

include served

theorem rows_of_issue {issued : IssuedToken}
    (follows : (issueToken secrets subject name expiresAt).Follows turns
      (.done (.issued (.ok issued))))
    (traced : ∀ turn ∈ turns,
      turn ∈ (sys.run (start clock nextId) moves).trace) :
    Rows secrets turns subject issued.token := by
  obtain ⟨hash, asker, there, bytes, dater, place, createdAt, last, reached,
    row, hashed, rfl⟩ := issue_done follows
  refine ⟨⟨_, List.mem_cons_of_mem _ (List.mem_cons_of_mem _
    List.mem_cons_self), row, Or.inl rfl⟩, ?_⟩
  intro turn member other mine
  simp only [List.mem_cons, List.not_mem_nil, or_false] at member
  rcases member with rfl | rfl | rfl
  · rcases mine with adds | ⟨_, reads, _⟩
    · cases adds
    · cases reads
  · rcases mine with adds | ⟨_, reads, _⟩
    · cases adds
    · cases reads
  · rcases mine with adds | ⟨_, reads, _⟩
    · have asked := (request_of_inserted served (traced _ (by simp)) adds).1
      cases asked
      exact ⟨rfl, hashed⟩
    · cases reads

theorem rows_of_ensure
    (follows : (ensureToken secrets subject name token expiresAt).Follows turns
      (.done (.ensured (.ok ()))))
    (traced : ∀ turn ∈ turns,
      turn ∈ (sys.run (start clock nextId) moves).trace) :
    Rows secrets turns subject token := by
  obtain ⟨hash, asker, there, hashed, existing | made⟩ := ensure_done follows
  · obtain ⟨existing, same, rfl⟩ := existing
    refine ⟨⟨_, List.mem_cons_self, _, Or.inr ⟨existing, rfl, rfl⟩⟩, ?_⟩
    intro turn member other mine
    obtain rfl := List.mem_singleton.mp member
    rcases mine with adds | ⟨record, reads, rfl⟩
    · cases adds
    · have asked := (selected_of_trace served (traced _ member) reads).2
      cases reads
      cases asked
      exact ⟨same, hashed⟩
  · obtain ⟨dater, place, createdAt, last, reached, row, rfl⟩ := made
    refine ⟨⟨_, List.mem_cons_of_mem _ (List.mem_cons_of_mem _
      List.mem_cons_self), row, Or.inl rfl⟩, ?_⟩
    intro turn member other mine
    simp only [List.mem_cons, List.not_mem_nil, or_false] at member
    rcases member with rfl | rfl | rfl
    · rcases mine with adds | ⟨_, reads, _⟩
      · cases adds
      · cases reads
    · rcases mine with adds | ⟨_, reads, _⟩
      · cases adds
      · cases reads
    · rcases mine with adds | ⟨_, reads, _⟩
      · have asked := (request_of_inserted served (traced _ (by simp)) adds).1
        cases asked
        exact ⟨rfl, hashed⟩
      · cases reads

omit served in
theorem kept_or_revoked {tokens after : Tokens} {turn : Turn} {row : Token}
    (effect : Effect tokens after turn) (member : row ∈ tokens.kept) :
    row ∈ after.kept ∨ revoked turn = some row.id := by
  cases effect with
  | none same grown nothing keeps => exact Or.inl (same ▸ member)
  | insert new adds keeps unused grown fresh next free request =>
      left
      rw [grown]
      exact List.mem_append_left _ member
  | delete id deletes nothing left same =>
      by_cases here : row.id = id
      · exact Or.inr (here ▸ deletes)
      · left
        rw [left, List.mem_filter, decide_eq_true_eq]
        exact ⟨member, here⟩

/-- A row that a turn inserted or read is there until it is revoked. -/
theorem kept_of_rowOf {later earlier : List Turn} {turn : Turn} {row : Token}
    (trace : (sys.run (start clock nextId) moves).trace =
      later ++ turn :: earlier) (mine : RowOf turn row)
    (unrevoked : ∀ past ∈ later, revoked past ≠ some row.id) :
    row ∈ (sys.run (start clock nextId) moves).shared.kept := by
  have stays : ∀ later turn earlier,
      (sys.run (start clock nextId) moves).trace = later ++ turn :: earlier →
      ∀ row, inserted turn = some row →
        row ∈ (sys.run (start clock nextId) moves).shared.kept ∨
          ∃ past ∈ later, revoked past = some row.id := by
    apply System.holds_of_run fun (tokens : Tokens) (trace : List Turn) =>
      ∀ later turn earlier, trace = later ++ turn :: earlier →
        ∀ row, inserted turn = some row → row ∈ tokens.kept ∨
          ∃ past ∈ later, revoked past = some row.id
    case begins =>
      intro later turn earlier split
      simp at split
    case keeps =>
      intro moves task conditions call request rest _ stays later turn earlier
        split row adds
      rw [served] at split ⊢
      have effect := effect_of_exec
        (sys.run (start clock nextId) moves).shared conditions task request
      cases later with
      | nil =>
          obtain ⟨rfl, rfl⟩ := List.cons.inj split
          left
          cases effect with
          | none same grown nothing keeps =>
              rw [adds] at nothing
              cases nothing
          | insert new adds' keeps unused grown fresh next free request =>
              rw [adds] at adds'
              obtain rfl := Option.some.inj adds'
              rw [grown]
              exact List.mem_append_right _ (List.mem_singleton_self _)
          | delete id deletes nothing left same =>
              rw [adds] at nothing
              cases nothing
      | cons latest later =>
          obtain ⟨rfl, rest⟩ := List.cons.inj split
          rcases stays later turn earlier rest row adds with member | gone
          · rcases kept_or_revoked effect member with kept | revokes
            · exact Or.inl kept
            · exact Or.inr ⟨_, List.mem_cons_self, revokes⟩
          · obtain ⟨past, member, revokes⟩ := gone
            exact Or.inr ⟨past, List.mem_cons_of_mem _ member, revokes⟩
  rcases mine with adds | ⟨record, reads, rfl⟩
  · rcases stays later turn earlier trace row adds with member | gone
    · exact member
    · obtain ⟨past, member, revokes⟩ := gone
      exact (unrevoked past member revokes).elim
  · rcases (good_of_served served clock nextId moves).lasting later turn
      earlier trace record reads with member | gone
    · exact member
    · obtain ⟨past, member, revokes⟩ := gone
      exact (unrevoked past member revokes).elim

end Rows

section Alone

variable {secrets : Secrets} {tokens : Tokens} {envs : ℕ → Conditions}
  {row : Token} {secret : String}

/-- What a row says of its bearer. -/
def Token.principal (row : Token) : AuthPrincipal :=
  { subject := row.subject
    email := none
    preferredUsername := none
    source := .apiToken row.id }

theorem find_of_kept (hashes : (tokens.kept.map Token.tokenHash).Nodup)
    (member : row ∈ tokens.kept) :
    ∃ record ∈ tokens.rows, record.kept = row ∧
      (tokens.rows.find? fun other => other.tokenHash = row.tokenHash) =
        some record := by
  obtain ⟨original, there, rfl⟩ := List.mem_map.mp member
  have present : (tokens.rows.find? fun other =>
      other.tokenHash = original.kept.tokenHash).isSome = true := by
    rw [List.find?_isSome]
    exact ⟨original, there, decide_eq_true rfl⟩
  obtain ⟨record, found⟩ := Option.isSome_iff_exists.mp present
  have listed := List.mem_of_find?_eq_some found
  have hash := List.find?_some found
  rw [decide_eq_true_eq] at hash
  have same : record.kept = original.kept :=
    List.inj_on_of_nodup_map hashes (List.mem_map_of_mem listed)
      (List.mem_map_of_mem there) hash
  exact ⟨record, listed, same, found⟩

theorem useToken_alone {record : Token} (there : record ∈ tokens.rows)
    (faultless : ∀ n, (envs n).fault = none) :
    (Script.run exec envs (useToken record) tokens).1 =
      .validated (.ok record.principal) := by
  have present : (tokens.rows.any fun row => row.id = record.id) = true := by
    rw [List.any_eq_true]
    exact ⟨record, there, decide_eq_true rfl⟩
  simp only [useToken, Script.run, exec, Tokens.perform, faultless,
    Tokens.touch, present, if_true]
  rfl

theorem validate_alone (hashes : (tokens.kept.map Token.tokenHash).Nodup)
    (member : row ∈ tokens.kept)
    (hashed : secrets.hashToken secret = .ok row.tokenHash)
    (faultless : ∀ n, (envs n).fault = none)
    (live : ∀ expiry, row.expiresAt = some expiry →
      tokens.clock + (envs 0).elapsed < expiry) :
    (Script.run exec envs (validateToken secrets secret) tokens).1 =
      .validated (.ok row.principal) := by
  obtain ⟨record, there, rfl, found⟩ := find_of_kept hashes member
  have read : exec (envs 0) tokens (.select record.kept.tokenHash) =
      (.ok (some record),
        { tokens with clock := tokens.clock + (envs 0).elapsed }) := by
    simp only [exec, Tokens.perform, faultless 0, found]
  rw [validateToken, hashed]
  simp only [Script.run, read]
  cases expires : record.expiresAt with
  | none => exact useToken_alone there fun n => faultless (n + 1)
  | some expiry =>
      have later := live expiry expires
      show (Script.run exec (fun n => envs (n + 1 + 1))
        (if expiry ≤ tokens.clock + (envs 0).elapsed then
          .done (.validated (.error .tokenExpired))
        else useToken record)
        { tokens with
          clock := tokens.clock + (envs 0).elapsed + (envs 1).elapsed }).1 = _
      rw [if_neg (not_le.mpr later)]
      exact useToken_alone there fun n => faultless (n + 1 + 1)

end Alone

theorem isJwtShaped_iff {material : String} :
    isJwtShaped material = true ↔ material.toList.count '.' = 2 := by
  rw [isJwtShaped, beq_iff_eq]

section Verified

variable {machine : Machine} {jwt : String} {principal : AuthPrincipal}

theorem source_of_verified
    (verified : verifyBearerJwt machine jwt = .ok principal) :
    ∃ idToken, principal.source = .bearer idToken := by
  unfold verifyBearerJwt at verified
  cases answered : machine.verifyBearer jwt with
  | error error =>
      rw [answered] at verified
      cases verified
  | ok identity =>
      rw [answered] at verified
      obtain rfl := Except.ok.inj verified
      exact ⟨identity.idToken, rfl⟩

theorem bearer_source
    (verified : verifyBearerJwt machine jwt = .ok principal) (id : ℤ) :
    principal.source ≠ .apiToken id := by
  obtain ⟨idToken, source⟩ := source_of_verified verified
  rw [source]
  nofun

theorem bearer_session
    (verified : verifyBearerJwt machine jwt = .ok principal)
    (idToken : String) : principal.source ≠ .session idToken := by
  obtain ⟨_, source⟩ := source_of_verified verified
  rw [source]
  nofun

end Verified

section Services

variable {secrets : Secrets} {codecs : Codecs} {clock nextId : ℤ}
  {moves : List (Move Service Conditions)}

/-- A service that inserts a row has returned its secret. -/
theorem gives_of_inserted {service : Service} {turns : List Turn} {left : Code}
    (follows : (serviceProgram secrets codecs service).Follows turns left)
    {turn : Turn} (member : turn ∈ turns) {row : Token}
    (adds : inserted turn = some row)
    (request : turn.request = .insert row.subject row.name row.tokenHash
      row.createdAt row.expiresAt) :
    ∃ token, secrets.hashToken token = .ok row.tokenHash ∧
      Gives service left row.subject token := by
  cases service with
  | tokens call =>
      obtain ⟨token, hashed, allocates⟩ :=
        allocates_of_inserted follows member adds request
      refine ⟨token, hashed, ?_⟩
      rcases allocates with issued | ensured
      · obtain ⟨rfl, rfl⟩ := issued
        exact .issue
      · obtain ⟨rfl, rfl⟩ := ensured
        exact .ensure
  | serviceAccount accounts subject token tokenName groups expiresAt =>
      rcases ensureServiceAccount_cases secrets accounts subject token
        tokenName groups expiresAt with failed | ensures
      · obtain ⟨error, ends⟩ := failed
        rw [serviceProgram, ends] at follows
        rw [follows.of_done.1] at member
        cases member
      · rw [serviceProgram, ensures] at follows
        change (program secrets (.ensure subject tokenName token
          expiresAt)).Follows turns left at follows
        obtain ⟨token', hashed, allocates⟩ :=
          allocates_of_inserted follows member adds request
        refine ⟨token', hashed, ?_⟩
        rcases allocates with issued | ensured
        · cases issued.1
        · obtain ⟨same, rfl⟩ := ensured
          cases same
          exact .serviceAccount
  | extract parts machine =>
      rw [serviceProgram, fromRequestParts] at follows
      split at follows
      next material _ =>
        split at follows
        next =>
          rw [follows.of_done.1] at member
          cases member
        next =>
          have reading := (validate_course follows).1 turn member
          rw [inserted_of_reading reading] at adds
          cases adds
      next =>
        rw [follows.of_done.1] at member
        cases member

/-- What a service that has given a secret has done. -/
theorem rows_of_gives {giver : ℕ} {service : Service} {left : Code}
    {subject secret : String}
    (found : ((services secrets codecs).run (start clock nextId)
      moves).tasks[giver]? = some (service, left))
    (gives : Gives service left subject secret) :
    Rows secrets (((services secrets codecs).run (start clock nextId)
      moves).turns giver) subject secret := by
  have follows := System.follows moves found
  have traced : ∀ turn ∈ ((services secrets codecs).run (start clock nextId)
      moves).turns giver, turn ∈ ((services secrets codecs).run
        (start clock nextId) moves).trace :=
    fun turn member => (Pool.mem_turns.mp member).1
  cases gives with
  | issue => exact rows_of_issue (services_exec secrets codecs) follows traced
  | ensure => exact rows_of_ensure (services_exec secrets codecs) follows traced
  | @serviceAccount accounts _ _ tokenName groups expiresAt =>
      change (ensureServiceAccount secrets accounts subject secret tokenName
        groups expiresAt).Follows _ _ at follows
      rcases ensureServiceAccount_cases secrets accounts subject secret
        tokenName groups expiresAt with failed | ensures
      · obtain ⟨error, ends⟩ := failed
        rw [ends] at follows
        cases follows.of_done.2
      · rw [ensures] at follows
        exact rows_of_ensure (services_exec secrets codecs) follows traced

end Services

/-- The row that a service has inserted or read, not revoked since. -/
def Unrevoked (trace : List Turn) (giver : ℕ) (row : Token) : Prop :=
  ∃ later turn earlier, trace = later ++ turn :: earlier ∧
    turn.task = giver ∧ RowOf turn row ∧
    ∀ past ∈ later, revoked past ≠ some row.id

/-- A token that was read by a task was given, not revoked before it was read,
and not expired. -/
def ReadGiven (pool : Pool Service Request Request.Reply Tokens Answer)
    (task : ℕ) (subject material : String) (row : Token) : Prop :=
  ∃ later read since allocation before service left,
    pool.trace = later ++ read :: (since ++ allocation :: before) ∧
    read.task = task ∧ inserted allocation = some row ∧
    (∀ past ∈ since, revoked past ≠ some row.id) ∧
    (∀ expiry, row.expiresAt = some expiry → read.before.clock < expiry) ∧
    pool.tasks[allocation.task]? = some (service, left) ∧
    Gives service left subject material

/-- What a run of the services keeps. -/
structure BearersSound (secrets : Secrets) (codecs : Codecs)
    (pool : Pool Service Request Request.Reply Tokens Answer) : Prop where
  given : ∀ {giver service left subject secret},
    pool.tasks[giver]? = some (service, left) →
    Gives service left subject secret →
    ∃ turn ∈ pool.trace, turn.task = giver ∧ ∃ row, RowOf turn row
  accepted : ∀ {giver service left subject secret row scheme cookie machine}
      {envs : ℕ → Conditions},
    pool.tasks[giver]? = some (service, left) →
    Gives service left subject secret → Unrevoked pool.trace giver row →
    (∀ expiry, row.expiresAt = some expiry →
      pool.shared.clock + (envs 0).elapsed < expiry) →
    (∀ n, (envs n).fault = none) → VisibleAscii secret → BearerScheme scheme →
    ((∃ principal, (Script.run exec envs (fromRequestParts secrets codecs
        { authorization := some (bytesOf (scheme ++ " " ++ secret)), cookie }
        machine) pool.shared).1 = .validated (.ok principal) ∧
      principal.subject = subject ∧ principal.source = .apiToken row.id) ↔
    secret.toList.count '.' ≠ 2)
  refused : ∀ {task parts machine principal material},
    pool.tasks[task]? =
      some (.extract parts machine, .done (.validated (.ok principal))) →
    parts.material = some material →
    (∀ idToken, principal.source ≠ .session idToken) ∧
      ∀ id, principal.source = .apiToken id →
        ∃ row, row.id = id ∧ ReadGiven pool task principal.subject material row

/-- In every run, the bearer of a given secret is authenticated as its subject
if and only if the secret has not exactly two dots, and the bearer of another
text by no token and by no cookie. -/
theorem bearers_sound (secrets : Secrets) (codecs : Codecs) (clock nextId : ℤ)
    (moves : List (Move Service Conditions)) :
    BearersSound secrets codecs
      ((services secrets codecs).run (start clock nextId) moves) := by
  constructor
  case given =>
    intro giver service left subject secret found gives
    obtain ⟨turn, member, row, mine⟩ := (rows_of_gives found gives).some_row
    obtain ⟨traced, task⟩ := Pool.mem_turns.mp member
    exact ⟨turn, traced, task, row, mine⟩
  case accepted =>
    intro giver service left subject secret row scheme cookie machine envs
      found gives unrevoked live faultless visible bearer
    obtain ⟨later, turn, earlier, trace, task, mine, standing⟩ := unrevoked
    have placed : turn ∈ ((services secrets codecs).run (start clock nextId)
        moves).trace := by
      rw [trace]
      simp
    obtain ⟨subjects, hashed⟩ := (rows_of_gives found gives).row turn
      (Pool.mem_turns.mpr ⟨placed, task⟩) row mine
    have kept := kept_of_rowOf (services_exec secrets codecs) trace mine
      standing
    have hashes := (good_of_served (services_exec secrets codecs) clock nextId
      moves).hashes
    rw [fromRequestParts, material_eq bearer visible cookie]
    dsimp only
    by_cases shaped : isJwtShaped secret = true
    · rw [if_pos shaped]
      constructor
      · rintro ⟨principal, answered, _, source⟩
        have verified : verifyBearerJwt machine secret = .ok principal :=
          Answer.validated.inj answered
        exact (bearer_source verified row.id source).elim
      · intro dots
        exact (dots (isJwtShaped_iff.mp shaped)).elim
    · rw [if_neg shaped, validate_alone hashes kept hashed faultless live]
      constructor
      · intro _ dots
        exact shaped (isJwtShaped_iff.mpr dots)
      · intro _
        exact ⟨row.principal, rfl, subjects, rfl⟩
  case refused =>
    intro task parts machine principal material returns read
    have follows := System.follows moves returns
    change (fromRequestParts secrets codecs parts machine).Follows _ _
      at follows
    by_cases shaped : isJwtShaped material = true
    · have routed : fromRequestParts secrets codecs parts machine =
          .done (.validated (verifyBearerJwt machine material)) := by
        rw [fromRequestParts, read]
        exact if_pos shaped
      rw [routed] at follows
      have verified : verifyBearerJwt machine material = .ok principal :=
        (Answer.validated.inj (Script.done.inj follows.of_done.2)).symm
      refine ⟨bearer_session verified, ?_⟩
      intro id source
      exact (bearer_source verified id source).elim
    · have routed : (services secrets codecs).program
          (.extract parts machine) = validateToken secrets material := by
        change fromRequestParts secrets codecs parts machine = _
        rw [fromRequestParts, read]
        exact if_neg shaped
      obtain ⟨later, reading, since, allocation, before, record, trusted⟩ :=
        trusted_of_served (services_exec secrets codecs) routed returns
      refine ⟨?_, ?_⟩
      · intro idToken session
        rw [trusted.source] at session
        cases session
      · intro id source
        rw [trusted.source] at source
        have placed : allocation ∈ ((services secrets codecs).run
            (start clock nextId) moves).trace := by
          rw [trusted.trace]
          simp
        have found := List.getElem?_eq_getElem
          (System.task_lt_of_trace moves allocation placed)
        obtain ⟨token, hashed, gives⟩ := gives_of_inserted
          (System.follows moves found) (Pool.mem_turns.mpr ⟨placed, rfl⟩)
          trusted.allocated (request_of_inserted
            (services_exec secrets codecs) placed trusted.allocated).1
        obtain rfl := secrets.injective trusted.hashed hashed
        rw [trusted.subject]
        exact ⟨record.kept, Rest.PrincipalSource.apiToken.inj source, later,
          reading, since, allocation, before, _, _, trusted.trace,
          trusted.mine, trusted.allocated, trusted.standing, trusted.live,
          found, gives⟩

/-- A hash that changes nothing. -/
def plain : Secrets where
  hashToken := .ok
  encode := fun bytes =>
    String.ofList (bytes.map fun byte => Char.ofNat byte.toNat)
  injective := fun hashed same => by
    rw [Except.ok.inj hashed, Except.ok.inj same]

def calm : Conditions :=
  { fault := none, gap := 0, elapsed := 0, bytes := [] }

def ensureRelease : Service :=
  .tokens (.ensure "deployer" "release" "v1.2.3" none)

/-- A token is ensured on the empty table. -/
def released : Pool Service Request Request.Reply Tokens Answer :=
  (services plain Handshake.letters).run (start 0 1)
    [.start ensureRelease, .step 0 calm, .step 0 calm, .step 0 calm]

/-- An OIDC client that knows no JWT. -/
def noJwt : Machine :=
  { now := some 0, verifyBearer := fun _ => .error .invalidBearer }

/-- The secret `v1.2.3` was given for its subject, its row is there and does
not expire, and its bearer is refused. -/
theorem dotted_secret_refused :
    released.tasks[0]? = some (ensureRelease, .done (.ensured (.ok ()))) ∧
    Gives ensureRelease (.done (.ensured (.ok ()))) "deployer" "v1.2.3" ∧
    released.shared.rows = [{ id := 1, subject := "deployer", name := "release"
                              tokenHash := "v1.2.3", createdAt := 0
                              expiresAt := none, lastUsedAt := none }] ∧
    VisibleAscii "v1.2.3" ∧ BearerScheme "Bearer" ∧
    (Script.run exec (fun _ => calm) (fromRequestParts plain Handshake.letters
      { authorization := some (bytesOf ("Bearer" ++ " " ++ "v1.2.3"))
        cookie := none } noJwt) released.shared).1 =
      .validated (.error .invalidBearer) := by
  have visible : VisibleAscii "v1.2.3" := by
    have all : ("v1.2.3".toList.all fun char =>
        (32 ≤ char.toNat ∧ char.toNat < 127) ∨ char.toNat = 9) = true := by
      decide
    exact fun char member =>
      of_decide_eq_true (List.all_eq_true.mp all char member)
  have bearer : BearerScheme "Bearer" := by
    unfold BearerScheme
    decide
  refine ⟨rfl, .ensure, rfl, visible, bearer, ?_⟩
  rw [fromRequestParts, material_eq bearer visible none]
  rfl

end MiryadCore.Auth
