import MiryadCore.Control.Observation
import MiryadCore.Definitions.McpServers
import MiryadCore.Users.Access

/-!
# The right to use an MCP server

A server is used by those whom its groups allow, as the tables have them at
the call.  A host, where there is one, decides before the tables do.
-/

namespace MiryadCore.Definitions

open Interactive (CallerPrincipal LymailleError)
open Users (Conditions DbErr)

structure Tables where
  users : Users.Session
  servers : List ServerRow

inductive Request where
  | users (statement : Users.Statement)
  | server (name : String)

/-- What a successful request returns. -/
@[reducible]
def Request.Reply : Request → Type
  | .users statement => statement.Reply
  | .server _ => Option ServerRow

def Tables.perform (conditions : Conditions) (tables : Tables) :
    (request : Request) → Except DbErr (request.Reply × Tables)
  | .users statement =>
      (tables.users.perform .left conditions statement).map
        fun (reply, users) => (reply, { tables with users })
  | .server name =>
      .ok (tables.servers.find? fun row => row.name = name, tables)

/-- One request.  A request that fails changes nothing. -/
def exec : Script.Service Request (fun request => Except DbErr request.Reply)
    Conditions Tables :=
  fun conditions tables request =>
    match conditions.fault with
    | some error => (.error error, tables)
    | none =>
        match tables.perform conditions request with
        | .error error => (.error error, tables)
        | .ok (reply, after) => (.ok reply, after)

/-- Code that asks for requests and fails as `lymaille` does. -/
abbrev Access (α : Type) : Type :=
  Query Request (fun request => Except DbErr request.Reply) LymailleError α

/-- `SERVER_UNAVAILABLE`, the only text of a refusal. -/
def serverUnavailable : String := "mcp server unavailable"

section Calls

variable (dbText : DbErr → String)

/-- `is_member`, its error translated. -/
def membre (userId : ℤ) (nom : String) : Access Bool :=
  Query.lift .users (fun _ answer => answer)
    (fun error => .store (dbText error)) (Users.isMember userId nom)

/-- The loop of `autorise` on the names. -/
def membreDeLUn (userId : ℤ) : List String → Access Bool
  | [] => return false
  | nom :: noms => do
      if ← membre dbText userId nom then return true
      else membreDeLUn userId noms

def autorise (caller : CallerPrincipal) (groupes : Value) : Access Bool :=
  match groupes.asArray with
  | none => return false
  | some noms =>
      if noms.any fun groupe => groupe.asString = some "all" then return true
      else if noms.any fun groupe => groupe.asString = some "admin" then
        return caller.isAdmin
      else membreDeLUn dbText caller.userId (noms.filterMap Value.asString)

def serverFor (caller : CallerPrincipal) (name : String) :
    Access ServerRow := do
  match ← Query.askWith (fun error => .store (dbText error))
      (Request.server name) with
  | none => Query.fail (.forbidden serverUnavailable)
  | some modele =>
      if ← autorise dbText caller modele.allowedGroups then return modele
      else Query.fail (.forbidden serverUnavailable)

structure McpRequest where
  context : String
  role : String
  deriving DecidableEq, Repr

structure McpGrant where
  url : String
  token : String
  expiresAt : Option ℕ
  deriving DecidableEq, Repr

def McpGrant.isExpired (grant : McpGrant) (now : ℕ) : Bool :=
  grant.expiresAt.any fun expiry => expiry ≤ now

inductive McpDecision where
  | unprovided
  | denied
  | granted (grant : McpGrant)
  deriving DecidableEq, Repr

/-- An error of the host, which says nothing. -/
inductive HostError where
  | hostError
  deriving DecidableEq, Repr

/-- What the host answers to `resolve_mcp`. -/
abbrev LymailleHost : Type :=
  McpRequest → CallerPrincipal → Except HostError McpDecision

inductive RoleBinding where
  | host (grant : McpGrant)
  | table (modele : ServerRow)
  deriving DecidableEq, Repr

/-- The binding that the tables give, when no host provides the role. -/
def boundRole (caller : CallerPrincipal) (boundServer : Option String) :
    Access RoleBinding :=
  match boundServer with
  | some name => RoleBinding.table <$> serverFor dbText caller name
  | none => Query.fail (.forbidden serverUnavailable)

/-- `resolve_role`, at the instant `now`. -/
def resolveRole (host : Option LymailleHost) (now : ℕ)
    (caller : CallerPrincipal) (context role : String)
    (boundServer : Option String) : Access RoleBinding :=
  match host with
  | some host =>
      match host { context, role } caller with
      | .ok (.granted grant) =>
          if grant.isExpired now then
            Query.fail (.forbidden serverUnavailable)
          else return .host grant
      | .ok .denied => Query.fail (.forbidden serverUnavailable)
      | .ok .unprovided => boundRole dbText caller boundServer
      | .error _ => Query.fail (.forbidden serverUnavailable)
  | none => boundRole dbText caller boundServer

end Calls

/-- The groups of the server allow the caller. -/
def MayUse (tables : Tables) (caller : CallerPrincipal) (row : ServerRow) :
    Prop :=
  "all" ∈ row.groups ∨ "admin" ∈ row.groups ∧ caller.isAdmin = true ∨
    ∃ name ∈ row.groups, name ≠ "admin" ∧
      tables.users.view.MemberOf caller.userId name

/-- What a failure of a statement is answered by. -/
def Failure (dbText : DbErr → String) (envs : ℕ → Conditions)
    (error : LymailleError) : Prop :=
  ∃ cause, error = .store (dbText cause) ∧ Users.Faulty envs cause

section Reading

variable {dbText : DbErr → String} {envs : ℕ → Conditions} {tables : Tables}
  {caller : CallerPrincipal}

/-- The code, alone with the tables. -/
abbrev Answers {α : Type} (dbText : DbErr → String) (envs : ℕ → Conditions)
    (query : Access α) (tables : Tables) (post : α → Prop)
    (refusal : LymailleError → Prop) : Prop :=
  Query.Observes (fun n => exec (envs n)) query tables post
    (fun error => Failure dbText envs error ∨ refusal error)

theorem answers_membre
    (distinct : (tables.users.view.groups.map Users.GroupRow.name).Nodup)
    (userId : ℤ) (nom : String) :
    Answers dbText envs (membre dbText userId nom) tables
      (fun answer => answer = true ↔ tables.users.view.MemberOf userId nom)
      (fun _ => False) := by
  have looked : Query.Observes (fun n => exec (envs n))
      (membre dbText userId nom) tables
      (fun answer => answer = true ↔ tables.users.view.MemberOf userId nom)
      (Failure dbText envs) := by
    apply Query.Observes.lift Tables.users
      (fun s s' => s'.servers = s.servers) envs
    case trans => exact fun first second => second.trans first
    case refl => exact fun _ => rfl
    case observes => exact Users.reads_isMember distinct userId nom
    case whole =>
      intro s s' servers users
      cases s
      cases s'
      obtain rfl := servers
      obtain rfl := users
      rfl
    case answers =>
      intro n s statement
      cases fault : (envs n).fault with
      | some error => simp [exec, Users.exec, fault]
      | none =>
          cases performed : s.users.perform .left (envs n) statement with
          | error error =>
              simp [exec, Users.exec, fault, Tables.perform, performed,
                Except.map]
          | ok answer =>
              simp [exec, Users.exec, fault, Tables.perform, performed,
                Except.map]
  apply looked.mono
  · exact fun _ holds => holds
  · exact fun _ failed => Or.inl failed

theorem answers_membreDeLUn
    (distinct : (tables.users.view.groups.map Users.GroupRow.name).Nodup)
    (userId : ℤ) (noms : List String) :
    Answers dbText envs (membreDeLUn dbText userId noms) tables
      (fun answer => answer = true ↔
        ∃ nom ∈ noms, tables.users.view.MemberOf userId nom)
      (fun _ => False) := by
  induction noms with
  | nil =>
      apply Query.Observes.pure
      simp
  | cons nom noms induction =>
      apply Query.Observes.bind (answers_membre distinct userId nom)
      intro answer member
      cases answer with
      | true =>
          apply Query.Observes.pure
          simp [member.mp rfl]
      | false =>
          apply Query.Observes.mono induction
          · intro found others
            rw [others, List.exists_mem_cons_iff, ← member]
            simp
          · exact fun _ failed => failed

theorem any_asString (tableau : List Value) (name : String) :
    (tableau.any fun groupe => groupe.asString = some name) = true ↔
      name ∈ tableau.filterMap Value.asString := by
  simp [List.mem_filterMap]

theorem answers_autorise
    (distinct : (tables.users.view.groups.map Users.GroupRow.name).Nodup)
    {row : ServerRow} (checked : row.Checked) :
    Answers dbText envs (autorise dbText caller row.allowedGroups) tables
      (fun answer => answer = true ↔ MayUse tables caller row)
      (fun _ => False) := by
  obtain ⟨tableau, array⟩ := Option.isSome_iff_exists.mp checked.groups
  have groups : row.groups = tableau.filterMap Value.asString := by
    rw [ServerRow.groups, array, Option.getD_some]
  unfold autorise
  rw [array]
  dsimp only
  split
  next all =>
    apply Query.Observes.pure
    rw [any_asString, ← groups] at all
    simp [MayUse, all]
  next notAll =>
    rw [any_asString, ← groups] at notAll
    split
    next admin =>
      rw [any_asString, ← groups] at admin
      have alone := checked.alone "admin" admin (Or.inr rfl)
      apply Query.Observes.pure
      simp [MayUse, alone]
    next notAdmin =>
      rw [any_asString, ← groups] at notAdmin
      rw [← groups]
      apply (answers_membreDeLUn distinct caller.userId row.groups).mono
      · intro answer member
        rw [member]
        constructor
        · intro present
          obtain ⟨nom, listed, holds⟩ := present
          refine Or.inr (Or.inr ⟨nom, listed, ?_, holds⟩)
          exact fun same => notAdmin (same ▸ listed)
        · intro may
          rcases may with all | admin | present
          · exact (notAll all).elim
          · exact (notAdmin admin.1).elim
          · obtain ⟨nom, listed, _, holds⟩ := present
            exact ⟨nom, listed, holds⟩
      · exact fun _ failed => failed

theorem answers_serverFor (served : Served tables.servers)
    (distinct : (tables.users.view.groups.map Users.GroupRow.name).Nodup)
    (name : String) :
    Answers dbText envs (serverFor dbText caller name) tables
      (fun row => row ∈ tables.servers ∧ row.name = name ∧
        MayUse tables caller row)
      (fun error => error = .forbidden serverUnavailable ∧
        ¬ ∃ row ∈ tables.servers, row.name = name ∧
          MayUse tables caller row) := by
  have read : Answers dbText envs
      (Query.askWith (fun error => .store (dbText error))
        (Request.server name)) tables
      (fun found => found = tables.servers.find? fun row => row.name = name)
      (fun error => error = .forbidden serverUnavailable ∧
        ¬ ∃ row ∈ tables.servers, row.name = name ∧
          MayUse tables caller row) := by
    apply Query.Observes.askWith
    intro n
    cases fault : (envs n).fault with
    | none =>
        left
        simp [exec, fault, Tables.perform]
    | some cause =>
        refine Or.inr ⟨cause, by simp [exec, fault], Or.inl ?_⟩
        exact ⟨cause, rfl, n, fault⟩
  apply read.bind
  intro found same
  cases found with
  | none =>
      apply Query.Observes.fail
      refine Or.inr ⟨rfl, ?_⟩
      intro present
      obtain ⟨row, member, named, _⟩ := present
      have absent := List.find?_eq_none.mp same.symm row member
      simp [named] at absent
  | some row =>
      have member := List.mem_of_find?_eq_some same.symm
      have named := List.find?_some same.symm
      rw [decide_eq_true_eq] at named
      have decided : Answers dbText envs
          (autorise dbText caller row.allowedGroups) tables
          (fun answer => answer = true ↔ MayUse tables caller row)
          (fun error => error = .forbidden serverUnavailable ∧
            ¬ ∃ row ∈ tables.servers, row.name = name ∧
              MayUse tables caller row) := by
        apply (answers_autorise distinct (served.checked row member)).mono
        · exact fun _ holds => holds
        · exact fun _ failed => failed.imp_right False.elim
      apply decided.bind
      intro answer may
      cases answer with
      | true => exact Query.Observes.pure ⟨member, named, may.mp rfl⟩
      | false =>
          apply Query.Observes.fail
          refine Or.inr ⟨rfl, ?_⟩
          intro present
          obtain ⟨other, listed, called, allowed⟩ := present
          have one := List.inj_on_of_nodup_map served.names listed member
            (called.trans named.symm)
          rw [one] at allowed
          exact absurd (may.mpr allowed) Bool.false_ne_true

end Reading

/-- What a call answers. -/
def answer {α : Type} (envs : ℕ → Conditions) (query : Access α)
    (tables : Tables) : Except LymailleError α :=
  (Script.run exec envs query tables).1

/-- The statements do not fail by themselves. -/
def Faultless (envs : ℕ → Conditions) : Prop :=
  ∀ n, (envs n).fault = none

theorem Answers.run {α : Type} {dbText : DbErr → String}
    {envs : ℕ → Conditions} {query : Access α} {tables : Tables}
    {post : α → Prop} {refusal : LymailleError → Prop}
    (answers : Answers dbText envs query tables post refusal) :
    (∃ value, answer envs query tables = .ok value ∧ post value) ∨
      ∃ error, answer envs query tables = .error error ∧
        (Failure dbText envs error ∨ refusal error) := by
  have ends := (Query.Observes.run answers fun n => n).2
  have same : Script.run (fun n => exec (envs n)) (fun n => n) query tables =
      Script.run exec envs query tables :=
    Script.run_conditions envs (fun n => n) query tables
  rw [same] at ends
  exact ends

theorem Faultless.not_failure {dbText : DbErr → String}
    {envs : ℕ → Conditions} (faultless : Faultless envs)
    (error : LymailleError) : ¬ Failure dbText envs error := by
  intro failed
  obtain ⟨cause, _, n, fault⟩ := failed
  rw [faultless n] at fault
  cases fault

section Decision

variable {dbText : DbErr → String} {tables : Tables}

theorem mayUse_of_answer (served : Served tables.servers)
    (distinct : (tables.users.view.groups.map Users.GroupRow.name).Nodup)
    {caller : CallerPrincipal} {envs : ℕ → Conditions} {name : String}
    {row : ServerRow}
    (answered : answer envs (serverFor dbText caller name) tables = .ok row) :
    row ∈ tables.servers ∧ row.name = name ∧ MayUse tables caller row := by
  rcases Answers.run (answers_serverFor served distinct name) with
    accepted | refused
  · obtain ⟨value, same, holds⟩ := accepted
    rw [answered] at same
    obtain rfl := Except.ok.inj same
    exact holds
  · obtain ⟨error, same, _⟩ := refused
    rw [answered] at same
    cases same

theorem serverFor_answers (dbText : DbErr → String)
    (served : Served tables.servers)
    (distinct : (tables.users.view.groups.map Users.GroupRow.name).Nodup)
    (caller : CallerPrincipal) {envs : ℕ → Conditions}
    (faultless : Faultless envs) (name : String) :
    (∃ row ∈ tables.servers, row.name = name ∧ MayUse tables caller row ∧
      answer envs (serverFor dbText caller name) tables = .ok row) ∨
    (¬ ∃ row ∈ tables.servers, row.name = name ∧
        MayUse tables caller row) ∧
      answer envs (serverFor dbText caller name) tables =
        .error (.forbidden serverUnavailable) := by
  have answers : Answers dbText envs (serverFor dbText caller name) tables _ _ :=
    answers_serverFor served distinct name
  rcases answers.run with accepted | refused
  · obtain ⟨row, same, member, named, may⟩ := accepted
    exact Or.inl ⟨row, member, named, may, same⟩
  · obtain ⟨error, same, ends⟩ := refused
    obtain ⟨rfl, none⟩ := ends.resolve_left (faultless.not_failure error)
    exact Or.inr ⟨none, same⟩

theorem serverFor_ok_iff (served : Served tables.servers)
    (distinct : (tables.users.view.groups.map Users.GroupRow.name).Nodup)
    (caller : CallerPrincipal) {envs : ℕ → Conditions}
    (faultless : Faultless envs) (name : String) (row : ServerRow) :
    answer envs (serverFor dbText caller name) tables = .ok row ↔
      row ∈ tables.servers ∧ row.name = name ∧
        MayUse tables caller row := by
  constructor
  · exact mayUse_of_answer served distinct
  · intro may
    obtain ⟨member, named, allowed⟩ := may
    rcases serverFor_answers dbText served distinct caller
      faultless name with accepted | refused
    · obtain ⟨found, listed, called, _, same⟩ := accepted
      rw [same, List.inj_on_of_nodup_map served.names listed member
        (called.trans named.symm)]
    · exact (refused.1 ⟨row, member, named, allowed⟩).elim

/-- Servers that the caller may not use make no difference. -/
theorem serverFor_indistinguishable {other : Tables}
    (served : Served tables.servers) (servedOther : Served other.servers)
    (distinct : (tables.users.view.groups.map Users.GroupRow.name).Nodup)
    (caller : CallerPrincipal) (sameUsers : other.users = tables.users)
    (sameUsable : ∀ row, MayUse tables caller row →
      (row ∈ other.servers ↔ row ∈ tables.servers))
    {envs envs' : ℕ → Conditions} (faultless : Faultless envs)
    (faultless' : Faultless envs') (name : String) :
    answer envs' (serverFor dbText caller name) other =
      answer envs (serverFor dbText caller name) tables := by
  have sameMay : ∀ row, MayUse other caller row ↔ MayUse tables caller row := by
    intro row
    rw [MayUse, MayUse, sameUsers]
  have distinctOther :
      (other.users.view.groups.map Users.GroupRow.name).Nodup := by
    rw [sameUsers]
    exact distinct
  rcases serverFor_answers dbText served distinct caller
    faultless name with accepted | refused
  · obtain ⟨row, member, named, may, same⟩ := accepted
    rw [same, serverFor_ok_iff servedOther distinctOther caller faultless']
    exact ⟨(sameUsable row may).mpr member, named, (sameMay row).mpr may⟩
  · rcases serverFor_answers dbText servedOther distinctOther
      caller faultless' name with accepted | refusedOther
    · obtain ⟨row, member, named, may, _⟩ := accepted
      rw [sameMay] at may
      exact (refused.1
        ⟨row, (sameUsable row may).mp member, named, may⟩).elim
    · rw [refused.2, refusedOther.2]

end Decision

/-- The groups, with no group apart, allow the caller. -/
def Listed (tables : Tables) (caller : CallerPrincipal) (row : ServerRow) :
    Prop :=
  "all" ∈ row.groups ∨ "admin" ∈ row.groups ∧ caller.isAdmin = true ∨
    ∃ name ∈ row.groups, tables.users.view.MemberOf caller.userId name

theorem mayUse_iff_listed {tables : Tables} {caller : CallerPrincipal}
    (current : caller.isAdmin = true ↔
      tables.users.view.MemberOf caller.userId Users.adminGroupName)
    (row : ServerRow) :
    MayUse tables caller row ↔ Listed tables caller row := by
  constructor
  · intro may
    rcases may with all | admin | present
    · exact Or.inl all
    · exact Or.inr (Or.inl admin)
    · obtain ⟨name, listed, _, member⟩ := present
      exact Or.inr (Or.inr ⟨name, listed, member⟩)
  · intro allowed
    rcases allowed with all | admin | present
    · exact Or.inl all
    · exact Or.inr (Or.inl admin)
    · obtain ⟨name, listed, member⟩ := present
      by_cases admin : name = "admin"
      · subst admin
        exact Or.inr (Or.inl ⟨listed, current.mpr member⟩)
      · exact Or.inr (Or.inr ⟨name, listed, admin, member⟩)

section Role

variable {dbText : DbErr → String} {host : Option LymailleHost} {now : ℕ}
  {caller : CallerPrincipal} {context role : String}
  {boundServer : Option String} {envs : ℕ → Conditions} {tables : Tables}

/-- No host provides the role. -/
def Unprovided (host : Option LymailleHost) (caller : CallerPrincipal)
    (context role : String) : Prop :=
  ∀ decides, host = some decides →
    decides { context, role } caller = .ok .unprovided

/-- The host has a grant for the role, which lasts. -/
def Granted (host : Option LymailleHost) (now : ℕ) (caller : CallerPrincipal)
    (context role : String) (grant : McpGrant) : Prop :=
  (∃ decides, host = some decides ∧
    decides { context, role } caller = .ok (.granted grant)) ∧
  ∀ expiry, grant.expiresAt = some expiry → now < expiry

theorem McpGrant.isExpired_eq_false (grant : McpGrant) (now : ℕ) :
    grant.isExpired now = false ↔
      ∀ expiry, grant.expiresAt = some expiry → now < expiry := by
  cases expires : grant.expiresAt with
  | none => simp [McpGrant.isExpired, expires]
  | some at' => simp [McpGrant.isExpired, expires]

theorem resolveRole_granted {grant : McpGrant}
    (granted : Granted host now caller context role grant) :
    resolveRole dbText host now caller context role boundServer =
      pure (.host grant) := by
  obtain ⟨⟨decides, rfl, decision⟩, lasts⟩ := granted
  rw [← McpGrant.isExpired_eq_false] at lasts
  simp [resolveRole, decision, lasts]

theorem resolveRole_unprovided
    (unprovided : Unprovided host caller context role) :
    resolveRole dbText host now caller context role boundServer =
      boundRole dbText caller boundServer := by
  cases host with
  | none => rfl
  | some decides =>
      simp only [resolveRole, unprovided decides rfl]

theorem resolveRole_refused
    (provided : ¬ Unprovided host caller context role)
    (notGranted : ∀ grant, ¬ Granted host now caller context role grant) :
    resolveRole dbText host now caller context role boundServer =
      Query.fail (.forbidden serverUnavailable) := by
  cases host with
  | none =>
      refine (provided ?_).elim
      intro decides impossible
      cases impossible
  | some decides =>
      cases decision : decides { context, role } caller with
      | error error => simp only [resolveRole, decision]
      | ok decided =>
          cases decided with
          | unprovided =>
              refine (provided ?_).elim
              intro other same
              obtain rfl := Option.some.inj same
              exact decision
          | denied => simp only [resolveRole, decision]
          | granted grant =>
              have expired : grant.isExpired now = true := by
                cases expires : grant.isExpired now with
                | true => rfl
                | false =>
                    rw [McpGrant.isExpired_eq_false] at expires
                    exact (notGranted grant
                      ⟨⟨decides, rfl, decision⟩, expires⟩).elim
              simp [resolveRole, decision, expired]

theorem answer_boundRole :
    answer envs (boundRole dbText caller boundServer) tables =
      match boundServer with
      | some name =>
          (answer envs (serverFor dbText caller name) tables).map .table
      | none => .error (.forbidden serverUnavailable) := by
  cases boundServer with
  | none => rfl
  | some name =>
      have mapped : ∀ (script : Access ServerRow) (envs : ℕ → Conditions)
          (tables : Tables), answer envs (RoleBinding.table <$> script) tables =
            (answer envs script tables).map .table := by
        intro script
        induction script with
        | done result =>
            intro envs tables
            cases result <;> rfl
        | call request next induction =>
            intro envs tables
            exact induction _ _ _
      exact mapped _ envs tables

/-- A binding is the host's only by its grant. -/
theorem resolveRole_host_iff {grant : McpGrant} :
    answer envs (resolveRole dbText host now caller context role boundServer)
        tables = .ok (.host grant) ↔
      Granted host now caller context role grant := by
  constructor
  · intro answered
    by_cases unprovided : Unprovided host caller context role
    · rw [resolveRole_unprovided unprovided, answer_boundRole] at answered
      cases boundServer with
      | none => cases answered
      | some name =>
          dsimp only at answered
          cases found : answer envs (serverFor dbText caller name) tables with
          | ok row =>
              rw [found] at answered
              cases answered
          | error error =>
              rw [found] at answered
              cases answered
    · by_cases granted : ∃ other, Granted host now caller context role other
      · obtain ⟨other, granted⟩ := granted
        rw [resolveRole_granted granted] at answered
        obtain rfl := RoleBinding.host.inj (Except.ok.inj answered)
        exact granted
      · rw [resolveRole_refused unprovided (not_exists.mp granted)] at answered
        cases answered
  · intro granted
    rw [resolveRole_granted granted]
    rfl

end Role

/-- A server is used by those whom its groups allow and looks absent to the
others; a host that provides a role decides it without the tables. -/
theorem server_use_decided (dbText : DbErr → String) {tables : Tables}
    (written : Written tables.servers)
    (distinct : (tables.users.view.groups.map Users.GroupRow.name).Nodup)
    (caller : CallerPrincipal) :
    (∀ envs name row,
      answer envs (serverFor dbText caller name) tables = .ok row →
        row ∈ tables.servers ∧ row.name = name ∧
          MayUse tables caller row) ∧
    (∀ envs, Faultless envs → ∀ name,
      (∀ row, answer envs (serverFor dbText caller name) tables = .ok row ↔
        row ∈ tables.servers ∧ row.name = name ∧
          MayUse tables caller row) ∧
      ∀ error,
        answer envs (serverFor dbText caller name) tables = .error error →
          error = .forbidden serverUnavailable) ∧
    ((caller.isAdmin = true ↔
        tables.users.view.MemberOf caller.userId Users.adminGroupName) →
      ∀ row, MayUse tables caller row ↔ Listed tables caller row) ∧
    (∀ other : Tables, Written other.servers → other.users = tables.users →
      (∀ row, MayUse tables caller row →
        (row ∈ other.servers ↔ row ∈ tables.servers)) →
      ∀ envs envs', Faultless envs → Faultless envs' → ∀ name,
        answer envs' (serverFor dbText caller name) other =
          answer envs (serverFor dbText caller name) tables) ∧
    ∀ host now context role boundServer envs,
      (∀ grant, answer envs (resolveRole dbText host now caller context role
          boundServer) tables = .ok (.host grant) ↔
        Granted host now caller context role grant) ∧
      (¬ Unprovided host caller context role →
        (∀ grant, ¬ Granted host now caller context role grant) →
        answer envs (resolveRole dbText host now caller context role
          boundServer) tables = .error (.forbidden serverUnavailable)) ∧
      (Unprovided host caller context role →
        answer envs (resolveRole dbText host now caller context role
            boundServer) tables =
          match boundServer with
          | some name =>
              (answer envs (serverFor dbText caller name) tables).map .table
          | none => .error (.forbidden serverUnavailable)) ∧
      (¬ Unprovided host caller context role → ∀ (other : Tables) envs',
        answer envs' (resolveRole dbText host now caller context role
            boundServer) other =
          answer envs (resolveRole dbText host now caller context role
            boundServer) tables) := by
  have served := served_of_written written
  refine ⟨?_, ?_, ?_, ?_, ?_⟩
  · intro envs name row
    exact mayUse_of_answer served distinct
  · intro envs faultless name
    refine ⟨serverFor_ok_iff served distinct caller faultless name, ?_⟩
    intro error failed
    rcases serverFor_answers dbText served distinct caller
      faultless name with accepted | refused
    · obtain ⟨row, _, _, _, same⟩ := accepted
      rw [failed] at same
      cases same
    · rw [failed] at refused
      exact Except.error.inj refused.2
  · exact mayUse_iff_listed
  · intro other writtenOther sameUsers sameUsable envs envs' faultless
      faultless' name
    exact serverFor_indistinguishable served (served_of_written writtenOther)
      distinct caller sameUsers sameUsable faultless faultless' name
  · intro host now context role boundServer envs
    refine ⟨?_, ?_, ?_, ?_⟩
    · exact fun _ => resolveRole_host_iff
    · intro provided notGranted
      rw [resolveRole_refused provided notGranted]
      rfl
    · intro unprovided
      rw [resolveRole_unprovided unprovided]
      exact answer_boundRole
    · intro provided other envs'
      by_cases granted : ∃ grant, Granted host now caller context role grant
      · obtain ⟨grant, granted⟩ := granted
        rw [resolveRole_granted granted]
        rfl
      · rw [resolveRole_refused provided (not_exists.mp granted)]
        rfl

def adminServer : ServerRow where
  id := 1
  name := "kubectl"
  url := "https://mcp.example/"
  requestTimeoutSecs := 30
  connectTimeoutSecs := 5
  authMode := "none"
  authRef := none
  allowedGroups := .array [.string "admin"]
  createdAt := 0

/-- One user, who is in the group of the administrators. -/
def oneAdmin : Tables where
  users := .start
    { users := [⟨1, "ada", none, none, 0⟩]
      groups := [⟨1, "admin", 0⟩]
      memberships := [⟨1, 1, 1⟩]
      nextUser := 2
      nextGroup := 2
      nextMembership := 2 }
  servers := [adminServer]

theorem oneAdmin_written : Written oneAdmin.servers :=
  .created 0 adminServer adminServer.activeModel 1 adminServer .empty
    rfl rfl (by simp) (by simp)

theorem server_use_decided_oneAdmin :
    answer (fun _ => ⟨none, 0, 0⟩)
        (serverFor (fun _ => "") ⟨1, "ada", true⟩ "kubectl") oneAdmin =
      .ok adminServer :=
  (((server_use_decided (fun _ => "") oneAdmin_written (by decide)
    ⟨1, "ada", true⟩).2.1 _ (fun _ => rfl) "kubectl").1 adminServer).mpr
      ⟨by simp [oneAdmin], rfl, Or.inr (Or.inl ⟨by decide +kernel, rfl⟩)⟩

/-- A caller read before joining the administrators is refused, although in
one of the groups. -/
theorem stale_administrator_refused :
    ¬ ∀ (tables : Tables) (caller : CallerPrincipal) (name : String),
      Written tables.servers → tables.users.view.Consistent →
      ((∃ row, answer (fun _ => ⟨none, 0, 0⟩)
          (serverFor (fun _ => "") caller name) tables = .ok row) ↔
        ∃ row ∈ tables.servers, row.name = name ∧
          Listed tables caller row) := by
  intro claimed
  have consistent : oneAdmin.users.view.Consistent := by
    constructor <;> decide
  have agrees := claimed oneAdmin ⟨1, "ada", false⟩ "kubectl" oneAdmin_written
    consistent
  have listed : Listed oneAdmin ⟨1, "ada", false⟩ adminServer :=
    Or.inr (Or.inr ⟨"admin", by decide +kernel, by decide⟩)
  obtain ⟨row, answered⟩ :=
    agrees.mpr ⟨adminServer, List.mem_singleton_self _, rfl, listed⟩
  have refused : answer (fun _ => ⟨none, 0, 0⟩)
      (serverFor (fun _ => "") ⟨1, "ada", false⟩ "kubectl") oneAdmin =
        .error (.forbidden serverUnavailable) := by
    rfl
  rw [refused] at answered
  cases answered

end MiryadCore.Definitions
