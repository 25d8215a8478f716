import MiryadCore.Control.Pool
import MiryadCore.Rest.Outcomes
import MiryadCore.Rest.Ownership

/-!
# What an operation is told before it writes

An operation writes once, at its end.  Until then it is told the account of its
caller, the groups of the account and the row that it read.
-/

namespace MiryadCore.Rest

open Users (DbErr UserRow GroupRow MembershipRow)

variable {Column : Type}

/-- A request with its reply. -/
structure Told (Column : Type) where
  asked : Request Column
  reply : Except DbErr asked.Reply

/-- The request wrote a row, or removed one. -/
def Told.Wrote : Told Column → Prop
  | ⟨.insert _ _, .ok _⟩ => True
  | ⟨.update _, .ok _⟩ => True
  | ⟨.delete _, .ok affected⟩ => affected ≠ 0
  | _ => False

section Telling

variable (past : List (Told Column))

def Says (statement : Users.Statement) (reply : statement.Reply) : Prop :=
  ⟨.users statement, .ok reply⟩ ∈ past

/-- The account of the subject. -/
def AccountOf (subject : String) (account : ℤ) : Prop :=
  ∃ user : UserRow, user.id = account ∧
    (Says past (.selectUser subject) (some user) ∨
      ∃ email, Says past (.insertUser subject email) user)

def InGroup (account : ℤ) (name : String) : Prop :=
  ∃ (group : GroupRow) (membership : MembershipRow),
    Says past (.selectGroup name) (some group) ∧
    Says past (.selectMembership account group.id) (some membership)

/-- The row that was read under the id. -/
def HasRead (id : ℤ) (row : Model Column) : Prop :=
  ⟨.find id, .ok (some row)⟩ ∈ past

def HasWritten : Prop :=
  ∃ told ∈ past, told.Wrote

/-- The policy lets the account act on what is `owned`. -/
def May (account : ℤ) (policy : AccessPolicy) (owned : Prop) : Prop :=
  policy = .publicAccess ∨ InGroup past account Users.adminGroupName ∨
    (∃ name, policy = .group name ∧ InGroup past account name) ∨
    policy = .ownerOnly ∧ owned

/-- The caller may write the row. -/
def MayWrite (resource : Resource Column) (subject : String)
    (row : Model Column) : Prop :=
  ∃ account, AccountOf past subject account ∧
    May past account resource.writePolicy
      (∃ column, resource.ownerColumn = some column ∧
        row column = .ofId account)

end Telling

/-- The columns that a hook of updates leaves as the row has them. -/
def Spares (frame : List Column) (hooks : Hooks Column) : Prop :=
  ∀ {body existing : Model Column} {principal : AuthPrincipal}
    {hooked : ActiveModel Column},
    hooks.beforeUpdate (markAllSet body.intoActiveModel) existing principal =
      .ok hooked →
    ∀ column ∈ frame, Table.overwrite hooked existing column = existing column

/-- A resource whose hooks spare the columns of a frame. -/
structure Framed (Column : Type) extends Resource Column where
  frame : List Column
  apart : ownerColumn ≠ some primaryKey

/-- An operation of a principal, with the hooks as they behave during it. -/
structure Routed (framed : Framed Column) where
  principal : AuthPrincipal
  operation : Operation Column
  hooks : Hooks Column
  spares : Spares framed.frame hooks

variable [DecidableEq Column] {framed : Framed Column}

def Routed.resource (call : Routed framed) : Resource Column :=
  { framed.toResource with hooks := call.hooks }

def Routed.program (call : Routed framed) :
    Api Column (Option (Model Column)) :=
  match call.operation with
  | .create body => do
      let row ← create call.resource call.principal body
      return some row
  | .update id body => do
      let row ← update call.resource call.principal id body
      return some row
  | .delete id => do
      delete call.resource call.principal id
      return none

/-- The requests of an operation on the table. -/
inductive Allows (call : Routed framed) (past : List (Told Column)) :
    Request Column → Prop where
  | users (statement : Users.Statement) : Allows call past (.users statement)
  | find (id : ℤ) : Allows call past (.find id)
  | insert {body : Model Column} {user : UserRow}
      {hooked : ActiveModel Column} :
      call.operation = .create body →
      AccountOf past call.principal.subject user.id →
      May past user.id framed.writePolicy
        (framed.ownerColumn.isSome = true) →
      Allows call past (.insert call.principal.subject
        (createActive framed.toResource user hooked))
  | update {id : ℤ} {body existing : Model Column}
      {hooked : ActiveModel Column} :
      call.operation = .update id body →
      HasRead past id existing →
      MayWrite past framed.toResource call.principal.subject existing →
      call.hooks.beforeUpdate (markAllSet body.intoActiveModel) existing
        call.principal = .ok hooked →
      Allows call past
        (.update (updateActive framed.toResource existing id hooked))
  | delete {id : ℤ} {existing : Model Column} :
      call.operation = .delete id →
      HasRead past id existing →
      MayWrite past framed.toResource call.principal.subject existing →
      Allows call past (.delete id)

/-- An operation with what it was told. -/
structure Course (framed : Framed Column) where
  call : Routed framed
  past : List (Told Column)

/-- Nothing is asked once the operation has written, and it succeeds exactly
when it has. -/
def turns {calls : Type} (route : calls → Routed framed) :
    Protocol calls (Request Column) (fun asked => Except DbErr asked.Reply)
      (Except RestError (Option (Model Column))) (Course framed) where
  start one := ⟨route one, []⟩
  allows course asked :=
    ¬ HasWritten course.past ∧ Allows course.call course.past asked
  next course asked reply := { course with
    past := course.past ++ [⟨asked, reply⟩] }
  ends _ course outcome := outcome.isOk = true ↔ HasWritten course.past

omit [DecidableEq Column] in
theorem hasWritten_append {past : List (Told Column)} {told : Told Column} :
    HasWritten (past ++ [told]) ↔ HasWritten past ∨ told.Wrote := by
  unfold HasWritten
  simp only [List.mem_append, List.mem_singleton]
  constructor
  · rintro ⟨one, member | rfl, wrote⟩
    · exact Or.inl ⟨one, member, wrote⟩
    · exact Or.inr wrote
  · rintro (⟨one, member, wrote⟩ | wrote)
    · exact ⟨one, Or.inl member, wrote⟩
    · exact ⟨told, Or.inr rfl, wrote⟩

/-- The operation goes on and is told more, without having written. -/
structure Later (course after : Course framed) : Prop where
  call : after.call = course.call
  past : ∀ told ∈ course.past, told ∈ after.past
  written : HasWritten after.past → HasWritten course.past

section Later

variable {course between after : Course framed} {subject : String}
  {account : ℤ} {name : String} {policy : AccessPolicy} {owned weaker : Prop}

omit [DecidableEq Column]

theorem Later.refl (course : Course framed) : Later course course :=
  ⟨rfl, fun _ member => member, id⟩

theorem Later.trans (first : Later course between)
    (second : Later between after) : Later course after where
  call := second.call.trans first.call
  past := fun told member => second.past told (first.past told member)
  written := fun written => first.written (second.written written)

theorem Later.unwritten (later : Later course after)
    (unwritten : ¬ HasWritten course.past) : ¬ HasWritten after.past :=
  fun written => unwritten (later.written written)

theorem AccountOf.later (later : Later course after)
    (known : AccountOf course.past subject account) :
    AccountOf after.past subject account := by
  obtain ⟨user, same, selected | ⟨email, inserted⟩⟩ := known
  · exact ⟨user, same, Or.inl (later.past _ selected)⟩
  · exact ⟨user, same, Or.inr ⟨email, later.past _ inserted⟩⟩

theorem InGroup.later (later : Later course after)
    (member : InGroup course.past account name) :
    InGroup after.past account name := by
  obtain ⟨group, membership, named, listed⟩ := member
  exact ⟨group, membership, later.past _ named, later.past _ listed⟩

theorem May.later (later : Later course after)
    (may : May course.past account policy owned) :
    May after.past account policy owned := by
  rcases may with isPublic | admin | ⟨name, same, member⟩ | owner
  · exact Or.inl isPublic
  · exact Or.inr (Or.inl (admin.later later))
  · exact Or.inr (Or.inr (Or.inl ⟨name, same, member.later later⟩))
  · exact Or.inr (Or.inr (Or.inr owner))

theorem May.imp {past : List (Told Column)} (weakens : owned → weaker)
    (may : May past account policy owned) :
    May past account policy weaker := by
  rcases may with isPublic | admin | member | ⟨same, owner⟩
  · exact Or.inl isPublic
  · exact Or.inr (Or.inl admin)
  · exact Or.inr (Or.inr (Or.inl member))
  · exact Or.inr (Or.inr (Or.inr ⟨same, weakens owner⟩))

end Later

theorem later_next {calls : Type} (route : calls → Routed framed)
    {course : Course framed} {asked : Request Column}
    {reply : Except DbErr asked.Reply}
    (silent : ¬ Told.Wrote ⟨asked, reply⟩) :
    Later course ((turns route).next course asked reply) where
  call := rfl
  past := fun _ member => List.mem_append_left _ member
  written := fun written =>
    (hasWritten_append.mp written).resolve_right silent

end MiryadCore.Rest
