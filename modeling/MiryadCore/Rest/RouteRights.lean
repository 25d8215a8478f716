import MiryadCore.Rest.RouteTurns

/-!
# What each operation asks

Every operation keeps to its turns: it is told who its caller is and what the
caller may do before it writes, it writes at most once, and it then succeeds.
-/

namespace MiryadCore.Rest

open Users (DbErr UserRow)

variable {Column : Type} [DecidableEq Column] {framed : Framed Column}
  {calls : Type} {route : calls → Routed framed}

section Learning

variable {call op γ ε : Type} {reply : op → Type}
  {protocol : Protocol call op reply γ (Course framed)}
  {course : Course framed} {α β : Type} {post : List (Told Column) → α → Prop}

/-- Whatever is replied, the query does not write, and its value is such for
what it was told. -/
abbrev Learns (protocol : Protocol call op reply γ (Course framed))
    (query : Query op reply ε α) (course : Course framed)
    (post : List (Told Column) → α → Prop) : Prop :=
  Script.Obeys protocol query course fun after result =>
    Later course after ∧ ∀ value, result = .ok value → post after.past value

namespace Learns

omit [DecidableEq Column]

theorem pure {value : α} (holds : post course.past value) :
    Learns protocol (Pure.pure value : Query op reply ε α) course post :=
  ⟨Later.refl course, fun _ same => Except.ok.inj same ▸ holds⟩

theorem fail {error : ε} :
    Learns protocol (Query.fail error : Query op reply ε α) course post :=
  ⟨Later.refl course, fun _ same => nomatch same⟩

variable {query : Query op reply ε α} {next : α → Query op reply ε β}

theorem andThen (learns : Learns protocol query course post)
    {ends : Course framed → Except ε β → Prop}
    (fails : ∀ error after, Later course after → ends after (.error error))
    (rest : ∀ value after, Later course after → post after.past value →
      Script.Obeys protocol (next value) after ends) :
    Script.Obeys protocol (query >>= next : Query op reply ε β) course
      ends := by
  apply Query.obeys_bind
  apply learns.mono
  intro after result told
  cases result with
  | ok value => exact rest value after told.1 (told.2 value rfl)
  | error error => exact fails error after told.1

theorem bind {final : List (Told Column) → β → Prop}
    (learns : Learns protocol query course post)
    (rest : ∀ value after, Later course after → post after.past value →
      Learns protocol (next value) after final) :
    Learns protocol (query >>= next) course final := by
  apply learns.andThen
  · exact fun _ after later => ⟨later, fun _ same => nomatch same⟩
  · intro value after later told
    apply (rest value after later told).mono
    exact fun last _ ends => ⟨later.trans ends.1, ends.2⟩

theorem imp {weaker : List (Told Column) → α → Prop}
    (learns : Learns protocol query course post)
    (weakens : ∀ past value, post past value → weaker past value) :
    Learns protocol query course weaker :=
  learns.mono fun _ _ ends =>
    ⟨ends.1, fun value same => weakens _ value (ends.2 value same)⟩

end Learns

end Learning

section Users

variable {course : Course framed} {policy : AccessPolicy} {user : UserRow}

/-- The part of the service that answers on users. -/
abbrev userTurns (route : calls → Routed framed) :=
  (turns route).comap Request.users

/-- What is told on users is told to the operation. -/
theorem Learns.ofUsers {α : Type} {query : Users.Db α}
    {post : List (Told Column) → α → Prop}
    (learns : Learns (userTurns route) query course post) :
    Learns (turns route) (Rest.ofUsers query) course post := by
  have all : ∀ (script : Script Users.Statement
      (fun statement => Except DbErr statement.Reply) (Except DbErr α)) stage,
      script.Obeys (userTurns route) stage (fun after result =>
        Later course after ∧
          ∀ value, result = .ok value → post after.past value) →
      Script.Obeys (turns route) (Rest.ofUsers script) stage
        fun after result => Later course after ∧
          ∀ value, result = .ok value → post after.past value := by
    intro script
    induction script with
    | done result =>
        refine fun stage ends => ⟨ends.1, fun value same => ?_⟩
        cases result with
        | ok found => exact ends.2 value (Except.ok.inj same ▸ rfl)
        | error error => cases same
    | call asked rest induction =>
        exact fun stage obeys =>
          ⟨obeys.1, fun answer => induction answer _ (obeys.2 answer)⟩
  exact all query course learns

theorem learns_statement (statement : Users.Statement)
    (unwritten : ¬ HasWritten course.past) :
    Learns (userTurns route) (Users.statement statement) course
      fun past reply => Says past statement reply := by
  refine ⟨⟨unwritten, .users statement⟩, fun answer =>
    ⟨later_next route fun wrote => wrote, fun reply same => ?_⟩⟩
  subst same
  exact List.mem_append_right _ List.mem_cons_self

theorem learns_isMember (account : ℤ) (name : String)
    (unwritten : ¬ HasWritten course.past) :
    Learns (userTurns route) (Users.isMember account name) course
      fun past member => member = true → InGroup past account name := by
  apply (learns_statement _ unwritten).bind
  intro found after later named
  cases found with
  | none => exact Learns.pure fun same => nomatch same
  | some group =>
      apply (learns_statement _ (later.unwritten unwritten)).bind
      intro found after' later' listed
      apply Learns.pure
      intro isSome
      obtain ⟨membership, rfl⟩ := Option.isSome_iff_exists.mp isSome
      exact ⟨group, membership, later'.past _ named, listed⟩

/-- The row that `resolve_user` returns was selected or inserted. -/
theorem learns_resolveUser (subject : String) (email : Option String)
    (unwritten : ¬ HasWritten course.past) :
    Learns (userTurns route) (Users.resolveUser subject email) course
      fun past user => AccountOf past subject user.id := by
  apply (learns_statement _ unwritten).bind
  intro found after later selected
  cases found with
  | some user => exact Learns.pure ⟨user, rfl, Or.inl selected⟩
  | none =>
      refine ⟨⟨later.unwritten unwritten, .users _⟩, fun answer => ?_⟩
      have later' : Later after ((userTurns route).next after
          (.insertUser subject email) answer) :=
        later_next route fun wrote => wrote
      cases answer with
      | ok user =>
          have inserted : Says ((userTurns route).next after
              (.insertUser subject email) (.ok user)).past
                (.insertUser subject email) user :=
            List.mem_append_right _ List.mem_cons_self
          exact ⟨later', fun _ same => Except.ok.inj same ▸
            ⟨user, rfl, Or.inr ⟨email, inserted⟩⟩⟩
      | error error =>
          have unwritten' := (later.trans later').unwritten unwritten
          refine Script.Obeys.mono (?_ : Learns (userTurns route) _ _
            fun past user => AccountOf past subject user.id) ?_
          · apply (learns_statement _ unwritten').bind
            intro found after'' later'' selected
            cases found with
            | some user => exact Learns.pure ⟨user, rfl, Or.inl selected⟩
            | none => exact Learns.fail
          · intro after'' result ends
            exact ⟨later'.trans ends.1, ends.2⟩

/-- A verdict without the row lets the caller act, or leaves it to the owner. -/
theorem learns_staticVerdict (unwritten : ¬ HasWritten course.past) :
    Learns (userTurns route) (staticVerdict policy user) course
      fun past verdict => match verdict with
        | some true => May past user.id policy False
        | some false => True
        | none => policy = .ownerOnly := by
  unfold staticVerdict
  split
  next isPublic => exact Learns.pure (Or.inl isPublic)
  next =>
    apply (learns_isMember user.id _ unwritten).bind
    intro admin after later told
    cases admin with
    | true => exact Learns.pure (Or.inr (Or.inl (told rfl)))
    | false =>
        cases policy with
        | publicAccess => exact Learns.pure (Or.inl rfl)
        | adminOnly => exact Learns.pure trivial
        | ownerOnly => exact Learns.pure rfl
        | group name =>
            apply (learns_isMember user.id name
              (later.unwritten unwritten)).bind
            intro member after' later' told
            cases member with
            | true =>
                exact Learns.pure
                  (Or.inr (Or.inr (Or.inl ⟨name, rfl, told rfl⟩)))
            | false => exact Learns.pure trivial

theorem learns_evaluate {ownerColumn : Option Column} {record : Model Column}
    (unwritten : ¬ HasWritten course.past) :
    Learns (userTurns route) (evaluate policy ownerColumn user record) course
      fun past answer => answer = true → May past user.id policy
        (∃ column, ownerColumn = some column ∧
          record column = .ofId user.id) := by
  apply (learns_staticVerdict unwritten).bind
  intro verdict after later told
  cases verdict with
  | some verdict =>
      apply Learns.pure
      rintro rfl
      exact told.imp False.elim
  | none =>
      cases ownerColumn with
      | none => exact Learns.pure fun same => nomatch same
      | some column =>
          apply Learns.pure
          exact fun same => Or.inr (Or.inr (Or.inr
            ⟨told, column, rfl, of_decide_eq_true same⟩))

theorem learns_canCreate {resource : Resource Column}
    (unwritten : ¬ HasWritten course.past) :
    Learns (userTurns route) (canCreate resource user) course
      fun past allowed => allowed = true →
        May past user.id resource.writePolicy
          (resource.ownerColumn.isSome = true) := by
  have admin : Learns (userTurns route)
      (Users.isMember user.id Users.adminGroupName) course
      fun past member => member = true →
        InGroup past user.id Users.adminGroupName :=
    learns_isMember _ _ unwritten
  unfold canCreate
  cases declared : resource.writePolicy with
  | publicAccess => exact Learns.pure fun _ => Or.inl rfl
  | adminOnly =>
      exact admin.imp fun _ _ told allowed => Or.inr (Or.inl (told allowed))
  | ownerOnly =>
      dsimp only
      split
      next owned =>
        exact Learns.pure fun _ => Or.inr (Or.inr (Or.inr ⟨rfl, owned⟩))
      next =>
        exact admin.imp fun _ _ told allowed => Or.inr (Or.inl (told allowed))
  | group name =>
      apply admin.bind
      intro isAdmin after later told
      cases isAdmin with
      | true => exact Learns.pure fun _ => Or.inr (Or.inl (told rfl))
      | false =>
          apply (learns_isMember user.id name (later.unwritten unwritten)).imp
          exact fun _ _ told allowed =>
            Or.inr (Or.inr (Or.inl ⟨name, rfl, told allowed⟩))

end Users

section Operations

variable {course : Course framed} {call : Routed framed} {id : ℤ}
  {body : Model Column}

/-- The result is a success exactly when the operation has written. -/
def Concluded {α : Type} (course : Course framed) (result : Except RestError α) :
    Prop :=
  result.isOk = true ↔ HasWritten course.past

omit [DecidableEq Column] in
theorem Later.fails {α : Type} {error : RestError} {after : Course framed}
    (later : Later course after) (unwritten : ¬ HasWritten course.past) :
    Concluded after (.error error : Except RestError α) :=
  iff_of_false Bool.false_ne_true (later.unwritten unwritten)

theorem settles {translate : DbErr → RestError} {asked : Request Column}
    (allowed : (turns route).allows course asked)
    (writes : ∀ answer, Told.Wrote ⟨asked, answer⟩ ↔ answer.isOk = true) :
    Script.Obeys (turns route) (Query.askWith translate asked) course
      Concluded := by
  refine ⟨allowed, fun answer => ?_⟩
  have told : HasWritten (course.past ++ [⟨asked, answer⟩]) ↔
      answer.isOk = true := by
    rw [hasWritten_append, or_iff_right allowed.1, writes]
  refine Iff.trans ?_ told.symm
  cases answer with
  | ok value => exact Iff.rfl
  | error error => exact Iff.rfl

theorem learns_find (unwritten : ¬ HasWritten course.past) :
    Learns (turns route) (request (.find id)) course fun past found =>
      ∀ row, found = some row → HasRead past id row := by
  refine ⟨⟨unwritten, .find id⟩, fun answer =>
    ⟨later_next route fun wrote => wrote, fun found same row read => ?_⟩⟩
  cases answer with
  | error error => cases same
  | ok other =>
      obtain rfl := Except.ok.inj same
      subst read
      exact List.mem_append_right _ List.mem_cons_self

theorem learns_hook {α : Type} {result : Except HookError α} :
    Learns (turns route) (ofHook result : Api Column α) course
      fun _ value => result = .ok value := by
  cases result with
  | ok value => exact Learns.pure rfl
  | error error => exact Learns.fail

/-- A row that is given out is one that the user may write. -/
theorem learns_authorized (call : Routed framed) {user : UserRow}
    (unwritten : ¬ HasWritten course.past) :
    Learns (turns route)
      (authorized call.resource call.resource.writePolicy user id) course
      fun past record => HasRead past id record ∧
        May past user.id framed.writePolicy
          (∃ column, framed.ownerColumn = some column ∧
            record column = .ofId user.id) := by
  apply (learns_staticVerdict unwritten).ofUsers.bind
  intro verdict after later told
  have unwritten' := later.unwritten unwritten
  cases verdict with
  | some verdict =>
      cases verdict with
      | false => exact Learns.fail
      | true =>
          apply (learns_find unwritten').bind
          intro found after' later' read
          cases found with
          | none => exact Learns.fail
          | some record =>
              exact Learns.pure
                ⟨read record rfl, (told.later later').imp False.elim⟩
  | none =>
      apply (learns_find unwritten').bind
      intro found after' later' read
      cases found with
      | none => exact Learns.fail
      | some record =>
          apply (learns_evaluate (later'.unwritten unwritten')).ofUsers.bind
          intro answer after'' later'' rights
          cases answer with
          | false => exact Learns.fail
          | true =>
              exact Learns.pure
                ⟨later''.past _ (read record rfl), rights rfl⟩

omit [DecidableEq Column] in
theorem wrote_iff {asked : Request Column}
    (wrote : ∀ value, Told.Wrote ⟨asked, .ok value⟩)
    (failed : ∀ error, ¬ Told.Wrote ⟨asked, .error error⟩)
    (answer : Except DbErr asked.Reply) :
    Told.Wrote ⟨asked, answer⟩ ↔ answer.isOk = true := by
  cases answer with
  | ok value => exact iff_of_true (wrote value) rfl
  | error error => exact iff_of_false (failed error) Bool.false_ne_true

/-- The course of an update and of a deletion: the caller is resolved, the row
is one that the caller may write, and the hook has accepted. -/
theorem target_settles {α β : Type} {hook : Model Column → Except HookError α}
    {next : Model Column → α → Api Column β} (same : course.call = call)
    (unwritten : ¬ HasWritten course.past)
    (rest : ∀ existing value last, last.call = call →
      ¬ HasWritten last.past → HasRead last.past id existing →
      MayWrite last.past framed.toResource call.principal.subject existing →
      hook existing = .ok value →
      Script.Obeys (turns route) (next existing value) last Concluded) :
    Script.Obeys (turns route)
      (do
        let user ← ofUsers
          (Users.resolveUser call.principal.subject call.principal.email)
        let existing ←
          authorized call.resource call.resource.writePolicy user id
        let value ← ofHook (hook existing)
        next existing value : Api Column β) course Concluded := by
  apply (learns_resolveUser _ _ unwritten).ofUsers.andThen
  · exact fun _ _ later => later.fails unwritten
  intro user after later account
  have unwritten' := later.unwritten unwritten
  apply (learns_authorized call unwritten').andThen
  · exact fun _ _ later => later.fails unwritten'
  intro existing after' later' told
  have unwritten'' := later'.unwritten unwritten'
  apply learns_hook.andThen
  · exact fun _ _ later => later.fails unwritten''
  intro value last hooking hooked
  have same' : last.call = call :=
    (hooking.call.trans (later'.call.trans later.call)).trans same
  exact rest existing value last same' (hooking.unwritten unwritten'')
    (hooking.past _ told.1)
    ⟨user.id, (account.later later').later hooking, told.2.later hooking⟩
    hooked

theorem create_settles (same : course.call = call)
    (asked : call.operation = .create body)
    (unwritten : ¬ HasWritten course.past) :
    Script.Obeys (turns route) (create call.resource call.principal body)
      course Concluded := by
  apply (learns_resolveUser _ _ unwritten).ofUsers.andThen
  · exact fun _ _ later => later.fails unwritten
  intro user after later account
  have unwritten' := later.unwritten unwritten
  apply (learns_canCreate unwritten').ofUsers.andThen
  · exact fun _ _ later => later.fails unwritten'
  intro allowed after' later' rights
  have unwritten'' := later'.unwritten unwritten'
  cases allowed with
  | false => exact (Later.refl after').fails unwritten''
  | true =>
      apply learns_hook.andThen
      · exact fun _ _ later => later.fails unwritten''
      intro active last hooking _
      have silent := hooking.unwritten unwritten''
      have same' : last.call = call :=
        (hooking.call.trans (later'.call.trans later.call)).trans same
      refine settles ⟨silent, ?_⟩
        (wrote_iff (fun _ => trivial) fun _ wrote => wrote)
      rw [same']
      exact .insert asked ((account.later later').later hooking)
        ((rights rfl).later hooking)

theorem update_settles (same : course.call = call)
    (asked : call.operation = .update id body)
    (unwritten : ¬ HasWritten course.past) :
    Script.Obeys (turns route) (update call.resource call.principal id body)
      course Concluded := by
  apply target_settles same unwritten
  intro existing active last same silent read may hooked
  refine settles ⟨silent, ?_⟩ (wrote_iff (fun _ => trivial) fun _ wrote => wrote)
  rw [same]
  exact .update asked read may hooked

theorem delete_settles (same : course.call = call)
    (asked : call.operation = .delete id)
    (unwritten : ¬ HasWritten course.past) :
    Script.Obeys (turns route) (delete call.resource call.principal id)
      course Concluded := by
  apply target_settles same unwritten
  intro existing _ last same silent read may _
  refine ⟨⟨silent, ?_⟩, fun answer => ?_⟩
  · rw [same]
    exact .delete asked read may
  have written : HasWritten (last.past ++ [⟨.delete id, answer⟩]) ↔
      Told.Wrote ⟨.delete id, answer⟩ := by
    rw [hasWritten_append, or_iff_right silent]
  cases answer with
  | error error =>
      exact iff_of_false Bool.false_ne_true fun wrote => written.mp wrote
  | ok affected =>
      cases affected with
      | zero =>
          exact iff_of_false Bool.false_ne_true fun wrote =>
            written.mp wrote rfl
      | succ others => exact iff_of_true rfl (written.mpr others.succ_ne_zero)

theorem Concluded.answering {α : Type} {one : calls} {query : Api Column α}
    {answer : α → Option (Model Column)}
    (settled : Script.Obeys (turns route) query course Concluded) :
    Script.Obeys (turns route)
      (query >>= fun value => pure (answer value) :
        Api Column (Option (Model Column))) course
      ((turns route).ends one) := by
  apply Query.obeys_bind
  apply settled.mono
  intro after result ends
  cases result with
  | ok value => exact ends
  | error error => exact ends

theorem program_obeys (one : calls) :
    Script.Obeys (turns route) (route one).program ((turns route).start one)
      ((turns route).ends one) := by
  have unwritten : ¬ HasWritten ((turns route).start one).past := by
    rintro ⟨told, member, _⟩
    cases member
  unfold Routed.program
  cases asked : (route one).operation with
  | create body =>
      exact Concluded.answering (create_settles rfl asked unwritten)
  | update id body =>
      exact Concluded.answering (update_settles rfl asked unwritten)
  | delete id => exact Concluded.answering (delete_settles rfl asked unwritten)

end Operations

end MiryadCore.Rest
