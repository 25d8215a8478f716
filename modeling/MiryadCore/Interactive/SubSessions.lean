import MiryadCore.Interactive.OpenedSessions

/-!
# The sessions of the workflows

A step of a workflow saves the session of its agent under the subject of its
caller, with the kind `Sub`.  `open_` never opens such a session, and `resume`
refuses one, for it has no context; `send` refuses one only when it has been
closed.
-/

namespace MiryadCore.Interactive.Stored

open Manager (Section Conditions)

variable {parts : Parts}

/-- A stored session has been read. -/
def Loads (subject : String) (id : SessionId) (state : SessionState) :
    Passage parts → Prop
  | ⟨_, _, .section_ (.load other otherId), .ok (some found)⟩ =>
      other = subject ∧ otherId = id ∧ found = state
  | _ => False

/-- There was no session to read. -/
def Misses (subject : String) (id : SessionId) : Passage parts → Prop
  | ⟨_, _, .section_ (.load other otherId), .ok none⟩ =>
      other = subject ∧ otherId = id
  | _ => False

/-- The session has been found to have a context. -/
def Reads (subject : String) (id : SessionId) : Passage parts → Prop
  | ⟨_, _, .section_ (.readContextColumn other otherId), .ok (some _)⟩ =>
      other = subject ∧ otherId = id
  | _ => False

/-- The context of a session could not be read. -/
def FailsToRead : Passage parts → Prop
  | ⟨_, _, .section_ (.readContextColumn _ _), .error _⟩ => True
  | _ => False

/-- A turn that only an opened session has. -/
def Clears (subject : String) (id : SessionId) (turn : Passage parts) : Prop :=
  Saves subject id turn ∨ (∃ context, Stamps subject id context turn) ∨
    Reads subject id turn

/-- A session of a workflow has been read. -/
def loadsSub : Passage parts → Bool
  | ⟨_, _, .section_ (.load _ _), .ok (some state)⟩ => state.kind = .sub
  | _ => false

/-- `send` has found its session open. -/
def findsOpen : Passage parts → Bool
  | ⟨_, _, .section_ (.isClosed _), closed⟩ => !closed
  | _ => false

theorem loads_of_loadsSub {turn : Passage parts} (loads : loadsSub turn = true) :
    ∃ subject id state, Loads subject id state turn ∧ state.kind = .sub := by
  obtain ⟨task, before, request, answer⟩ := turn
  cases request with
  | save subject state => cases loads
  | section_ request =>
      cases request with
      | load subject id =>
          cases answer with
          | error error => cases loads
          | ok found =>
              cases found with
              | none => cases loads
              | some state =>
                  exact ⟨subject, id, state, ⟨rfl, rfl, rfl⟩,
                    of_decide_eq_true loads⟩
      | _ => cases loads

/-- What a task has learnt of the kind of its session. -/
inductive Known where
  | nothing
  | restoring (subject : String) (id : SessionId)
  | running (subject : String) (id : SessionId) (kind : SessionKind)
  | reading (subject : String) (id : SessionId)
  | missed
  | loaded (subject : String) (id : SessionId) (kind : SessionKind)
  | refused
  | failed
  | sending (subject : String) (id : SessionId) (kind : SessionKind)
  | granted (subject : String) (id : SessionId)

def Known.allows : Known → Request → Prop
  | .nothing, .section_ (.save _ state) => state.kind ≠ .sub
  | .nothing, .section_ (.stampContext _ _ _) => True
  | .nothing, .section_ request => request.Idle
  | .restoring subject id, request => request = .section_ (.load subject id)
  | .running subject id kind, .save other state =>
      other = subject ∧ state.id = id ∧ state.kind = kind
  | .reading subject id, .section_ request =>
      request.Asks ∧ ∀ other otherId, request = .load other otherId →
        other = subject ∧ otherId = id
  | .loaded subject id _, .section_ request =>
      request = .isClosed id ∨ request = .readContextColumn subject id
  | .sending subject id _, .section_ request =>
      (request.Idle ∧ ¬ request.Asks) ∨
        ∃ turn, request = .spawn turn ∧ turn.caller.subject = subject ∧
          turn.session = id
  | .granted _ _, .section_ request => request.Idle ∧ ¬ request.Asks
  | _, _ => False

def Known.next : Known → (request : Request) → request.Reply → Known
  | .restoring subject id, .section_ (.load _ _), .ok (some state) =>
      .running subject id state.kind
  | .restoring subject id, .section_ (.load _ _), .ok none =>
      .running subject id .sub
  | .restoring _ _, .section_ (.load _ _), .error _ => .missed
  | .reading subject id, .section_ (.load _ _), .ok (some state) =>
      .loaded subject id state.kind
  | .reading _ _, .section_ (.load _ _), _ => .missed
  | .loaded subject id kind, .section_ (.isClosed _), closed =>
      if closed then .refused else .sending subject id kind
  | .loaded subject id _, .section_ (.readContextColumn _ _), .ok (some _) =>
      .granted subject id
  | .loaded _ _ _, .section_ (.readContextColumn _ _), .ok none => .refused
  | .loaded _ _ _, .section_ (.readContextColumn _ _), .error _ => .failed
  | stage, _, _ => stage

/-- How `send` ends. -/
def SendEnds (subject : String) (id : SessionId) (stage : Known)
    (result : Except LymailleError Unit) : Prop :=
  stage = .reading subject id ∨ stage = .missed ∨
    (stage = .refused ∧ result = .error (.notFound SESSION_NOT_FOUND)) ∨
    ∃ kind, stage = .sending subject id kind

/-- How `resume` ends. -/
def ResumeEnds (subject : String) (id : SessionId) (stage : Known)
    (result : Except LymailleError SessionHandle) : Prop :=
  ((stage = .reading subject id ∨ stage = .missed ∨ stage = .failed) ∧
      ∃ error, result = .error error) ∨
    (stage = .refused ∧ result = .error (.notFound SESSION_NOT_FOUND)) ∨
    (stage = .granted subject id ∧
      ∀ handle, result = .ok handle → handle.id = id)

def Known.ends : Call → Known → Manager.Answer → Prop
  | .manager (.send subject id _ _), stage, answer =>
      ∃ result, answer = .sent result ∧ SendEnds subject id stage result
  | .manager (.resume subject id), stage, answer =>
      ∃ result, answer = .resumed result ∧ ResumeEnds subject id stage result
  | _, _, _ => True

def knowing : Protocol Call Request Request.Reply Manager.Answer Known where
  start
    | .manager (.send subject id _ _) => .reading subject id
    | .manager (.resume subject id) => .reading subject id
    | .manager _ => .nothing
    | .runner subject id _ => .restoring subject id
  allows := Known.allows
  next := Known.next
  ends := Known.ends

/-- The stages, as the sections of the manager have them. -/
abbrev learning : Protocol Call Section Section.Reply Manager.Answer Known :=
  knowing.comap Request.section_

theorem nothing_of_asking {α : Type} {code : Manager.Code α}
    (asking : Manager.Asking code) :
    Query.Rests learning .nothing code fun _ => True := by
  apply asking.only.rests
  · intro request asks
    cases request <;> first | exact asks.elim | trivial
  · intro request asks answer
    cases request <;> rfl

theorem sessionKindOf_ne_sub {type : ContextType}
    {definition : AgentDefinition} {kind : SessionKind}
    (resolved : Manager.sessionKindOf type definition = .ok kind) :
    kind ≠ .sub := by
  unfold Manager.sessionKindOf at resolved
  split at resolved
  all_goals
    split at resolved
    all_goals
      cases resolved
  all_goals exact fun same => by cases same

theorem rests_resolveTypeStart (caller : CallerPrincipal) (kind : IdKind)
    (context : String) (agent : Option String) :
    Query.Rests learning .nothing
      (Manager.resolveTypeStart caller kind context agent)
      fun start => start.1 ≠ .sub := by
  apply (nothing_of_asking
    (Manager.asking_visibleContextType caller kind context)).bind
  intro reference _
  cases reference with
  | none => exact .fail _
  | some reference =>
  have typed : (Section.contextType reference).Asks := trivial
  apply (nothing_of_asking (Manager.asking_demand typed
    (Manager.mapError_ne Manager.store_ne))).bind
  intro found _
  cases found with
  | none => exact .fail _
  | some found =>
  have starts : (Section.resolveStart caller.subject found.1).Asks := trivial
  apply (nothing_of_asking (Manager.asking_demand starts
    (Manager.mapError_ne Manager.fromCatalog_ne))).bind
  intro start _
  split
  next => exact .fail _
  next agentId _ =>
    split
    next => exact .fail _
    next =>
      apply (nothing_of_asking
        (Manager.asking_definitionOf caller.subject agentId agent start)).bind
      intro definition _
      apply (Query.Rests.ofExcept fun _ =>
        sessionKindOf_ne_sub).bind
      intro kind different
      exact .pure different

theorem rests_resolveStart (caller : CallerPrincipal) (context : String)
    (agent : Option String) :
    Query.Rests learning .nothing
      (Manager.resolveStart caller context agent)
      fun start => start.1 ≠ .sub := by
  have classified : Query.Rests learning .nothing
      (Query.ofExcept (classify context)) fun _ => True :=
    .ofExcept fun _ _ => trivial
  apply classified.bind
  intro kind _
  split
  next =>
    cases agent with
    | none => exact .fail _
    | some agent =>
        apply (nothing_of_asking
          (Manager.asking_hostContextExists caller context)).bind
        intro _ _
        apply (nothing_of_asking
          (Manager.asking_resolveAgent caller.subject agent)).bind
        intro definition _
        split
        next => exact .fail _
        next => exact .pure (fun same => by cases same)
  next => exact rests_resolveTypeStart caller _ context agent

theorem rests_checkCount (bound : ℕ) (caller : CallerPrincipal)
    (subject : String) :
    Query.Rests learning .nothing (Manager.checkCount bound caller subject)
      fun _ => True := by
  unfold Manager.checkCount
  split
  next => exact .pure trivial
  next =>
    refine ⟨trivial, fun count => ?_⟩
    show Query.Rests learning .nothing
      (if bound ≤ count then Manager.throw Manager.tooMany else pure ())
      fun _ => True
    split
    next => exact .fail _
    next => exact .pure trivial

/-- `open_` saves no session of the kind `Sub`. -/
theorem learns_open (bound : ℕ) (subject context : String)
    (agent : Option String) :
    Script.Obeys learning (Manager.open_ bound subject context agent) .nothing
      fun _ _ => True := by
  have fails : ∀ error : LymailleError,
      (fun (_ : Known) (_ : Except LymailleError SessionHandle) => True)
        .nothing (.error error) := fun _ => trivial
  apply (nothing_of_asking (Manager.asking_principal subject)).then fails
  intro caller _
  apply (rests_resolveStart caller context agent).then fails
  intro start different
  apply (rests_checkCount bound caller subject).then fails
  intro _ _
  apply (nothing_of_asking (Manager.asking_toolsetVersions subject _)).then
    fails
  intro versions _
  refine ⟨trivial, fun id => ⟨trivial, fun createdAt =>
    ⟨different, fun saved => ?_⟩⟩⟩
  cases saved with
  | error cause => exact trivial
  | ok _ =>
      refine ⟨trivial, fun stamped => ?_⟩
      cases stamped with
      | error text => exact trivial
      | ok _ => exact ⟨trivial, fun _ => ⟨trivial, fun _ => ⟨trivial, fun _ =>
          trivial⟩⟩⟩

theorem rests_principal (subject other : String) (id : SessionId) :
    Query.Rests learning (.reading other id) (Manager.principal subject)
      fun caller => caller.subject = subject := by
  refine ⟨⟨trivial, fun _ _ same => by cases same⟩, fun account => ?_⟩
  cases account with
  | error text => exact Query.Rests.fail _
  | ok account =>
      cases account with
      | none => exact Query.Rests.fail _
      | some userId =>
          refine ⟨⟨trivial, fun _ _ same => by cases same⟩, fun isAdmin => ?_⟩
          cases isAdmin with
          | error text => exact Query.Rests.fail _
          | ok isAdmin => exact ⟨rfl, fun caller same => by cases same; rfl⟩

theorem learns_readable {α : Type} {subject : String} {id : SessionId}
    {next : SessionState → Manager.Code α}
    {ends : Known → Except LymailleError α → Prop}
    (missed : ∀ error, ends .missed (.error error))
    (rest : ∀ state, Script.Obeys learning (next state)
      (.loaded subject id state.kind) ends) :
    Script.Obeys learning
      (Manager.readable subject id >>= next : Manager.Code α)
      (.reading subject id) ends := by
  refine ⟨⟨trivial, ?_⟩, fun loaded => ?_⟩
  · intro other otherId same
    cases same
    exact ⟨rfl, rfl⟩
  · cases loaded with
    | error error => exact missed _
    | ok found =>
        cases found with
        | none => exact missed _
        | some state => exact rest state

theorem learns_send (subject : String) (id : SessionId) (text : String)
    (token : Option String) :
    Script.Obeys learning (Manager.send subject id text token)
      (.reading subject id) (SendEnds subject id) := by
  apply (rests_principal subject subject id).then fun _ => .inl rfl
  intro caller mine
  apply learns_readable fun _ => .inr (.inl rfl)
  intro state
  refine ⟨.inl rfl, fun closed => ?_⟩
  cases closed with
  | true => exact .inr (.inr (.inl ⟨rfl, rfl⟩))
  | false =>
      have ends : ∀ result, SendEnds subject id
          (.sending subject id state.kind) result :=
        fun _ => .inr (.inr (.inr ⟨_, rfl⟩))
      refine ⟨.inl ⟨trivial, fun asks => asks⟩, fun permit => ?_⟩
      cases permit with
      | error error => exact ends _
      | ok permit =>
          refine ⟨.inl ⟨trivial, fun asks => asks⟩, fun now =>
            ⟨.inl ⟨trivial, fun asks => asks⟩, fun entry =>
              ⟨.inl ⟨trivial, fun asks => asks⟩, fun _ =>
                ⟨.inl ⟨trivial, fun asks => asks⟩, fun _ =>
                  ⟨.inr ⟨_, rfl, mine, rfl⟩, fun _ => ends _⟩⟩⟩⟩⟩

theorem learns_resume (subject : String) (id : SessionId) :
    Script.Obeys learning (Manager.resume subject id) (.reading subject id)
      (ResumeEnds subject id) := by
  apply (rests_principal subject subject id).then
    fun error => .inl ⟨.inl rfl, error, rfl⟩
  intro caller _
  apply learns_readable fun error => .inl ⟨.inr (.inl rfl), error, rfl⟩
  intro state
  refine ⟨.inr rfl, fun column => ?_⟩
  cases column with
  | error text => exact .inl ⟨.inr (.inr rfl), _, rfl⟩
  | ok found =>
      cases found with
      | none => exact .inr (.inl ⟨rfl, rfl⟩)
      | some context =>
          refine ⟨⟨trivial, fun asks => asks⟩, fun assembled => ?_⟩
          cases assembled with
          | error error => exact .inr (.inr ⟨rfl, fun _ same => by cases same⟩)
          | ok assembled =>
              refine ⟨⟨trivial, fun asks => asks⟩, fun _ =>
                ⟨⟨trivial, fun asks => asks⟩, fun _ =>
                  ⟨⟨trivial, fun asks => asks⟩, fun _ =>
                    ⟨⟨trivial, fun asks => asks⟩, fun _ => ?_⟩⟩⟩⟩
              refine .inr (.inr ⟨rfl, fun handle same => ?_⟩)
              cases same
              rfl

theorem learns_nothing {α : Type} {code : Manager.Code α}
    (idling : Manager.Idling code)
    (answer : Except LymailleError α → Manager.Answer) :
    (Manager.answering answer code).Obeys learning .nothing
      fun _ _ => True := by
  apply Script.Obeys.bind
  apply (Script.Only.obeys idling ?_ ?_).mono
  · exact fun _ _ _ => trivial
  · intro request idles
    cases request <;> first | exact idles.elim | trivial
  · intro request idles value
    cases request <;> rfl

theorem learns_saves (subject : String) (id : SessionId) (kind : SessionKind)
    (states : List SessionState) :
    (saves subject id kind states).Obeys knowing (.running subject id kind)
      fun _ _ => True := by
  induction states with
  | nil => trivial
  | cons state states induction =>
      refine ⟨⟨rfl, rfl, rfl⟩, fun saved => ?_⟩
      cases saved with
      | error error => trivial
      | ok _ => exact induction

theorem learns (limits : Limits) (call : Call) :
    (program limits call).Obeys knowing (knowing.start call)
      (knowing.ends call) := by
  cases call with
  | runner subject id states =>
      refine ⟨rfl, fun loaded => ?_⟩
      cases loaded with
      | error error => trivial
      | ok state =>
          cases state with
          | none => exact learns_saves subject id .sub states
          | some state => exact learns_saves subject id state.kind states
  | manager call =>
      apply Script.obeys_lift
      cases call with
      | open_ subject context agent =>
          apply Script.Obeys.bind
          exact learns_open limits.maxOpenPerUser subject context agent
      | send subject id text token =>
          apply Script.Obeys.bind
          apply (learns_send subject id text token).mono
          exact fun stage result ends => ⟨result, rfl, ends⟩
      | resume subject id =>
          apply Script.Obeys.bind
          apply (learns_resume subject id).mono
          exact fun stage result ends => ⟨result, rfl, ends⟩
      | turn turn => exact learns_nothing (Manager.idling_runTurn _) _
      | subscribe subject id =>
          exact learns_nothing (Manager.idling_subscribe _ _) _
      | cancel subject id =>
          exact learns_nothing (Manager.plainly_cancel _ _).idling _
      | close subject id =>
          exact learns_nothing (Manager.plainly_close _ _).idling _

/-- Sessions are read as those of this key, of this kind. -/
def OnlyLoads (subject : String) (id : SessionId) (kind : SessionKind)
    (turns : List (Passage parts)) : Prop :=
  ∀ turn ∈ turns, ∀ other otherId state, Loads other otherId state turn →
    other = subject ∧ otherId = id ∧ state.kind = kind

/-- The session is read, and it is of this kind. -/
def HasLoaded (subject : String) (id : SessionId) (kind : SessionKind)
    (turns : List (Passage parts)) : Prop :=
  (∃ turn ∈ turns, ∃ state, Loads subject id state turn ∧ state.kind = kind) ∧
    OnlyLoads subject id kind turns

def Known.Tells : Known → List (Passage parts) → Prop
  | .running subject id kind, turns =>
      (∃ turn ∈ turns, ∃ state,
        Loads subject id state turn ∧ state.kind = kind) ∨
      kind = .sub ∧ ∃ turn ∈ turns, Misses subject id turn
  | .restoring _ _, turns | .reading _ _, turns | .missed, turns =>
      ∀ turn ∈ turns, ∀ subject id state, ¬ Loads subject id state turn
  | .loaded subject id kind, turns => HasLoaded subject id kind turns
  | .sending subject id kind, turns =>
      HasLoaded subject id kind turns ∧
        ∃ turn ∈ turns, findsOpen turn = true
  | .failed, turns => ∃ turn ∈ turns, FailsToRead turn
  | .granted subject id, turns =>
      (∃ kind, HasLoaded subject id kind turns) ∧
        ∃ turn ∈ turns, Reads subject id turn
  | _, _ => True

section Tells

variable {past : List (Passage parts)} {turn : Passage parts}
  {subject : String} {id : SessionId} {kind : SessionKind}

theorem exists_snoc {p : Passage parts → Prop} (found : ∃ turn ∈ past, p turn) :
    ∃ other ∈ past ++ [turn], p other := by
  obtain ⟨other, member, holds⟩ := found
  exact ⟨other, List.mem_append_left _ member, holds⟩

theorem exists_last {p : Passage parts → Prop} (holds : p turn) :
    ∃ other ∈ past ++ [turn], p other :=
  ⟨turn, List.mem_append_right _ List.mem_cons_self, holds⟩

theorem all_snoc {p : Passage parts → Prop} (earlier : ∀ turn ∈ past, p turn)
    (latest : p turn) : ∀ other ∈ past ++ [turn], p other := by
  intro other member
  rcases List.mem_append.mp member with old | new
  · exact earlier other old
  · exact List.mem_singleton.mp new ▸ latest

theorem HasLoaded.snoc (loaded : HasLoaded subject id kind past)
    (quiet : ∀ subject id state, ¬ Loads subject id state turn) :
    HasLoaded subject id kind (past ++ [turn]) := by
  refine ⟨exists_snoc loaded.1, all_snoc loaded.2 ?_⟩
  intro other otherId state loads
  exact absurd loads (quiet other otherId state)

/-- Where the latest turn reads a session, it is the first to do so. -/
theorem HasLoaded.of_latest {state : SessionState}
    (none : ∀ turn ∈ past, ∀ subject id state, ¬ Loads subject id state turn)
    (loads : Loads subject id state turn) :
    HasLoaded subject id state.kind (past ++ [turn]) := by
  refine ⟨exists_last ⟨state, loads, rfl⟩, all_snoc ?_ ?_⟩
  · intro turn member other otherId found reads
    exact absurd reads (none turn member other otherId found)
  · intro other otherId found reads
    obtain ⟨task, before, request, answer⟩ := turn
    cases request with
    | save subject state => exact loads.elim
    | section_ request =>
        cases request with
        | load given givenId =>
            cases answer with
            | error error => exact loads.elim
            | ok answer =>
                cases answer with
                | none => exact loads.elim
                | some answer =>
                    obtain ⟨rfl, rfl, rfl⟩ := loads
                    obtain ⟨rfl, rfl, rfl⟩ := reads
                    exact ⟨rfl, rfl, rfl⟩
        | _ => exact loads.elim

theorem Loads.asks {request : Section} {state : SessionState} {task : ℕ}
    {before : Stored parts} {answer : request.Reply}
    (loads : Loads subject id state
      (⟨task, before, .section_ request, answer⟩ : Passage parts)) :
    request.Asks := by
  cases request with
  | load other otherId => trivial
  | _ => exact loads.elim

end Tells

theorem learns_adds {stage : Known} {past : List (Passage parts)}
    {turn : Passage parts} (told : stage.Tells past)
    (allowed : stage.allows turn.request) :
    (stage.next turn.request turn.answer).Tells (past ++ [turn]) := by
  obtain ⟨task, before, request, answer⟩ := turn
  cases stage with
  | nothing =>
      have same : Known.next .nothing request answer = .nothing := by
        cases request with
        | save subject state => rfl
        | section_ request => cases request <;> rfl
      rw [same]
      trivial
  | missed => cases request <;> exact allowed.elim
  | refused => cases request <;> exact allowed.elim
  | failed => cases request <;> exact allowed.elim
  | restoring subject id =>
      obtain rfl := allowed
      cases answer with
      | error error => exact all_snoc told fun _ _ _ loads => loads
      | ok found =>
          cases found with
          | none => exact .inr ⟨rfl, exists_last ⟨rfl, rfl⟩⟩
          | some state =>
              exact .inl (exists_last ⟨state, ⟨rfl, rfl, rfl⟩, rfl⟩)
  | running subject id kind =>
      cases request with
      | section_ request => exact allowed.elim
      | save other state =>
          rcases told with loaded | ⟨same, missed⟩
          · exact .inl (exists_snoc loaded)
          · exact .inr ⟨same, exists_snoc missed⟩
  | reading subject id =>
      cases request with
      | save other state => exact allowed.elim
      | section_ request =>
          obtain ⟨asks, mine⟩ := allowed
          cases request with
          | load other otherId =>
              obtain ⟨rfl, rfl⟩ := mine other otherId rfl
              have missed : (∀ subject id state, ¬ Loads subject id state
                  (⟨task, before, .section_ (.load other otherId), answer⟩ :
                    Passage parts)) →
                  Known.missed.Tells (past ++ [_]) :=
                fun quiet => all_snoc told quiet
              cases answer with
              | error error => exact missed fun _ _ _ loads => loads
              | ok found =>
                  cases found with
                  | none => exact missed fun _ _ _ loads => loads
                  | some state =>
                      exact HasLoaded.of_latest told ⟨rfl, rfl, rfl⟩
          | _ =>
              first
                | exact asks.elim
                | exact all_snoc told fun _ _ _ loads => loads
  | loaded subject id kind =>
      cases request with
      | save other state => exact allowed.elim
      | section_ request =>
          rcases allowed with rfl | rfl
          · have quiet : ∀ other otherId state, ¬ Loads other otherId state
                (⟨task, before, .section_ (.isClosed id), answer⟩ :
                  Passage parts) := fun _ _ _ loads => loads
            cases answer with
            | true => trivial
            | false => exact ⟨told.snoc quiet, exists_last rfl⟩
          · cases answer with
            | error text => exact exists_last trivial
            | ok found =>
                cases found with
                | none => trivial
                | some context =>
                    exact ⟨⟨kind, told.snoc fun _ _ _ loads => loads⟩,
                      exists_last ⟨rfl, rfl⟩⟩
  | sending subject id kind =>
      cases request with
      | save other state => exact allowed.elim
      | section_ request =>
          have same : Known.next (.sending subject id kind) (.section_ request)
              answer = .sending subject id kind := by
            cases request <;> rfl
          rw [same]
          have quiet : ¬ request.Asks := by
            rcases allowed with ⟨_, asks⟩ | ⟨turn, rfl, _⟩
            · exact asks
            · exact fun asks => asks
          exact ⟨told.1.snoc fun _ _ _ loads => quiet loads.asks,
            exists_snoc told.2⟩
  | granted subject id =>
      cases request with
      | save other state => exact allowed.elim
      | section_ request =>
          have same : Known.next (.granted subject id) (.section_ request)
              answer = .granted subject id := by
            cases request <;> rfl
          rw [same]
          obtain ⟨⟨kind, loaded⟩, reads⟩ := told
          exact ⟨⟨kind, loaded.snoc fun _ _ _ loads => allowed.2 loads.asks⟩,
            exists_snoc reads⟩

theorem learnt {limits : Limits} {first : Stored parts}
    {moves : List (Move Call Conditions)} {task : ℕ} {call : Call}
    {script : Script Request Request.Reply Manager.Answer}
    (found : ((system parts limits).run first moves).tasks[task]? =
      some (call, script)) :
    ∃ stage : Known,
      stage.Tells (((system parts limits).run first moves).turns task) ∧
        script.Obeys knowing stage (knowing.ends call) := by
  have none : ∀ turn ∈ ([] : List (Passage parts)), ∀ subject id state,
      ¬ Loads subject id state turn := fun _ member => by cases member
  apply System.told knowing (fun _ => Known.Tells) (learns limits) _
    (fun _ _ _ _ => learns_adds) found
  intro call
  cases call with
  | runner subject id states => exact none
  | manager call =>
      cases call with
      | send subject id text token => exact none
      | resume subject id => exact none
      | _ => trivial

/-- The rows stay, with their kinds. -/
def Steady (before after : Sessions SessionState) : Prop :=
  ∀ key row, before.find key = some row →
    ∃ row', after.find key = some row' ∧ row'.kind = row.kind

/-- The session is there, and is none of a workflow. -/
def Cleared (sessions : Sessions SessionState) (subject : String)
    (id : SessionId) : Prop :=
  ∃ row, sessions.find (subject, id) = some row ∧
    row.kind ≠ SessionKind.sub.text

/-- What the turns so far have told of the kinds of the sessions. -/
structure Kinds (sessions : Sessions SessionState)
    (trace : List (Passage parts)) : Prop where
  told : ∀ key row, sessions.find key = some row →
    row.kind = row.state.kind.text
  contexts : ∀ key row, sessions.find key = some row → row.context ≠ none →
    row.kind ≠ SessionKind.sub.text
  loaded : ∀ turn ∈ trace, ∀ subject id state, Loads subject id state turn →
    ∃ row, sessions.find (subject, id) = some row ∧
      row.kind = state.kind.text
  missed : ∀ turn ∈ trace, ∀ subject id, Misses subject id turn →
    ∀ row, sessions.find (subject, id) = some row →
      row.kind = SessionKind.sub.text
  cleared : ∀ turn ∈ trace, ∀ subject id, Clears subject id turn →
    Cleared sessions subject id

section Kinds

variable {sessions after : Sessions SessionState}
  {trace : List (Passage parts)} {turn : Passage parts}

theorem Steady.refl (sessions : Sessions SessionState) :
    Steady sessions sessions :=
  fun _ row found => ⟨row, found, rfl⟩

/-- The rows told of by one more turn, after which the rows are steady. -/
theorem Kinds.extend (kinds : Kinds sessions trace)
    (steady : Steady sessions after)
    (told : ∀ key row, after.find key = some row →
      row.kind = row.state.kind.text)
    (contexts : ∀ key row, after.find key = some row → row.context ≠ none →
      row.kind ≠ SessionKind.sub.text)
    (missed : ∀ past ∈ trace, ∀ subject id, Misses subject id past →
      ∀ row, after.find (subject, id) = some row →
        row.kind = SessionKind.sub.text)
    (loads : ∀ subject id state, Loads subject id state turn →
      ∃ row, after.find (subject, id) = some row ∧
        row.kind = state.kind.text)
    (misses : ∀ subject id, Misses subject id turn →
      after.find (subject, id) = none)
    (clears : ∀ subject id, Clears subject id turn →
      Cleared after subject id) :
    Kinds after (turn :: trace) := by
  constructor
  case told => exact told
  case contexts => exact contexts
  case loaded =>
    intro past member subject id state loaded
    rcases List.mem_cons.mp member with latest | earlier
    · exact loads subject id state (latest ▸ loaded)
    · obtain ⟨row, found, kind⟩ :=
        kinds.loaded past earlier subject id state loaded
      obtain ⟨row', found', same⟩ := steady _ row found
      exact ⟨row', found', same.trans kind⟩
  case missed =>
    intro past member subject id misses' row found
    rcases List.mem_cons.mp member with latest | earlier
    · rw [misses subject id (latest ▸ misses')] at found
      cases found
    · exact missed past earlier subject id misses' row found
  case cleared =>
    intro past member subject id clears'
    rcases List.mem_cons.mp member with latest | earlier
    · exact clears subject id (latest ▸ clears')
    · obtain ⟨row, found, kind⟩ :=
        kinds.cleared past earlier subject id clears'
      obtain ⟨row', found', same⟩ := steady _ row found
      exact ⟨row', found', same ▸ kind⟩

theorem Kinds.quiet (kinds : Kinds sessions trace)
    (loads : ∀ subject id state, Loads subject id state turn →
      ∃ row, sessions.find (subject, id) = some row ∧
        row.kind = state.kind.text)
    (misses : ∀ subject id, Misses subject id turn →
      sessions.find (subject, id) = none)
    (clears : ∀ subject id, Clears subject id turn →
      Cleared sessions subject id) :
    Kinds sessions (turn :: trace) :=
  kinds.extend (.refl _) kinds.told kinds.contexts kinds.missed loads misses
    clears

/-- A turn that tells nothing of any session. -/
def Uninformed (turn : Passage parts) : Prop :=
  (∀ subject id state, ¬ Loads subject id state turn) ∧
    (∀ subject id, ¬ Misses subject id turn) ∧
      ∀ subject id, ¬ Clears subject id turn

theorem Kinds.uninformed (kinds : Kinds sessions trace)
    (nothing : Uninformed turn) : Kinds sessions (turn :: trace) := by
  obtain ⟨loads, misses, clears⟩ := nothing
  apply kinds.quiet
  · exact fun subject id state loaded => (loads subject id state loaded).elim
  · exact fun subject id missed => (misses subject id missed).elim
  · exact fun subject id cleared => (clears subject id cleared).elim

/-- A save under the kind that the session has had. -/
theorem Kinds.saved (kinds : Kinds sessions trace) {subject : String}
    (state : SessionState) (now : ℕ)
    (same : ∀ row, sessions.find (subject, state.id) = some row →
      row.kind = state.kind.text)
    (missed : ∀ past ∈ trace, Misses subject state.id past →
      state.kind = .sub)
    (loads : ∀ subject id state, ¬ Loads subject id state turn)
    (misses : ∀ subject id, ¬ Misses subject id turn)
    (clears : ∀ other id, Clears other id turn →
      other = subject ∧ id = state.id ∧ state.kind ≠ .sub) :
    Kinds (sessions.save subject state.id state.kind state now)
      (turn :: trace) := by
  have here : (sessions.save subject state.id state.kind state now).find
      (subject, state.id) = _ := KeyedTable.find_upsert_self _ _
  have elsewhere : ∀ key, key ≠ (subject, state.id) →
      (sessions.save subject state.id state.kind state now).find key =
        sessions.find key :=
    fun key different => KeyedTable.find_upsert_of_ne different _ _
  have written : ∃ row, (sessions.save subject state.id state.kind state
      now).find (subject, state.id) = some row ∧
      row.kind = state.kind.text ∧ row.state = state ∧
      (row.context ≠ none → state.kind ≠ .sub) := by
    rw [here]
    cases found : sessions.find (subject, state.id) with
    | none => exact ⟨_, rfl, rfl, rfl, fun some => absurd rfl some⟩
    | some row =>
        refine ⟨_, rfl, rfl, rfl, fun some sub => ?_⟩
        have kind := same row found
        rw [sub] at kind
        exact kinds.contexts _ row found some kind
  obtain ⟨row, found, kind, state', context⟩ := written
  apply kinds.extend
  · intro key old listed
    by_cases key = (subject, state.id)
    next mine =>
      subst mine
      exact ⟨row, found, kind.trans (same old listed).symm⟩
    next different => exact ⟨old, (elsewhere key different).trans listed, rfl⟩
  · intro key other listed
    by_cases key = (subject, state.id)
    next mine =>
      subst mine
      cases found.symm.trans listed
      exact kind.trans (congrArg (fun s => s.kind.text) state').symm
    next different =>
      exact kinds.told key other ((elsewhere key different).symm.trans listed)
  · intro key other listed some sub
    by_cases key = (subject, state.id)
    next mine =>
      subst mine
      cases found.symm.trans listed
      exact context some (SessionKind.text_injective (kind.symm.trans sub))
    next different =>
      exact kinds.contexts key other
        ((elsewhere key different).symm.trans listed) some sub
  · intro past member other id misses' found' listed
    by_cases (other, id) = (subject, state.id)
    next mine =>
      obtain ⟨rfl, rfl⟩ := Prod.mk.inj mine
      cases found.symm.trans listed
      exact kind.trans (congrArg _ (missed past member misses'))
    next different =>
      exact kinds.missed past member other id misses' _
        ((elsewhere _ different).symm.trans listed)
  · exact fun other id state' loaded => absurd loaded (loads other id state')
  · exact fun other id missed => absurd missed (misses other id)
  · intro other id clears'
    obtain ⟨rfl, rfl, different⟩ := clears other id clears'
    refine ⟨row, found, fun sub => different ?_⟩
    exact SessionKind.text_injective (kind.symm.trans sub)

/-- A stamp on a session that is none of a workflow. -/
theorem Kinds.stamped (kinds : Kinds sessions trace) {subject : String}
    {id : SessionId} (context : String)
    (cleared : Cleared sessions subject id)
    (loads : ∀ subject id state, ¬ Loads subject id state turn)
    (misses : ∀ subject id, ¬ Misses subject id turn)
    (clears : ∀ other otherId, Clears other otherId turn →
      other = subject ∧ otherId = id) :
    Kinds (sessions.stampContext subject id context) (turn :: trace) := by
  obtain ⟨row, found, different⟩ := cleared
  have elsewhere : ∀ key, key ≠ (subject, id) →
      (sessions.stampContext subject id context).find key =
        sessions.find key :=
    fun key apart => KeyedTable.find_modify_of_ne apart _
  have here : (sessions.stampContext subject id context).find (subject, id) =
      some { row with context := some context } := by
    rw [Sessions.stampContext, KeyedTable.find_modify_self, found]
    rfl
  have rows : ∀ key row', (sessions.stampContext subject id context).find key =
      some row' → ∃ old, sessions.find key = some old ∧
        row'.kind = old.kind ∧ row'.state = old.state ∧
        (row'.context ≠ old.context → key = (subject, id)) := by
    intro key row' listed
    by_cases key = (subject, id)
    next mine =>
      subst mine
      cases here.symm.trans listed
      exact ⟨row, found, rfl, rfl, fun _ => rfl⟩
    next apart =>
      exact ⟨row', (elsewhere key apart).symm.trans listed, rfl, rfl,
        fun changed => absurd rfl changed⟩
  apply kinds.extend
  · intro key old listed
    by_cases key = (subject, id)
    next mine =>
      subst mine
      cases found.symm.trans listed
      exact ⟨_, here, rfl⟩
    next apart => exact ⟨old, (elsewhere key apart).trans listed, rfl⟩
  · intro key row' listed
    obtain ⟨old, was, kind, state, _⟩ := rows key row' listed
    rw [kind, state]
    exact kinds.told key old was
  · intro key row' listed some
    obtain ⟨old, was, kind, _, moved⟩ := rows key row' listed
    rw [kind]
    by_cases row'.context = old.context
    next same => exact kinds.contexts key old was (same ▸ some)
    next changed =>
      cases moved changed
      cases found.symm.trans was
      exact different
  · intro past member other otherId misses' row' listed
    obtain ⟨old, was, kind, _⟩ := rows _ row' listed
    rw [kind]
    exact kinds.missed past member other otherId misses' old was
  · exact fun other id state' loaded => absurd loaded (loads other id state')
  · exact fun other id missed => absurd missed (misses other id)
  · intro other otherId clears'
    obtain ⟨rfl, rfl⟩ := clears other otherId clears'
    exact ⟨_, here, different⟩

end Kinds

/-- A session has been asked for. -/
def asked (subject : String) (id : SessionId) : Passage parts → Bool
  | ⟨_, _, .section_ (.load other otherId), _⟩ =>
      other = subject ∧ otherId = id
  | _ => false

/-- The identifier that `open_` saves a session under is that of no row, and no
call has asked for it. -/
def isUnused (earlier : List (Passage parts)) : Passage parts → Bool
  | ⟨_, before, .section_ (.save subject state), _⟩ =>
      (before.sessions.find (subject, state.id)).isNone ∧
        ∀ past ∈ earlier, asked subject state.id past = false
  | _ => true

abbrev Unused (earlier : List (Passage parts)) (turn : Passage parts) : Prop :=
  isUnused earlier turn = true

/-- No task finds a session open that it has read as one of a workflow. -/
def Spared (trace : List (Passage parts)) : Prop :=
  ∀ turn ∈ trace, ∀ past ∈ trace, past.task = turn.task →
    findsOpen turn = true → loadsSub past = false

theorem asked_of_misses {turn : Passage parts} {subject : String}
    {id : SessionId} (misses : Misses subject id turn) :
    asked subject id turn = true := by
  obtain ⟨task, before, request, answer⟩ := turn
  cases request with
  | save subject state => exact misses.elim
  | section_ request =>
      cases request with
      | load other otherId =>
          cases answer with
          | error error => exact misses.elim
          | ok found =>
              cases found with
              | none => exact decide_eq_true misses
              | some state => exact misses.elim
      | _ => exact misses.elim

/-- A save of a runner is under the kind that it has restored. -/
theorem Kinds.restored {sessions : Sessions SessionState}
    {trace turns : List (Passage parts)} {subject : String} {id : SessionId}
    {kind : SessionKind} {turn : Passage parts} (kinds : Kinds sessions trace)
    (told : (Known.running subject id kind).Tells turns)
    (listed : ∀ turn ∈ turns, turn ∈ trace) {state : SessionState}
    (same : state.id = id ∧ state.kind = kind) (now : ℕ)
    (nothing : Uninformed turn) :
    Kinds (sessions.save subject state.id state.kind state now)
      (turn :: trace) := by
  obtain ⟨rfl, rfl⟩ := same
  have agree : (∀ row, sessions.find (subject, state.id) = some row →
        row.kind = state.kind.text) ∧
      ∀ past ∈ trace, Misses subject state.id past → state.kind = .sub := by
    rcases told with ⟨past, member, found, loaded, kind⟩ |
      ⟨sub, past, member, missed⟩
    · obtain ⟨row, listed', same⟩ :=
        kinds.loaded past (listed past member) _ _ _ loaded
      rw [kind] at same
      constructor
      · intro row' found'
        cases listed'.symm.trans found'
        exact same
      · intro other inTrace missed
        have sub := kinds.missed other inTrace _ _ missed row listed'
        exact SessionKind.text_injective (same.symm.trans sub)
    · refine ⟨fun row found => ?_, fun _ _ _ => sub⟩
      rw [sub]
      exact kinds.missed past (listed past member) _ _ missed row found
  exact kinds.saved state now agree.1 agree.2 nothing.1 nothing.2.1
    fun other id cleared => (nothing.2.2 other id cleared).elim

theorem Known.not_sub_of_save {stage : Known} {subject : String}
    {state : SessionState}
    (allowed : stage.allows (.section_ (.save subject state))) :
    state.kind ≠ .sub := by
  cases stage with
  | nothing => exact allowed
  | reading => exact allowed.1.elim
  | sending =>
      rcases allowed with ⟨idle, _⟩ | ⟨turn, same, _⟩
      · exact idle.elim
      · cases same
  | granted => exact allowed.1.elim
  | restoring => cases allowed
  | loaded => rcases allowed with same | same <;> cases same
  | _ => exact allowed.elim

/-- A save of `open_` is under an identifier that nothing was told of. -/
theorem Kinds.opened {sessions : Sessions SessionState}
    {trace : List (Passage parts)} {subject : String} {state : SessionState}
    {turn : Passage parts} (kinds : Kinds sessions trace)
    (different : state.kind ≠ .sub)
    (absent : sessions.find (subject, state.id) = none)
    (unasked : ∀ past ∈ trace, asked subject state.id past = false) (now : ℕ)
    (loads : ∀ subject id state, ¬ Loads subject id state turn)
    (misses : ∀ subject id, ¬ Misses subject id turn)
    (clears : ∀ other id, Clears other id turn →
      other = subject ∧ id = state.id) :
    Kinds (sessions.save subject state.id state.kind state now)
      (turn :: trace) := by
  apply kinds.saved state now ?_ ?_ loads misses
  · intro other id cleared
    obtain ⟨rfl, rfl⟩ := clears other id cleared
    exact ⟨rfl, rfl, different⟩
  · intro row found
    rw [absent] at found
    cases found
  · intro past member missed
    have clash := asked_of_misses missed
    rw [unasked past member] at clash
    cases clash

/-- What a section of a task keeps, that has learnt enough for it. -/
theorem Kinds.section_ {stored : Stored parts} {trace : List (Passage parts)}
    {stage : Known} {request : Section} (task : ℕ) (conditions : Conditions)
    (kinds : Kinds stored.sessions trace)
    (allowed : stage.allows (.section_ request))
    (unused : Unused trace ⟨task, stored, .section_ request,
      (stored.perform conditions request).1⟩)
    (stamps : ∀ subject id context, request = .stampContext subject id context →
      ∃ turn ∈ trace, Saves subject id turn) :
    Kinds (stored.perform conditions request).2.sessions
      (⟨task, stored, .section_ request,
        (stored.perform conditions request).1⟩ :: trace) := by
  have noClears : ¬ (False ∨ (∃ _ : String, False) ∨ False) := by simp
  cases request with
  | save subject state =>
      obtain ⟨absent, unasked⟩ := of_decide_eq_true unused
      unfold perform
      cases conditions.save with
      | error error =>
          exact kinds.uninformed ⟨fun _ _ _ loads => loads,
            fun _ _ misses => misses, fun _ _ => noClears⟩
      | ok _ =>
          apply kinds.opened (Known.not_sub_of_save allowed)
            (Option.isNone_iff_eq_none.mp absent) unasked
          · exact fun _ _ _ loads => loads
          · exact fun _ _ misses => misses
          · intro other id cleared
            rcases cleared with saved | ⟨_, stamped⟩ | read
            · exact ⟨saved.1.symm, saved.2.symm⟩
            · exact stamped.elim
            · exact read.elim
  | stampContext subject id context =>
      obtain ⟨turn, member, saves⟩ := stamps subject id context rfl
      have cleared := kinds.cleared turn member subject id (.inl saves)
      unfold perform
      cases conditions.stampContext with
      | error text =>
          exact kinds.uninformed ⟨fun _ _ _ loads => loads,
            fun _ _ misses => misses, fun _ _ => noClears⟩
      | ok _ =>
          apply kinds.stamped context cleared
          · exact fun _ _ _ loads => loads
          · exact fun _ _ misses => misses
          · intro other otherId clears
            rcases clears with saved | ⟨_, stamped⟩ | read
            · exact saved.elim
            · exact ⟨stamped.1.symm, stamped.2.1.symm⟩
            · exact read.elim
  | load subject id =>
      unfold perform
      cases conditions.session with
      | error error =>
          exact kinds.uninformed ⟨fun _ _ _ loads => loads,
            fun _ _ misses => misses, fun _ _ => noClears⟩
      | ok _ =>
          show Kinds stored.sessions (⟨task, stored, .section_ (.load subject id),
            .ok (stored.sessions.load subject id)⟩ :: trace)
          unfold Sessions.load
          cases found : stored.sessions.find (subject, id) with
          | none =>
              apply kinds.quiet
              · exact fun _ _ _ loads => loads.elim
              · intro other otherId misses
                obtain ⟨rfl, rfl⟩ := misses
                exact found
              · exact fun _ _ clears => (noClears clears).elim
          | some row =>
              apply kinds.quiet
              · intro other otherId state loads
                obtain ⟨rfl, rfl, rfl⟩ := loads
                exact ⟨row, found, kinds.told _ row found⟩
              · exact fun _ _ misses => misses.elim
              · exact fun _ _ clears => (noClears clears).elim
  | readContextColumn subject id =>
      unfold perform
      cases conditions.contextColumn with
      | error text =>
          exact kinds.uninformed ⟨fun _ _ _ loads => loads,
            fun _ _ misses => misses, fun _ _ => noClears⟩
      | ok _ =>
          show Kinds stored.sessions
            (⟨task, stored, .section_ (.readContextColumn subject id),
              .ok (stored.sessions.readContext subject id)⟩ :: trace)
          cases read : stored.sessions.readContext subject id with
          | none =>
              exact kinds.uninformed ⟨fun _ _ _ loads => loads,
                fun _ _ misses => misses, fun _ _ => noClears⟩
          | some context =>
              apply kinds.quiet
              · exact fun _ _ _ loads => loads.elim
              · exact fun _ _ misses => misses.elim
              · intro other otherId clears
                rcases clears with saved | ⟨_, stamped⟩ | reads
                · exact saved.elim
                · exact stamped.elim
                · obtain ⟨rfl, rfl⟩ := reads
                  obtain ⟨row, found, given⟩ := Option.bind_eq_some_iff.mp read
                  exact ⟨row, found, kinds.contexts _ row found (by simp [given])⟩
  | _ =>
      exact kinds.uninformed ⟨fun _ _ _ loads => loads,
        fun _ _ misses => misses, fun _ _ => noClears⟩

section Run

variable {limits : Limits} {admins : String → Bool} {hub : Hub parts.channels}
  {moves : List (Move Call Conditions)}

theorem allowed_of_next {first : Stored parts} {task : ℕ} {call : Call}
    {request : Request}
    {rest : request.Reply → Script Request Request.Reply Manager.Answer}
    (found : ((system parts limits).run first moves).tasks[task]? =
      some (call, .call request rest)) :
    ∃ stage : Known,
      stage.Tells (((system parts limits).run first moves).turns task) ∧
        stage.allows request := by
  obtain ⟨stage, told, allowed, _⟩ := learnt found
  exact ⟨stage, told, allowed⟩

theorem kinds_of_run
    (unused : Throughout Unused ((system parts limits).run
      (Stored.new parts limits admins hub) moves).trace) :
    Kinds ((system parts limits).run (Stored.new parts limits admins hub)
        moves).shared.sessions
      ((system parts limits).run (Stored.new parts limits admins hub)
        moves).trace := by
  revert unused
  apply System.run_induction fun pool => Throughout Unused pool.trace →
    Kinds pool.shared.sessions pool.trace
  case begins =>
    intro _
    constructor
    case told => exact fun _ _ found => by cases found
    case contexts => exact fun _ _ found => by cases found
    all_goals
      intro turn member
      cases member
  case starts =>
    intro moves call kinds
    exact kinds
  case steps =>
    intro moves task conditions call request rest found ready before unused
    have kinds := before unused.2
    obtain ⟨stage, told, allowed⟩ := allowed_of_next found
    cases request with
    | section_ request =>
        apply kinds.section_ task conditions allowed unused.1
        intro subject id context same
        subst same
        obtain ⟨_, _, saved, _⟩ := staged_stamp found
        obtain ⟨turn, listed, saves⟩ := saved
        exact ⟨turn, (Pool.mem_turns.mp listed).1, saves⟩
    | save subject state =>
        cases stage with
        | running _ id kind =>
            obtain ⟨rfl, same⟩ := allowed
            have nothing : ∀ stored answer, Uninformed
                (⟨task, stored, .save subject state, answer⟩ :
                  Passage parts) := by
              intro stored answer
              refine ⟨fun _ _ _ loads => loads, fun _ _ misses => misses,
                fun _ _ clears => ?_⟩
              rcases clears with saved | ⟨_, stamped⟩ | read
              · exact saved
              · exact stamped
              · exact read
            show Kinds (perform conditions _ (.save subject state)).2.sessions _
            unfold perform
            cases conditions.save with
            | error error => exact kinds.uninformed (nothing _ _)
            | ok _ =>
                exact kinds.restored told
                  (fun turn listed => (Pool.mem_turns.mp listed).1) same
                  conditions.now (nothing _ _)
        | restoring => cases allowed
        | _ => exact allowed.elim

end Run

/-- The session, if it is stored, is none of a workflow. -/
def NotSub (stored : Stored parts) (subject : String) (id : SessionId) :
    Prop :=
  ∀ row, stored.sessions.find (subject, id) = some row →
    row.kind ≠ SessionKind.sub.text

/-- A call that is to refuse the sessions of the workflows. -/
def Refuses : Call → Prop
  | .manager (.send _ _ _ _) | .manager (.resume _ _) => True
  | _ => False

/-- No turn is started and no handle returned for a session of a workflow.
`open_` saves none; `send` and `resume` leave the sessions, and refuse one of a
workflow as one that is not there. -/
structure Excluded (limits : Limits) (first : Stored parts)
    (moves : List (Move Call Conditions)) : Prop where
  started : ∀ turn ∈ ((system parts limits).run first moves).trace,
    ∀ spawned, turn.request = .section_ (.spawn spawned) →
      NotSub turn.before spawned.caller.subject spawned.session
  opened : ∀ (task : ℕ) subject context agent handle,
    ((system parts limits).run first moves).tasks[task]? =
      some (.manager (.open_ subject context agent),
        .done (.opened (.ok handle))) →
    NotSub ((system parts limits).run first moves).shared subject handle.id
  resumed : ∀ (task : ℕ) subject id handle,
    ((system parts limits).run first moves).tasks[task]? =
      some (.manager (.resume subject id), .done (.resumed (.ok handle))) →
    NotSub ((system parts limits).run first moves).shared subject handle.id
  created : ∀ turn ∈ ((system parts limits).run first moves).trace,
    ∀ subject state, turn.request = .section_ (.save subject state) →
      state.kind ≠ .sub
  sendRefused : ∀ (task : ℕ) subject id text token result,
    ((system parts limits).run first moves).tasks[task]? =
      some (.manager (.send subject id text token), .done (.sent result)) →
    (∃ turn ∈ ((system parts limits).run first moves).turns task,
      loadsSub turn = true) →
    result = .error (.notFound SESSION_NOT_FOUND)
  resumeRefused : ∀ (task : ℕ) subject id result,
    ((system parts limits).run first moves).tasks[task]? =
      some (.manager (.resume subject id), .done (.resumed result)) →
    (∃ turn ∈ ((system parts limits).run first moves).turns task,
      loadsSub turn = true) →
    result = .error (.notFound SESSION_NOT_FOUND) ∨
      (∃ error, result = .error error) ∧
        ∃ turn ∈ ((system parts limits).run first moves).turns task,
          FailsToRead turn
  unchanged : ∀ (task : ℕ) call script,
    ((system parts limits).run first moves).tasks[task]? = some (call, script) →
    Refuses call →
    ∀ earlier conditions, earlier ++ [.step task conditions] <+: moves →
      ((system parts limits).run first
        (earlier ++ [.step task conditions])).shared.sessions =
      ((system parts limits).run first earlier).shared.sessions

section Excluded

variable {limits : Limits} {admins : String → Bool} {hub : Hub parts.channels}
  {moves : List (Move Call Conditions)} {first : Stored parts}

/-- The session that a spared task has read and found open is none of a
workflow. -/
theorem Spared.kind {subject : String} {id : SessionId} {kind : SessionKind}
    {task : ℕ}
    (spared : Spared ((system parts limits).run first moves).trace)
    (told : (Known.sending subject id kind).Tells
      (((system parts limits).run first moves).turns task)) :
    kind ≠ .sub := by
  obtain ⟨⟨⟨past, listed, state, loads, same⟩, _⟩, turn, member, opens⟩ := told
  obtain ⟨inTrace, mine⟩ := Pool.mem_turns.mp member
  obtain ⟨pastInTrace, pastMine⟩ := Pool.mem_turns.mp listed
  have clean := spared turn inTrace past pastInTrace
    (pastMine.trans mine.symm) opens
  intro sub
  obtain ⟨task, before, request, answer⟩ := past
  cases request with
  | save subject state => exact loads
  | section_ request =>
      cases request with
      | load other otherId =>
          cases answer with
          | error error => exact loads
          | ok found =>
              cases found with
              | none => exact loads
              | some found =>
                  obtain ⟨_, _, rfl⟩ := loads
                  exact of_decide_eq_false clean (same.trans sub)
      | _ => exact loads

theorem learnt_of_spawn {task : ℕ} {call : Call}
    {spawned : Manager.Turn}
    {rest : Unit → Script Request Request.Reply Manager.Answer}
    (found : ((system parts limits).run first moves).tasks[task]? =
      some (call, .call (.section_ (.spawn spawned)) rest)) :
    ∃ kind, (Known.sending spawned.caller.subject spawned.session kind).Tells
      (((system parts limits).run first moves).turns task) := by
  obtain ⟨stage, told, allowed⟩ := allowed_of_next found
  cases stage with
  | sending subject id kind =>
      rcases allowed with ⟨idle, _⟩ | ⟨turn, same, mine, here⟩
      · exact idle.elim
      · cases same
        exact ⟨kind, mine ▸ here ▸ told⟩
  | nothing => exact allowed.elim
  | reading => exact allowed.1.elim
  | granted => exact allowed.1.elim
  | restoring => cases allowed
  | loaded => rcases allowed with same | same <;> cases same
  | _ => exact allowed.elim

theorem HasLoaded.sub {subject : String} {id : SessionId} {kind : SessionKind}
    {turns : List (Passage parts)} (loaded : HasLoaded subject id kind turns)
    (reads : ∃ turn ∈ turns, loadsSub turn = true) : kind = .sub := by
  obtain ⟨turn, member, loads⟩ := reads
  obtain ⟨other, otherId, state, told, sub⟩ := loads_of_loadsSub loads
  exact (loaded.2 turn member other otherId state told).2.2.symm.trans sub

theorem not_loaded {turns : List (Passage parts)}
    (none : ∀ turn ∈ turns, ∀ subject id state, ¬ Loads subject id state turn)
    (reads : ∃ turn ∈ turns, loadsSub turn = true) : False := by
  obtain ⟨turn, member, loads⟩ := reads
  obtain ⟨other, otherId, state, told, _⟩ := loads_of_loadsSub loads
  exact none turn member other otherId state told

theorem Cleared.notSub {stored : Stored parts} {subject : String}
    {id : SessionId} (cleared : Cleared stored.sessions subject id) :
    NotSub stored subject id := by
  obtain ⟨row, found, kind⟩ := cleared
  intro other listed
  cases found.symm.trans listed
  exact kind

theorem unstored_of_refuses {limits : Limits} {call : Call}
    (refuses : Refuses call) :
    (program limits call).Only fun request =>
      ∃ inner : Section, request = .section_ inner ∧ inner.Unstored := by
  cases call with
  | runner subject id states => exact refuses.elim
  | manager call =>
      have inner : (Manager.program limits call).Only Section.Unstored := by
        cases call with
        | send subject id text token =>
            exact Script.Only.bind
              (Manager.unstoring_send subject id text token) fun _ => trivial
        | resume subject id =>
            exact Script.Only.bind
              (Manager.plainly_resume subject id).idling.unstoring
              fun _ => trivial
        | _ => exact refuses.elim
      exact inner.lift _ fun request unstored => ⟨request, rfl, unstored⟩

theorem unchanged_of_refuses {task : ℕ} {call : Call}
    {script : Script Request Request.Reply Manager.Answer}
    (found : ((system parts limits).run first moves).tasks[task]? =
      some (call, script)) (refuses : Refuses call)
    {earlier : List (Move Call Conditions)} {conditions : Conditions}
    (begins : earlier ++ [.step task conditions] <+: moves) :
    ((system parts limits).run first
      (earlier ++ [.step task conditions])).shared.sessions =
    ((system parts limits).run first earlier).shared.sessions := by
  have asks := Script.Only.of_follows (unstored_of_refuses refuses)
    (System.follows moves found)
  rcases System.move_cases (system parts limits) first earlier
      (.step task conditions) with same | moved
  · rw [same.1]
  · obtain ⟨mover, given, request, same, state, grown⟩ := moved
    cases same
    have member : (⟨task, ((system parts limits).run first earlier).shared,
        request, (exec conditions ((system parts limits).run first
          earlier).shared request).1⟩ : Passage parts) ∈
        ((system parts limits).run first moves).turns task := by
      apply Pool.mem_turns.mpr
      refine ⟨?_, rfl⟩
      apply (System.trace_suffix (system parts limits) first begins).mem
      rw [grown]
      exact List.mem_cons_self
    obtain ⟨inner, rfl, unstored⟩ := asks _ member
    rw [state]
    exact sessions_of_unstored unstored conditions _

/-- Where the sends of a run find no session of a workflow open. -/
theorem excluded_of_run
    (unused : Throughout Unused ((system parts limits).run
      (Stored.new parts limits admins hub) moves).trace)
    (spared : Spared ((system parts limits).run
      (Stored.new parts limits admins hub) moves).trace) :
    Excluded limits (Stored.new parts limits admins hub) moves := by
  have kinds := kinds_of_run unused
  constructor
  case started =>
    intro turn listed spawned starts
    obtain ⟨earlier, conditions, call, rest, begins, state, found, _⟩ :=
      System.move_of_trace moves turn listed
    obtain ⟨task, before, request, answer⟩ := turn
    cases starts
    have start : earlier <+: moves := (List.prefix_append _ _).trans begins
    have older := System.trace_suffix (system parts limits)
      (Stored.new parts limits admins hub) start
    obtain ⟨kind, told⟩ := learnt_of_spawn found
    have different : kind ≠ .sub := by
      apply Spared.kind (fun turn member past pastMember => ?_) told
      exact spared turn (older.mem member) past (older.mem pastMember)
    have earlierKinds := kinds_of_run (System.throughout_of_earlier start unused)
    obtain ⟨⟨⟨past, member, state', loads, same⟩, _⟩, _⟩ := told
    obtain ⟨row, present, named⟩ := earlierKinds.loaded past
      (Pool.mem_turns.mp member).1 _ _ _ loads
    rw [same] at named
    intro other present'
    rw [← state] at present'
    cases present.symm.trans present'
    exact fun sub => different (SessionKind.text_injective (named.symm.trans sub))
  case opened =>
    intro task subject context agent handle ended
    obtain ⟨stage, told, ends⟩ := staged ended
    have ends : Stage.ends (.manager (.open_ subject context agent)) stage
      (.opened (.ok handle)) := ends
    rcases ends with ⟨given, same, rfl⟩ | ⟨error, impossible, _⟩
    · cases same
      obtain ⟨_, _, ⟨turn, listed, stamps⟩, _⟩ := told
      exact (kinds.cleared turn (Pool.mem_turns.mp listed).1 subject handle.id
        (.inr (.inl ⟨context, stamps⟩))).notSub
    · cases impossible
  case resumed =>
    intro task subject id handle ended
    obtain ⟨stage, told, result, same, ends⟩ := learnt ended
    cases same
    rcases ends with ⟨_, error, same⟩ | ⟨_, same⟩ | ⟨rfl, named⟩
    · cases same
    · cases same
    · rw [named handle rfl]
      obtain ⟨_, turn, listed, reads⟩ := told
      exact (kinds.cleared turn (Pool.mem_turns.mp listed).1 subject id
        (.inr (.inr reads))).notSub
  case created =>
    intro turn listed subject state saves
    obtain ⟨earlier, conditions, call, rest, begins, _, found, _⟩ :=
      System.move_of_trace moves turn listed
    obtain ⟨task, before, request, answer⟩ := turn
    cases saves
    obtain ⟨stage, _, allowed⟩ := allowed_of_next found
    exact Known.not_sub_of_save allowed
  case sendRefused =>
    intro task subject id text token result ended reads
    obtain ⟨stage, told, result', same, ends⟩ := learnt ended
    cases same
    rcases ends with rfl | rfl | ⟨rfl, same⟩ | ⟨kind, rfl⟩
    · exact (not_loaded told reads).elim
    · exact (not_loaded told reads).elim
    · exact same
    · exact absurd (told.1.sub reads) (spared.kind told)
  case resumeRefused =>
    intro task subject id result ended reads
    obtain ⟨stage, told, result', same, ends⟩ := learnt ended
    cases same
    rcases ends with ⟨rfl | rfl | rfl, failed⟩ | ⟨rfl, same⟩ | ⟨rfl, named⟩
    · exact (not_loaded told reads).elim
    · exact (not_loaded told reads).elim
    · exact .inr ⟨failed, told⟩
    · exact .inl same
    · obtain ⟨⟨kind, loaded⟩, turn, listed, context⟩ := told
      obtain rfl := loaded.sub reads
      obtain ⟨⟨past, member, state, loads, sub⟩, _⟩ := loaded
      obtain ⟨row, found, named⟩ := kinds.loaded past
        (Pool.mem_turns.mp member).1 _ _ _ loads
      obtain ⟨other, found', different⟩ := kinds.cleared turn
        (Pool.mem_turns.mp listed).1 _ _ (.inr (.inr context))
      cases found.symm.trans found'
      exact absurd (sub ▸ named) different
  case unchanged =>
    intro task call script found refuses earlier conditions begins
    exact unchanged_of_refuses found refuses begins

end Excluded

/-- When the identifiers of the sessions opened are new, the sessions of the
workflows are kept out in every state of a run whose sends find each of them
closed. -/
theorem excluded_of_spared (parts : Parts) (limits : Limits)
    (admins : String → Bool) (hub : Hub parts.channels)
    (moves : List (Move Call Conditions))
    (unused : Throughout Unused ((system parts limits).run
      (Stored.new parts limits admins hub) moves).trace)
    (spared : Spared ((system parts limits).run
      (Stored.new parts limits admins hub) moves).trace) :
    ∀ earlier, earlier <+: moves →
      Excluded limits (Stored.new parts limits admins hub) earlier := by
  intro earlier begins
  have older := System.trace_suffix (system parts limits)
    (Stored.new parts limits admins hub) begins
  apply excluded_of_run (System.throughout_of_earlier begins unused)
  intro turn member past pastMember
  exact spared turn (older.mem member) past (older.mem pastMember)

/-- A step of a workflow saves its session. -/
def subSaved : List (Move Call Conditions) :=
  [.start (.runner "alice" "workflow_agent"
      [{ id := "", kind := .work, agentName := "agent", fingerprint := ""
         context := "", versions := [], createdAt := 0 }]),
    .step 0 {}, .step 0 {}]

/-- The session is closed, and then its subject sends to it. -/
def closedFirst : List (Move Call Conditions) :=
  subSaved ++ .start (.manager (.close "alice" "workflow_agent")) ::
    List.replicate 8 (.step 1 {}) ++
      .start (.manager (.send "alice" "workflow_agent" "text" none)) ::
        List.replicate 4 (.step 2 {})

theorem excluded_closedFirst :
    Excluded ⟨1, 1000⟩ (Stored.new plainParts ⟨1, 1000⟩ (fun _ => false)
      (Hub.new _ false 256)) closedFirst :=
  excluded_of_spared plainParts ⟨1, 1000⟩ (fun _ => false)
    (Hub.new _ false 256) closedFirst (by decide +kernel)
    (by unfold Spared; decide +kernel) closedFirst (List.prefix_refl _)

/-- The session is open to its subject, whose turn is started on it. -/
theorem sub_session_sent :
    ¬ ∀ moves : List (Move Call Conditions),
      Throughout Unused ((system plainParts ⟨1, 1000⟩).run (Stored.new plainParts
        ⟨1, 1000⟩ (fun _ => false) (Hub.new _ false 256)) moves).trace →
      Excluded ⟨1, 1000⟩ (Stored.new plainParts ⟨1, 1000⟩ (fun _ => false)
        (Hub.new _ false 256)) moves := by
  intro all
  have excluded := all (subSaved ++
      .start (.manager (.send "alice" "workflow_agent" "text" none)) ::
        List.replicate 10 (.step 1 {})) (by decide +kernel)
  have refused := excluded.sendRefused 1 "alice" "workflow_agent" "text" none
    (.ok ()) rfl (by decide +kernel)
  cases refused

end MiryadCore.Interactive.Stored
