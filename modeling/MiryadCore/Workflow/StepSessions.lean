import MiryadCore.Control.Answers
import MiryadCore.Text.Separated
import MiryadCore.Workflow.RunTree
import MiryadCore.Workflow.SubagentRetries

/-!
# The sessions of the steps

A step has the session whose name is made of the key of its run and of its own
id, with a NUL between them.  Both may contain that character themselves.
-/

namespace MiryadCore.Workflow.Subagent

open Interactive (SessionId)
open Query (Given Only)

variable {parts : SubagentParts} {stateId : parts.State → SessionId}
  {run run' : RunInfo}

/-- What the name of the session is the hash of. -/
def nameInput (run : RunInfo) : String :=
  run.runKey ++ "\x00" ++ run.stepId

/-- What the name of the session keeps of the hash. -/
def digest (parts : SubagentParts) (text : String) : List Char :=
  (parts.hexSha256 text).toList.take 32

def SameStep (run run' : RunInfo) : Prop :=
  run.runKey = run'.runKey ∧ run.stepId = run'.stepId

/-- The second key goes on, after the first one and a NUL, with what the first
id says before a NUL and the second id. -/
def Shadowed (run run' : RunInfo) : Prop :=
  ∃ rest, run'.runKey = run.runKey ++ "\x00" ++ rest ∧
    run.stepId = rest ++ "\x00" ++ run'.stepId

theorem shadowed_iff : Shadowed run run' ↔
    ∃ middle : List Char,
      run'.runKey.toList = run.runKey.toList ++ '\x00' :: middle ∧
      run.stepId.toList = middle ++ '\x00' :: run'.stepId.toList := by
  constructor
  · intro shadowed
    obtain ⟨rest, key, id⟩ := shadowed
    refine ⟨rest.toList, ?_, ?_⟩
    · rw [key]
      simp
    · rw [id]
      simp
  · intro spelled
    obtain ⟨middle, key, id⟩ := spelled
    refine ⟨String.ofList middle, ?_, ?_⟩
    · apply String.toList_inj.mp
      rw [key]
      simp
    · apply String.toList_inj.mp
      rw [id]
      simp

theorem nameInput_eq_iff : nameInput run = nameInput run' ↔
    SameStep run run' ∨ Shadowed run run' ∨ Shadowed run' run := by
  have spelled : ∀ run : RunInfo, (nameInput run).toList =
      run.runKey.toList ++ '\x00' :: run.stepId.toList := by
    intro run
    simp [nameInput]
  rw [← String.toList_inj, spelled, spelled, Separated.append_cons_eq_iff,
    ← shadowed_iff, ← shadowed_iff, String.toList_inj, String.toList_inj]
  rfl

theorem Shadowed.different (shadowed : Shadowed run run') :
    ¬ SameStep run run' := by
  intro same
  obtain ⟨rest, key, _⟩ := shadowed
  rw [← same.1] at key
  have lengths := congrArg (fun text => text.toList.length) key
  simp at lengths

theorem SameStep.symm (same : SameStep run run') : SameStep run' run :=
  ⟨same.1.symm, same.2.symm⟩

theorem sessionName_eq_iff : sessionName parts run = sessionName parts run' ↔
    digest parts (nameInput run) = digest parts (nameInput run') := by
  unfold sessionName digest nameInput
  rw [← String.toList_inj]
  simp

/-- The session that a request reads, takes up or goes on with. -/
def Ask.session (stateId : parts.State → SessionId) :
    Ask parts → Option SessionId
  | .sessionState _ id => some id
  | .restoreSession id _ _ => some id
  | .runBatch batch => some (stateId batch.state)
  | _ => none

/-- What is restored is the session that was asked for. -/
def Ask.Restores (stateId : parts.State → SessionId) :
    (request : Ask parts) → request.Reply → Prop
  | .restoreSession id _ _, .ok (state, _) => stateId state = id
  | _, _ => True

/-- An execution of the step may touch the session. -/
def Touches (stateId : parts.State → SessionId) (run : RunInfo)
    (id : SessionId) : Prop :=
  ∃ step config, Script.MayAsk (Ask.Restores stateId)
    (fun request => request.session stateId = some id)
    (Subagent.run step run config)

/-- The requests about a session are about this one. -/
def Ask.Keeps (stateId : parts.State → SessionId) (own : Option SessionId)
    (request : Ask parts) : Prop :=
  ∀ id, request.session stateId = some id → own = some id

theorem Ask.Looks.keeps {own : Option SessionId} (request : Ask parts)
    (looks : request.Looks) : request.Keeps stateId own := by
  intro id about
  cases request with
  | sessionState subject id => exact looks.elim
  | restoreSession id fingerprint versions => exact looks.elim
  | runBatch batch => exact looks.elim
  | access request => cases about
  | stored select => cases about
  | now => cases about
  | resolveProfile name => cases about

section Step

variable (newState_id : ∀ id definition versions,
  stateId (parts.newState id definition versions) = id)
include newState_id

/-- The session is taken up, or is a new one of the same name. -/
theorem restoreOrNew_given {step : SubagentStep} (trigger : String)
    (id : SessionId) (definition : AgentDefinition)
    (versions : List (String × String)) :
    Given (Ask.Restores stateId) (Ask.Keeps stateId (some id))
      (@restoreOrNew parts step trigger id definition versions)
      fun restored => stateId restored.1 = id := by
  have loads : Given (Ask.Restores stateId) (Ask.Keeps stateId (some id))
      ((@loadSession parts step.deps trigger id).mapError
        (fromSession parts)) fun _ => True := by
    have asks : Ask.Keeps stateId (some id) (.sessionState trigger id) :=
      fun _ same => same
    exact (only_loadSession id asks).mapError.given fun _ keeps => keeps
  apply Given.bind loads
  intro found _
  cases found with
  | none => exact Given.pure (newState_id id definition versions)
  | some state =>
      refine ⟨fun own same => same, ?_⟩
      intro answer restores result same
      cases answer with
      | error error => cases same
      | ok restored =>
          obtain rfl := Except.ok.inj same
          exact restores

theorem prepare_given {step : SubagentStep} {config : Value} :
    Given (Ask.Restores stateId)
      (Ask.Keeps stateId (parts.sessionId (sessionName parts run)))
      (@prepare parts step run config)
      fun batch =>
        parts.sessionId (sessionName parts run) = some (stateId batch.state) := by
  unfold prepare
  cases SubagentConfig.ofValue config with
  | none => exact Given.fail _
  | some cfg =>
      apply Given.bind (Given.done fun _ _ => trivial)
      intro validated _
      cases run.trigger with
      | none => exact Given.fail _
      | some trigger =>
          apply Given.bind ((only_resolve _ _).given Ask.Looks.keeps)
          intro resolved _
          cases parts.sessionId (sessionName parts run) with
          | none => exact Given.fail _
          | some id =>
              apply Given.bind (Given.done fun _ _ => trivial)
              intro granted _
              apply Given.bind
              · exact (only_checkContextRoles _ _).given Ask.Looks.keeps
              intro checked _
              apply Given.bind
              · exact (only_assembleAndEngine _ _ _ _).given Ask.Looks.keeps
              intro engine _
              apply Given.bind (restoreOrNew_given newState_id _ _ _ _)
              intro restored same
              apply Given.bind (Given.done fun _ _ => trivial)
              intro _ _
              exact Given.pure (congrArg some same.symm)

theorem named_of_touches {id : SessionId} (touches : Touches stateId run id) :
    parts.sessionId (sessionName parts run) = some id := by
  obtain ⟨step, config, may⟩ := touches
  have given : Given (Ask.Restores stateId)
      (Ask.Keeps stateId (parts.sessionId (sessionName parts run)))
      (Subagent.run step run config) fun _ => True := by
    apply Given.bind (prepare_given newState_id)
    intro batch named
    refine ⟨?_, fun _ _ _ _ => trivial⟩
    intro own same
    rw [named]
    exact same
  obtain ⟨request, keeps, about⟩ := Script.Given.of_mayAsk given may
  exact keeps id about

end Step

/-- Two executions have one session if they are of one step of one run, and
otherwise touch no common one. -/
structure OwnSessions (parts : SubagentParts)
    (stateId : parts.State → SessionId) (run run' : RunInfo) : Prop where
  names : sessionName parts run = sessionName parts run' ↔ SameStep run run'
  resumes : SameStep run run' → ∀ {id id'}, Touches stateId run id →
    Touches stateId run' id' → id = id'
  apart : ∀ {id}, Touches stateId run id → Touches stateId run' id →
    SameStep run run'

/-- Two steps keep to their own sessions exactly when neither of them shadows
the other. -/
theorem ownSessions_iff
    (named : ∀ {name other id}, parts.sessionId name = some id →
      parts.sessionId other = some id → name = other)
    (newState_id : ∀ id definition versions,
      stateId (parts.newState id definition versions) = id)
    (distinct : digest parts (nameInput run) = digest parts (nameInput run') →
      nameInput run = nameInput run') :
    OwnSessions parts stateId run run' ↔
      ¬ Shadowed run run' ∧ ¬ Shadowed run' run := by
  have hashed : sessionName parts run = sessionName parts run' ↔
      nameInput run = nameInput run' := by
    rw [sessionName_eq_iff]
    exact ⟨distinct, congrArg _⟩
  constructor
  · intro own
    constructor
    · intro shadowed
      apply shadowed.different
      apply own.names.mp
      rw [hashed, nameInput_eq_iff]
      exact Or.inr (Or.inl shadowed)
    · intro shadowed
      apply shadowed.different
      apply SameStep.symm
      apply own.names.mp
      rw [hashed, nameInput_eq_iff]
      exact Or.inr (Or.inr shadowed)
  · intro free
    have names : sessionName parts run = sessionName parts run' ↔
        SameStep run run' := by
      rw [hashed, nameInput_eq_iff, or_iff_left]
      rintro (shadowed | shadowed)
      · exact free.1 shadowed
      · exact free.2 shadowed
    refine ⟨names, ?_, ?_⟩
    · intro same id id' touches touches'
      have mine := named_of_touches newState_id touches
      have theirs := named_of_touches newState_id touches'
      rw [← names.mpr same, mine] at theirs
      exact Option.some.inj theirs
    · intro id touches touches'
      apply names.mp
      exact named (named_of_touches newState_id touches)
        (named_of_touches newState_id touches')

def writer : AgentDefinition :=
  { id := "G_writer", kind := .sub, fingerprint := "f", profile := "p"
    prompt := "write", outputSchema := some .null, modules := []
    toolsets := [] }

/-- Parts whose states are the identifiers of their sessions, and which read the
agent and its provider. -/
def namedParts : SubagentParts :=
  { bareParts with
    State := SessionId
    sessionId := some
    readAgent := fun _ => some writer
    readProvider := fun _ => some { address := "https://llm", auth := none }
    stateFromJson := .ok
    newState := fun id _ _ => id }

/-- The step of a run. -/
def stepOf (runKey stepId : String) : RunInfo :=
  { runKey, stepId, depth := 0, vars := .object [], trigger := some "alice" }

def namedStep : SubagentStep where
  deps := { dbText := fun _ => "", secrets := .ok, host := none }
  maxSecsCeiling := 100

/-- The step comes to load its session. -/
theorem touches_own (stepId : String) :
    @Touches namedParts id (stepOf "r" stepId)
      (sessionName namedParts (stepOf "r" stepId)) := by
  refine ⟨namedStep, .array [.string "G_writer", .string "write", .null, .null],
    ?_⟩
  refine .inr ⟨.ok (some ⟨1, "alice", none, none, 0⟩), trivial, ?_⟩
  refine .inr ⟨.ok none, trivial, ?_⟩
  refine .inr ⟨.ok (some ⟨1, "alice", none, none, 0⟩), trivial, ?_⟩
  refine .inr ⟨.ok none, trivial, ?_⟩
  refine .inr ⟨.ok (some .null), trivial, ?_⟩
  refine .inr ⟨.ok (), trivial, ?_⟩
  refine .inr ⟨.ok (some .null), trivial, ?_⟩
  refine .inr ⟨.ok (some ⟨1, "alice", none, none, 0⟩), trivial, ?_⟩
  refine .inr ⟨.ok none, trivial, ?_⟩
  refine .inr ⟨.ok none, trivial, ?_⟩
  exact .inl rfl

theorem ownSessions_apart :
    (OwnSessions namedParts id (stepOf "r" "a") (stepOf "r" "b") ↔
      ¬ Shadowed (stepOf "r" "a") (stepOf "r" "b") ∧
        ¬ Shadowed (stepOf "r" "b") (stepOf "r" "a")) ∧
    @Touches namedParts id (stepOf "r" "a")
      (sessionName namedParts (stepOf "r" "a")) ∧
    @Touches namedParts id (stepOf "r" "b")
      (sessionName namedParts (stepOf "r" "b")) :=
  ⟨ownSessions_iff
    (fun first second => (Option.some.inj first).trans
      (Option.some.inj second).symm)
    (fun _ _ _ => rfl) (by decide), touches_own "a", touches_own "b"⟩

/-- The step `x`, NUL, `y` of the run that the step `a` starts, and the step `y`
of the run that its sibling `a`, NUL, `x` starts. -/
theorem sessions_not_apart :
    ¬ ∀ (run run' : RunInfo),
      (digest namedParts (nameInput run) = digest namedParts (nameInput run') →
        nameInput run = nameInput run') →
      (sessionName namedParts run = sessionName namedParts run' ↔
        run.runKey = run'.runKey ∧ run.stepId = run'.stepId) := by
  intro apart
  have one := (apart (stepOf (childRunKey "r" "a") "x\x00y")
    (stepOf (childRunKey "r" "a\x00x") "y") (fun _ => by decide)).mp (by decide)
  exact absurd one.1 (by decide)

end MiryadCore.Workflow.Subagent
