import MiryadCore.Json.Value

/-!
# Events of a session

The events of the engine, what the hub keeps of them for the subscribers of a
session, and the errors of the calls.  An instant is in milliseconds since the
epoch; its text in RFC 3339 is left out.
-/

namespace MiryadCore.Interactive

inductive LymailleError where
  | unknownSubject
  | forbidden (text : String)
  | reservedPrefix (id : String)
  | invalidDefinition (text : String)
  | secretUnresolved (reference : String)
  | inference (text : String)
  | run (message : String) (retryable : Bool)
  | config (text : String)
  | store (text : String)
  | notFound (text : String)
  | conflict (text : String)
  | serialization (text : String)
  deriving DecidableEq, Repr

/-- The text of an error, with its code. -/
def LymailleError.display : LymailleError → String
  | .unknownSubject => "MRD-LYMAILLE-001: no local account for this session subject"
  | .forbidden text => "MRD-LYMAILLE-002: forbidden: " ++ text
  | .reservedPrefix id =>
      "MRD-LYMAILLE-003: identifier uses the reserved catalog prefix: " ++ id
  | .invalidDefinition text => "MRD-LYMAILLE-004: invalid definition: " ++ text
  | .secretUnresolved reference =>
      "MRD-LYMAILLE-005: secret reference could not be resolved: " ++ reference
  | .inference text => "MRD-LYMAILLE-006: inference error: " ++ text
  | .run message _ => "MRD-LYMAILLE-007: agent run failed: " ++ message
  | .config text => "MRD-LYMAILLE-008: invalid configuration: " ++ text
  | .store text => "MRD-LYMAILLE-009: store error: " ++ text
  | .notFound text => "MRD-LYMAILLE-010: not found: " ++ text
  | .conflict text => "MRD-LYMAILLE-011: conflict: " ++ text
  | .serialization text => "MRD-LYMAILLE-012: serialization error: " ++ text

/-- `SessionId`, an opaque text. -/
abbrev SessionId := String

/-- `lymaille::Outcome`, which may grow. -/
inductive Outcome where
  | valid
  | failed
  | cancelled
  | other (name : String)
  deriving DecidableEq, Repr

/-- What the mirror reads of a `lymaille::ScriptRecord`. -/
structure ScriptRecord where
  agent : String
  durationMs : ℕ
  result : String
  truncated : Bool
  error : Option String
  deriving DecidableEq, Repr

/-- What the mirror reads of a `lymaille::McpRecord`. -/
structure McpRecord where
  role : String
  function : String
  status : String
  durationMs : ℕ
  deriving DecidableEq, Repr

/-- `lymaille::EventKind`: a kind that the mirror does not reflect is known by
the name under which it is serialized. -/
inductive EventKind where
  | turnStarted (turn : ℕ)
  | textDelta (turn : ℕ) (text : String)
  | turnEnded (turn : ℕ) (outcome : Outcome) (response : String)
  | runEnded (run : String) (outcome : Outcome)
  | tokenUsage (prompt completion : ℕ)
  | todoChanged
  | titleChanged (title : String)
  | reviewRequested (reason : String)
  | script (record : ScriptRecord)
  | mcpCall (record : McpRecord)
  | mcpReconnect (role : String) (attempt delayMs : ℕ)
  | inferenceRetry (attempt delayMs : ℕ) (errorClass : String)
  | overrun (elapsedMs : ℕ)
  | responseTruncated (hasText hasToolCalls : Bool)
  | emptyResponse (willRetry : Bool)
  | unreflected (name : String)
  deriving DecidableEq, Repr

/-- `lymaille::Event`. -/
structure Event where
  session : SessionId
  at_ : ℕ
  kind : EventKind
  deriving DecidableEq, Repr

inductive SessionOutcome where
  | valid
  | failed
  | cancelled
  deriving DecidableEq, Repr

/-- The two kinds that only the history route makes are left out. -/
inductive SessionEventKind where
  | turnStarted (turn : ℕ)
  | textDelta (turn : ℕ) (text : String)
  | turnEnded (turn : ℕ) (outcome : SessionOutcome) (response : String)
  | runEnded (run : String) (outcome : SessionOutcome)
  | tokenUsage (prompt completion : ℕ)
  | todoChanged
  | titleChanged (title : String)
  | reviewRequested (reason : String)
  | script (agent : String) (durationMs : ℕ) (result : String)
      (truncated : Bool) (error : Option String)
  | mcpCall (role function status : String) (durationMs : ℕ)
  | mcpReconnect (role : String) (attempt delayMs : ℕ)
  | inferenceRetry (attempt delayMs : ℕ) (errorClass : String)
  | overrun (elapsedMs : ℕ)
  | responseTruncated (hasText hasToolCalls : Bool)
  | emptyResponse (willRetry : Bool)
  | other (name : String)
  | host (kind : String) (payload : Value)
  deriving DecidableEq, Repr

structure SessionEvent where
  session : String
  at_ : ℕ
  kind : SessionEventKind
  deriving DecidableEq, Repr

/-- A later outcome falls into `failed`. -/
def outcomeOf : Outcome → SessionOutcome
  | .valid => .valid
  | .cancelled => .cancelled
  | .failed => .failed
  | .other _ => .failed

/-- A summary of a script or of an MCP call, without its text or arguments. -/
def kindOf : EventKind → SessionEventKind
  | .turnStarted turn => .turnStarted turn
  | .textDelta turn text => .textDelta turn text
  | .turnEnded turn outcome response =>
      .turnEnded turn (outcomeOf outcome) response
  | .runEnded run outcome => .runEnded run (outcomeOf outcome)
  | .tokenUsage prompt completion => .tokenUsage prompt completion
  | .todoChanged => .todoChanged
  | .titleChanged title => .titleChanged title
  | .reviewRequested reason => .reviewRequested reason
  | .script record =>
      .script record.agent record.durationMs record.result record.truncated
        record.error
  | .mcpCall record =>
      .mcpCall record.role record.function record.status record.durationMs
  | .mcpReconnect role attempt delayMs => .mcpReconnect role attempt delayMs
  | .inferenceRetry attempt delayMs errorClass =>
      .inferenceRetry attempt delayMs errorClass
  | .overrun elapsedMs => .overrun elapsedMs
  | .responseTruncated hasText hasToolCalls =>
      .responseTruncated hasText hasToolCalls
  | .emptyResponse willRetry => .emptyResponse willRetry
  | .unreflected name => .other name

/-- `SessionEvent::from`. -/
def SessionEvent.of (event : Event) : SessionEvent :=
  { session := event.session, at_ := event.at_, kind := kindOf event.kind }

end MiryadCore.Interactive
