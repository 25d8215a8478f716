import MiryadCore.Chat.Render
import MiryadCore.Interactive.ManagerProtocol

/-!
# The bridge between rooms and sessions

A message of a room is a command, or a text for the session of the room.  The
statements on the tables of the bridge, the marks that a process keeps in
memory and the sections of its manager are requests; the directory of the
linked accounts, the host and the sender are answered by the conditions.  An
instant is in nanoseconds since the epoch.
-/

namespace MiryadCore.Chat.Bridging

open Interactive
open Users (trim isWhitespace)

def INVITE_TEXT : String :=
  "Ce compte n'est pas lié : demandez un code sur l'API, puis `!link <code>`."

def LINK_REFUSED : String := "Liaison refusée."

def ROOM_TAKEN : String := "Cette salle est liée à un autre utilisateur."

def TURN_ACTIVE : String := "Un tour est en cours."

def CONTEXT_UNAVAILABLE : String := "Contexte inconnu ou inaccessible."

def AGENT_REFUSED : String := "Agent non autorisé pour ce contexte."

def NO_CONTEXT : String :=
  "Aucun contexte pour cette salle : utilisez `!new <contexte>`."

def CANCELLED_TEXT : String := "Annulé."

def NOTHING_TO_REPORT : String := "Rien à signaler."

def NO_TURN : String := "Aucun tour en cours."

def NOTHING_TO_RESUME : String := "Aucune session à reprendre."

def NEW_SESSION : String := "Nouvelle session ouverte."

def RUN_FAILED_CODE : String := "MRD-LYMAILLE-007"

def PURGE_EVERY_SECS : ℕ := 3600

def INVITE_PERIOD_MS : ℕ := 3600000

def WARNED_MAX : ℕ := 4096

/-- What the bridge reads of a `MatrixMessage`. -/
structure MatrixMessage where
  roomId : String
  eventId : String
  sender : String
  body : String
  timestampMs : ℕ
  deriving DecidableEq, Repr

/-- What is set for the bridge, durations in milliseconds, with the user of its
client, the limits of its manager and the texts that name a session. -/
structure ChatConfig where
  ownUserId : String
  maxEventAge : ℕ
  dedupeWindow : ℕ
  limits : Limits
  sessionId : String → Option SessionId

def ChatConfig.default : ChatConfig where
  ownUserId := "@bot:srv"
  maxEventAge := 5 * 60 * 1000
  dedupeWindow := 168 * 3600 * 1000
  limits := { maxOpenPerUser := 8, idleTtlMs := 1800000 }
  sessionId id := if id = "" then none else some id

/-- A row of the rooms, whose key is the room. -/
structure RoomRow where
  subject : Option String
  session : Option String
  agent : Option String
  deriving DecidableEq, Repr

/-- What is read of the row of a room. -/
structure Salle where
  sujet : String
  session : Option SessionId
  deriving DecidableEq, Repr

structure ActivationReport where
  name : String
  version : String
  previousVersion : Option String
  deriving DecidableEq, Repr

/-- What a process keeps in memory. -/
structure Process (parts : Parts) where
  manager : Manager parts
  lastPurge : ℕ
  warned : List String
  invited : String → Option ℕ

/-- The tables of the bridge, and its processes. -/
structure Bridge (parts : Parts) where
  seen : String → Option ℤ
  rooms : String → Option RoomRow
  process : ℕ → Process parts

/-- A section of a manager tells the turn that makes it, and the clock of the
bridge is told the message that it is read for.  A message that goes on to its
command or text makes itself known. -/
inductive Request where
  | clock (message : MatrixMessage)
  | utcNow
  | markSeen (eventId : String) (seenAt : ℤ)
  | loadPurge (process : ℕ)
  | exchangePurge (process current new : ℕ)
  | deleteSeen (before : ℤ)
  | purgeExpired (now : ℤ)
  | handle (message : MatrixMessage)
  | consumeCode (mxid code : String) (now : ℤ)
  | invite (process : ℕ) (roomId : String) (nowMs : ℕ)
  | resolveLink (mxid : String)
  | resolveIdentity (subject : String)
  | readRoom (roomId : String)
  | warn (process : ℕ) (roomId : String)
  | readContext (subject : String) (id : SessionId)
  | updateRoom (roomId : String) (row : RoomRow)
  | insertRoom (roomId : String) (row : RoomRow)
  | resolveRoom (roomId : String)
  | activateToolset (caller : CallerPrincipal) (name : String)
  | send (roomId text : String) (txnId : Option String)
  | manager (process : ℕ) (turn : Option Manager.Turn)
      (request : Manager.Section)
  | stall

namespace Request

@[reducible]
def Reply : Request → Type
  | .clock _ => ℕ
  | .utcNow => ℤ
  | .markSeen _ _ => Except String ℕ
  | .loadPurge _ => ℕ
  | .exchangePurge _ _ _ => Bool
  | .deleteSeen _ => Except String ℕ
  | .purgeExpired _ => Except String ℕ
  | .handle _ => Unit
  | .consumeCode _ _ _ => Except LymailleError String
  | .invite _ _ _ => Bool
  | .resolveLink _ => Except LymailleError (Option String)
  | .resolveIdentity _ => Except LymailleError CallerPrincipal
  | .readRoom _ => Except String (Option RoomRow)
  | .warn _ _ => Bool
  | .readContext _ _ => Except String (Option String)
  | .updateRoom _ _ => Except String ℕ
  | .insertRoom _ _ => Except String Unit
  | .resolveRoom _ => Option String
  | .activateToolset _ _ => Except LymailleError ActivationReport
  | .send _ _ _ => Except String String
  | .manager _ _ request => request.Reply
  | .stall => Unit

end Request

/-- The instant of a request, what the database says when it fails it, and the
answers of the other services. -/
structure Conditions where
  now : ℕ := 0
  fault : Option String := none
  purged : Except String ℕ := .ok 0
  consumed : Except LymailleError String := .error .unknownSubject
  linked : Except LymailleError (Option String) := .ok (some "alice")
  identity : Except LymailleError CallerPrincipal :=
    .ok { userId := 1, subject := "alice", isAdmin := false }
  context : Except String (Option String) := .ok none
  room : Option String := some "context"
  activated : Except LymailleError ActivationReport := .error .unknownSubject
  sent : Except String String := .ok "$sent"
  manager : Manager.Conditions := {}

def nanosPerMilli : ℕ := 1000000

/-- A statement, which the database may fail. -/
def statement {α state : Type} (conditions : Conditions) (before : state)
    (performed : Except String (α × state)) : Except String α × state :=
  match conditions.fault with
  | some panne => (.error panne, before)
  | none =>
      match performed with
      | .ok (reply, after) => (.ok reply, after)
      | .error panne => (.error panne, before)

theorem statement_cases {α state : Type} (conditions : Conditions)
    (before : state) (performed : Except String (α × state)) :
    (∃ panne, statement conditions before performed = (.error panne, before)) ∨
    ∃ reply after, performed = .ok (reply, after) ∧
      statement conditions before performed = (.ok reply, after) := by
  unfold statement
  cases conditions.fault with
  | some panne => exact Or.inl ⟨panne, rfl⟩
  | none =>
      cases performed with
      | ok answered => exact Or.inr ⟨answered.1, answered.2, rfl, rfl⟩
      | error panne => exact Or.inl ⟨panne, rfl⟩

/-- What the database says of a key that is taken. -/
def UNIQUE_VIOLATION : String := "UNIQUE constraint failed"

namespace Bridge

variable {parts : Parts}

/-- The memory of a process, changed. -/
def setProcess (bridge : Bridge parts) (process : ℕ)
    (memory : Process parts) : Bridge parts :=
  { bridge with process := Function.update bridge.process process memory }

/-- `ON CONFLICT DO NOTHING` -/
def markSeen (eventId : String) (seenAt : ℤ) (bridge : Bridge parts) :
    Except String (ℕ × Bridge parts) :=
  if (bridge.seen eventId).isSome then .ok (0, bridge)
  else
    .ok (1, { bridge with
      seen := Function.update bridge.seen eventId (some seenAt) })

/-- How many rows are deleted is only traced. -/
def deleteSeen (before : ℤ) (bridge : Bridge parts) :
    Except String (ℕ × Bridge parts) :=
  .ok (0, { bridge with
    seen := fun eventId =>
      (bridge.seen eventId).filter fun seenAt => before ≤ seenAt })

def updateRoom (roomId : String) (row : RoomRow) (bridge : Bridge parts) :
    Except String (ℕ × Bridge parts) :=
  if (bridge.rooms roomId).isSome then
    .ok (1, { bridge with
      rooms := Function.update bridge.rooms roomId (some row) })
  else .ok (0, bridge)

def insertRoom (roomId : String) (row : RoomRow) (bridge : Bridge parts) :
    Except String (Unit × Bridge parts) :=
  if (bridge.rooms roomId).isSome then .error UNIQUE_VIOLATION
  else
    .ok ((), { bridge with
      rooms := Function.update bridge.rooms roomId (some row) })

/-- The room is marked as warned, unless it is already. -/
def warn (roomId : String) (memory : Process parts) : Bool × Process parts :=
  let marks :=
    if WARNED_MAX ≤ memory.warned.length then [] else memory.warned
  if roomId ∈ marks then (false, { memory with warned := marks })
  else (true, { memory with warned := roomId :: marks })

/-- A room is invited once in a period. -/
def invite (roomId : String) (nowMs : ℕ) (memory : Process parts) :
    Bool × Process parts :=
  if (memory.invited roomId).any fun last =>
      nowMs - last < INVITE_PERIOD_MS then
    (false, memory)
  else
    (true, { memory with
      invited := Function.update memory.invited roomId (some nowMs) })

/-- `compare_exchange` on the instant of the last purge. -/
def exchangePurge (current new : ℕ) (memory : Process parts) :
    Bool × Process parts :=
  if memory.lastPurge = current then (true, { memory with lastPurge := new })
  else (false, memory)

/-- A change of the memory of a process. -/
def remember {α : Type} (bridge : Bridge parts) (process : ℕ)
    (change : Process parts → α × Process parts) : α × Bridge parts :=
  let changed := change (bridge.process process)
  (changed.1, bridge.setProcess process changed.2)

def exec (conditions : Conditions) (bridge : Bridge parts) :
    (request : Request) → request.Reply × Bridge parts
  | .clock _ => (conditions.now / nanosPerMilli, bridge)
  | .utcNow => (conditions.now, bridge)
  | .markSeen eventId seenAt =>
      statement conditions bridge (bridge.markSeen eventId seenAt)
  | .loadPurge process => ((bridge.process process).lastPurge, bridge)
  | .exchangePurge process current new =>
      bridge.remember process (exchangePurge current new)
  | .deleteSeen before =>
      statement conditions bridge (bridge.deleteSeen before)
  | .purgeExpired _ => (conditions.purged, bridge)
  | .handle _ => ((), bridge)
  | .consumeCode _ _ _ => (conditions.consumed, bridge)
  | .invite process roomId nowMs =>
      bridge.remember process (invite roomId nowMs)
  | .resolveLink _ => (conditions.linked, bridge)
  | .resolveIdentity _ => (conditions.identity, bridge)
  | .readRoom roomId =>
      statement conditions bridge (.ok (bridge.rooms roomId, bridge))
  | .warn process roomId => bridge.remember process (warn roomId)
  | .readContext _ _ => (conditions.context, bridge)
  | .updateRoom roomId row =>
      statement conditions bridge (bridge.updateRoom roomId row)
  | .insertRoom roomId row =>
      statement conditions bridge (bridge.insertRoom roomId row)
  | .resolveRoom _ => (conditions.room, bridge)
  | .activateToolset _ _ => (conditions.activated, bridge)
  | .send _ _ _ => (conditions.sent, bridge)
  | .manager process _ request =>
      bridge.remember process fun memory =>
        let answered := Manager.exec conditions.manager memory.manager request
        (answered.1, { memory with manager := answered.2 })
  | .stall => ((), bridge)

/-- A call that stalls waits for ever. -/
def ready (bridge : Bridge parts) : Request → Bool
  | .manager process _ request =>
      Manager.ready (bridge.process process).manager request
  | .stall => false
  | _ => true

end Bridge

/-- Code that may end with the text of an error, for the traces. -/
abbrev Code := Query Request Request.Reply String

namespace Code

/-- A request that has no error. -/
def ask (request : Request) : Code request.Reply :=
  Script.call request fun answer => .done (.ok answer)

/-- The `?` on the reply to a request, with the text of its error. -/
def demand {α : Type} (request : Request)
    (translate : request.Reply → Except String α) : Code α :=
  Script.call request fun answer => .done (translate answer)

/-- A call on the manager of the process, whose result is a value. -/
def managed {α : Type} (process : ℕ) (code : Manager.Code α) :
    Code (Except LymailleError α) :=
  Script.bind
    (Script.lift (Request.manager process none) (fun _ answer => answer) code)
    fun result => .done (.ok result)

end Code

/-- `map_err` with a prefix. -/
def prefixed {α : Type} (text : String) : Except String α → Except String α :=
  Except.mapError (text ++ ·)

/-- `tracer` -/
def traced {α : Type} : Except LymailleError α → Except String α :=
  Except.mapError LymailleError.display

open Code

/-- `str::strip_prefix`, on the characters. -/
def stripPrefix (text mark : List Char) : Option (List Char) :=
  if mark.isPrefixOf text then some (text.drop mark.length) else none

/-- `split_once(char::is_whitespace)`, with nothing after when there is none. -/
def splitOnce (text : List Char) : String × String :=
  (String.ofList (text.takeWhile fun char => !isWhitespace char),
    String.ofList (trim (text.dropWhile fun char => !isWhitespace char)))

/-- `split_whitespace` -/
def splitWhitespace (text : String) : List String :=
  ((text.toList.splitOnP isWhitespace).filter fun word => !word.isEmpty).map
    String.ofList

def codeDe : LymailleError → String
  | .unknownSubject => "MRD-LYMAILLE-001"
  | .forbidden _ => "MRD-LYMAILLE-002"
  | .reservedPrefix _ => "MRD-LYMAILLE-003"
  | .invalidDefinition _ => "MRD-LYMAILLE-004"
  | .secretUnresolved _ => "MRD-LYMAILLE-005"
  | .inference _ => "MRD-LYMAILLE-006"
  | .run _ _ => "MRD-LYMAILLE-007"
  | .config _ => "MRD-LYMAILLE-008"
  | .store _ => "MRD-LYMAILLE-009"
  | .notFound _ => "MRD-LYMAILLE-010"
  | .conflict _ => "MRD-LYMAILLE-011"
  | .serialization _ => "MRD-LYMAILLE-012"

def texteErreur : LymailleError → String
  | .notFound _ => CONTEXT_UNAVAILABLE
  | .forbidden _ => AGENT_REFUSED
  | other => formatError (codeDe other)

def envoyer (roomId text : String) (txnId : Option String) : Code Unit :=
  demand (.send roomId text txnId) fun sent =>
    (prefixed "envoi Matrix: " sent).map fun _ => ()

def dire (roomId texte : String) : Code Unit :=
  envoyer roomId texte none

/-- The last instant that `from_timestamp_millis` accepts. -/
def maxMillis : ℕ := 8210266876799999

/-- `i64::MAX / 1000`, the longest duration in seconds. -/
def maxSeconds : ℕ := (2 ^ 63 - 1) / 1000

/-- `DateTime::<Utc>::MIN_UTC`. -/
def minUtc : ℤ := -8334601228800 * 1000000000

/-- The instant of a mark, which is the present outside of the calendar. -/
def instantVu (nowMs : ℕ) : Code ℤ :=
  if nowMs ≤ maxMillis then pure ((nowMs : ℤ) * nanosPerMilli)
  else ask .utcNow

def marquerVu (eventId : String) (nowMs : ℕ) : Code Bool := do
  let vu ← instantVu nowMs
  let rows ← demand (.markSeen eventId vu) (prefixed "dédoublonnement Matrix: ")
  return 0 < rows

/-- Events seen before this instant are purged: a duration that is too long
panics, and one that leaves the calendar gives the present. -/
def avantPurge (dedupeWindow : ℕ) : Code ℤ := do
  let secondes := min (dedupeWindow / 1000) (2 ^ 63 - 1)
  let now ← ask .utcNow
  if maxSeconds < secondes then
    Query.fail "TimeDelta::seconds out of bounds"
  else
    let avant := now - secondes * 1000000000
    if avant < minUtc then ask .utcNow else pure avant

/-- A purge that fails is only traced. -/
def purger (dedupeWindow : ℕ) : Code Unit := do
  let avant ← avantPurge dedupeWindow
  let _ ← ask (.deleteSeen avant)
  let now ← ask .utcNow
  let _ ← ask (.purgeExpired now)
  return ()

def purgeOpportune (process dedupeWindow nowMs : ℕ) : Code Unit := do
  let seuil := nowMs - PURGE_EVERY_SECS * 1000
  let dernier ← ask (.loadPurge process)
  if seuil < dernier then return ()
  else
    let exchanged ← ask (.exchangePurge process dernier nowMs)
    if exchanged then purger dedupeWindow else return ()

def lireSalle (config : ChatConfig) (roomId : String) :
    Code (Option Salle) := do
  let row ← demand (.readRoom roomId) (prefixed "lecture de salle: ")
  return row.bind fun row => row.subject.map fun sujet =>
    { sujet, session := row.session.bind config.sessionId }

def contexteSession (sujet : String) (id : SessionId) :
    Code (Option String) :=
  demand (.readContext sujet id) (prefixed "lecture de contexte: ")

def ecrireSalle (roomId sujet : String) (session : Option SessionId)
    (agent : Option String) : Code Unit := do
  let row : RoomRow := { subject := some sujet, session, agent }
  let rows ←
    demand (.updateRoom roomId row) (prefixed "mise à jour de salle: ")
  if 0 < rows then return ()
  else
    demand (.insertRoom roomId row) (prefixed "revendication de salle: ")

def consommer (mxid code : String) : Code (Except LymailleError String) :=
  if code = "" then pure (.error (.forbidden "no code presented"))
  else do
    let now ← ask .utcNow
    ask (.consumeCode mxid code now)

def liaison (roomId mxid code : String) : Code Unit := do
  let resultat ← consommer mxid code
  match resultat with
  | .ok _ => dire roomId "Compte lié."
  | .error _ => dire roomId LINK_REFUSED

def inviter (process : ℕ) (roomId : String) (nowMs : ℕ) : Code Unit := do
  let autorisee ← ask (.invite process roomId nowMs)
  if autorisee then dire roomId INVITE_TEXT else return ()

/-- The context of the session that is about to be closed. -/
def contexteFerme (sujet : String) : Option SessionId → Code (Option String)
  | some id => contexteSession sujet id
  | none => pure none

/-- The context of a new session: the explicit one, that of the session, or
that of the host. -/
def contexteNouveau (sujet roomId : String) (session : Option SessionId) :
    Option String → Code (Option String)
  | some contexte => pure (some contexte)
  | none => do
      let ferme ← contexteFerme sujet session
      match ferme with
      | some contexte => return some contexte
      | none => ask (.resolveRoom roomId)

def fermer (process : ℕ) (sujet : String) : Option SessionId → Code Unit
  | some id => do
      let _ ← managed process (Manager.close sujet id)
      return ()
  | none => return ()

def nouvelleSession (config : ChatConfig) (process : ℕ)
    (sujet roomId reste : String) (session : Option SessionId) :
    Code Unit := do
  let mots := splitWhitespace reste
  let contexte ← contexteNouveau sujet roomId session mots[0]?
  fermer process sujet session
  match contexte with
  | none => dire roomId NO_CONTEXT
  | some contexte =>
      let anse ← managed process (Manager.open_ config.limits.maxOpenPerUser
        sujet contexte mots[1]?)
      match anse with
      | .ok anse =>
          ecrireSalle roomId sujet (some anse.id) (some anse.agentId)
          dire roomId NEW_SESSION
      | .error erreur => dire roomId (texteErreur erreur)

/-- Whether a turn of the session of the room was active. -/
def annulerSession (process : ℕ) (sujet : String) :
    Option SessionId → Code Bool
  | some id => do
      let result ← managed process (Manager.cancel sujet id)
      Query.ofExcept (traced result)
  | none => pure false

def annuler (process : ℕ) (sujet roomId : String)
    (session : Option SessionId) : Code Unit := do
  let actif ← annulerSession process sujet session
  if actif then return () else dire roomId NO_TURN

def reprendre (process : ℕ) (sujet roomId : String)
    (session : Option SessionId) : Code Unit := do
  match session with
  | none => dire roomId NOTHING_TO_RESUME
  | some id =>
      match ← managed process (Manager.resume sujet id) with
      | .ok anse =>
          ecrireSalle roomId sujet (some anse.id) (some anse.agentId)
          dire roomId ((formatNotice anse.notices).getD NOTHING_TO_REPORT)
      | .error erreur => dire roomId (texteErreur erreur)

def activer (roomId : String) (appelant : CallerPrincipal)
    (toolset : String) : Code Unit := do
  if toolset = "" then dire roomId "Usage : !activate <toolset>"
  else
    match ← ask (.activateToolset appelant toolset) with
    | .ok rapport =>
        match rapport.previousVersion with
        | some avant =>
            dire roomId ("Toolset " ++ rapport.name ++ " : version " ++
              rapport.version ++ " (remplace " ++ avant ++ ").")
        | none =>
            dire roomId ("Toolset " ++ rapport.name ++ " : version " ++
              rapport.version ++ ".")
    | .error erreur => dire roomId (texteErreur erreur)

/-- What is done under a subscription, which is then dropped. -/
def subscribed (process : ℕ) (abonnement : Subscription) (code : Code Unit) :
    Code Unit := do
  let result ← code.attempt
  ask (.manager process none (.hub (.unsubscribe abonnement)))
  Query.ofExcept result

/-- The parts of an answer, each sent under the rank that it has. -/
def envoyerParties (roomId eventId : String) :
    ℕ → List String → Code Unit
  | _, [] => return ()
  | rang, partie :: parties => do
      envoyer roomId partie (some (eventId ++ "-" ++ toString rang))
      envoyerParties roomId eventId (rang + 1) parties

/-- The answer to a message at the end of a turn. -/
def repondre (roomId eventId response : String) :
    SessionOutcome → Code Unit
  | .valid => envoyerParties roomId eventId 0 (splitMessage response)
  | .failed => dire roomId (formatError RUN_FAILED_CODE)
  | .cancelled => dire roomId CANCELLED_TEXT

/-- The loop over the events, of which it reads as many as `reads`. -/
def collecte (process : ℕ) (abonnement : Subscription)
    (roomId eventId : String) : ℕ → Code Unit
  | 0 => ask .stall
  | reads + 1 => do
      match ← ask (.manager process none (.hub (.recv abonnement))) with
      | .ok { kind := .turnEnded _ outcome response, .. } =>
          repondre roomId eventId response outcome
      | .ok _ => collecte process abonnement roomId eventId reads
      | .error (.lagged _) => collecte process abonnement roomId eventId reads
      | .error .closed =>
          Query.fail "abonnement au hub fermé sans fin de tour"

/-- `SessionManager::subscribe`, without which there is no answer. -/
def abonner (process : ℕ) (sujet : String) (id : SessionId) :
    Code Subscription := do
  let result ← managed process (Manager.subscribe sujet id)
  Query.ofExcept (traced result)

def ouvrirALaDemande (config : ChatConfig) (process reads : ℕ)
    (sujet : String) (message : MatrixMessage) : Code Unit := do
  match ← ask (.resolveRoom message.roomId) with
  | none => dire message.roomId NO_CONTEXT
  | some contexte =>
      match ← managed process (Manager.open_ config.limits.maxOpenPerUser
        sujet contexte none) with
      | .ok anse =>
          ecrireSalle message.roomId sujet (some anse.id) (some anse.agentId)
          let abonnement ← abonner process sujet anse.id
          subscribed process abonnement do
            let result ←
              managed process (Manager.send sujet anse.id message.body none)
            Query.ofExcept (traced result)
            collecte process abonnement message.roomId message.eventId reads
      | .error erreur => dire message.roomId (texteErreur erreur)

def texteLibre (config : ChatConfig) (process reads : ℕ) (sujet : String)
    (session : Option SessionId) (message : MatrixMessage) : Code Unit := do
  match session with
  | none => ouvrirALaDemande config process reads sujet message
  | some id =>
      let abonnement ← abonner process sujet id
      subscribed process abonnement do
        match ← managed process (Manager.send sujet id message.body none) with
        | .ok () =>
            collecte process abonnement message.roomId message.eventId reads
        | .error (.notFound _) =>
            match ← managed process (Manager.resume sujet id) with
            | .ok _ =>
                match ← managed process
                  (Manager.send sujet id message.body none) with
                | .ok () =>
                    collecte process abonnement message.roomId
                      message.eventId reads
                | .error (.conflict _) => dire message.roomId TURN_ACTIVE
                | .error erreur => dire message.roomId (texteErreur erreur)
            | .error _ => ouvrirALaDemande config process reads sujet message
        | .error (.conflict _) => dire message.roomId TURN_ACTIVE
        | .error erreur => dire message.roomId (texteErreur erreur)

/-- A command, or a text, for the session of the room. -/
def commander (config : ChatConfig) (process reads : ℕ)
    (message : MatrixMessage) (body : List Char) (sujet : String)
    (appelant : CallerPrincipal) (session : Option SessionId) :
    Code Unit := do
  match stripPrefix body ['!'] with
  | some commande =>
      let (nom, reste) := splitOnce commande
      if nom = "help" then dire message.roomId helpText
      else if nom = "new" then
        nouvelleSession config process sujet message.roomId reste session
      else if nom = "cancel" then annuler process sujet message.roomId session
      else if nom = "resume" then
        reprendre process sujet message.roomId session
      else if nom = "activate" then activer message.roomId appelant reste
      else return ()
  | none => texteLibre config process reads sujet session message

/-- A message of an account that is linked, in a room of its own. -/
def recevoir (config : ChatConfig) (process reads : ℕ)
    (message : MatrixMessage) (body : List Char) (sujet : String)
    (appelant : CallerPrincipal) : Code Unit := do
  let salle ← lireSalle config message.roomId
  match salle with
  | some salle =>
      if salle.sujet ≠ sujet then
        let premiere ← ask (.warn process message.roomId)
        if premiere then dire message.roomId ROOM_TAKEN else return ()
      else
        commander config process reads message body sujet appelant salle.session
  | none => commander config process reads message body sujet appelant none

/-- What a message that is new and recent launches. -/
def traiter (config : ChatConfig) (process reads : ℕ)
    (message : MatrixMessage) (nowMs : ℕ) : Code Unit := do
  let body := trim message.body.toList
  match stripPrefix body "!link".toList with
  | some code =>
      liaison message.roomId message.sender (String.ofList (trim code))
  | none =>
      let linked ← ask (.resolveLink message.sender)
      match ← Query.ofExcept (traced linked) with
      | none => inviter process message.roomId nowMs
      | some sujet =>
          match ← ask (.resolveIdentity sujet) with
          | .ok appelant =>
              recevoir config process reads message body sujet appelant
          | .error _ => inviter process message.roomId nowMs

def dispatcher (config : ChatConfig) (process reads : ℕ)
    (message : MatrixMessage) : Code Unit := do
  if message.sender = config.ownUserId then return ()
  else
    let nowMs ← ask (.clock message)
    let nouveau ← marquerVu message.eventId nowMs
    if nouveau = false then return ()
    else
      purgeOpportune process config.dedupeWindow nowMs
      let maxAge := min config.maxEventAge (2 ^ 64 - 1)
      if maxAge < nowMs - message.timestampMs then return ()
      else
        ask (.handle message)
        traiter config process reads message nowMs

/-- The subscriber of a route: it reads so many events. -/
def lireEvenements (process : ℕ) (abonnement : Subscription) :
    ℕ → Code Unit
  | 0 => return ()
  | reads + 1 => do
      let _ ← ask (.manager process none (.hub (.recv abonnement)))
      lireEvenements process abonnement reads

def ecouter (process reads : ℕ) (subject : String) (id : SessionId) :
    Code Unit := do
  let abonnement ← abonner process subject id
  subscribed process abonnement (lireEvenements process abonnement reads)

/-- The delivery of a message, a call on a manager from elsewhere, a turn, and
a subscriber of a route. -/
inductive Call where
  | deliver (process reads : ℕ) (message : MatrixMessage)
  | manager (process : ℕ) (call : Manager.Call)
  | listen (process reads : ℕ) (subject : String) (id : SessionId)

/-- The turn that a call on the manager is. -/
def turnOf : Manager.Call → Option Manager.Turn
  | .turn turn => some turn
  | _ => none

def program (config : ChatConfig) :
    Call → Script Request Request.Reply (Except String Unit)
  | .deliver process reads message => dispatcher config process reads message
  | .manager process call =>
      Script.bind
        (Script.lift (Request.manager process (turnOf call))
          (fun _ answer => answer) (Manager.program config.limits call))
        fun _ => .done (.ok ())
  | .listen process reads subject id => ecouter process reads subject id

/-- The turn that a call on the manager spawns. -/
def spawns : Request → Option Call
  | .manager process _ request =>
      (Manager.spawns request).map (.manager process)
  | _ => none

/-- A call from outside: a turn is only started by the manager. -/
def Outside : Call → Prop
  | .manager _ call => Manager.Outside call
  | _ => True

/-- Calls on the bridges that run beside each other. -/
def system (parts : Parts) (config : ChatConfig) :
    System Call Request Request.Reply Conditions (Bridge parts)
      (Except String Unit) where
  program := program config
  exec := Bridge.exec
  ready := Bridge.ready
  spawns := spawns

/-- A request of a call, as it took place. -/
abbrev Passage (parts : Parts) :=
  Occurrence Request Request.Reply (Bridge parts)

abbrev Trace (parts : Parts) := List (Passage parts)

/-- The bridges before any message. -/
def Bridge.new (parts : Parts) (managers : ℕ → Manager parts) :
    Bridge parts where
  seen _ := none
  rooms _ := none
  process process :=
    { manager := managers process, lastPurge := 0, warned := []
      invited := fun _ => none }

end MiryadCore.Chat.Bridging
