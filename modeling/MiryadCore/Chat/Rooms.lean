import MiryadCore.Chat.BridgeRequests
import MiryadCore.Control.History

/-!
# The subject of a room

A message reads the row of its room, and later writes it: the row keeps its
subject in every run exactly when no other subject writes it in between.
-/

namespace MiryadCore.Chat.Bridging

open Interactive Code

variable {parts : Parts} {config : ChatConfig}

/-- The row that a statement writes. -/
def wrote : Passage parts → Option (String × RoomRow)
  | ⟨_, _, .updateRoom roomId row, .ok rows⟩ =>
      if 0 < rows then some (roomId, row) else none
  | ⟨_, _, .insertRoom roomId row, .ok _⟩ => some (roomId, row)
  | _ => none

/-- The task reads the row of the room. -/
def ReadsRoom (task : ℕ) (roomId : String) (passage : Passage parts) : Prop :=
  passage.task = task ∧ passage.request = .readRoom roomId

/-- The session that a section shows to be one of the subject: it has been
opened for the subject, or is found among those that are. -/
def opens (sujet : String) :
    (request : Manager.Section) → request.Reply → Option SessionId
  | .stampContext subject id _, .ok _ =>
      if subject = sujet then some id else none
  | .load subject id, .ok (some _) => if subject = sujet then some id else none
  | _, _ => none

/-- The session is one of the subject. -/
def Opened (trace : Trace parts) (sujet : String) (id : SessionId) : Prop :=
  ∃ task before process turn request answer,
    ⟨task, before, .manager process turn request, answer⟩ ∈ trace ∧
      opens sujet request answer = some id

/-- The rooms keep their subjects from one state to another. -/
def KeepsSubjects (earlier later : Bridge parts) : Prop :=
  ∀ roomId row, earlier.rooms roomId = some row →
    ∃ after, later.rooms roomId = some after ∧ after.subject = row.subject

/-- The session of a room is one of its subject. -/
def SessionsOwned (bridge : Bridge parts) (trace : Trace parts) : Prop :=
  ∀ roomId row id, bridge.rooms roomId = some row → row.session = some id →
    ∃ sujet, row.subject = some sujet ∧ Opened trace sujet id

/-- Since a message read the row that it writes, the row has been written for
its subject only. -/
def Undisputed (before : Trace parts) (passage : Passage parts) : Prop :=
  ∀ roomId row, wrote passage = some (roomId, row) →
    ∀ later read earlier, before = later ++ read :: earlier →
      ReadsRoom passage.task roomId read →
      ∀ past ∈ later, ∀ other, wrote past = some (roomId, other) →
        other.subject = row.subject

inductive RoomStage where
  | calm
  | arrived (roomId : String)
  | named (roomId sujet : String)
  | owner (roomId sujet : String) (opened : List SessionId)

namespace RoomStage

/-- A row is written for the subject of the message, with a session of it. -/
def Writes (roomId sujet : String) (opened : List SessionId) (other : String)
    (row : RoomRow) : Prop :=
  other = roomId ∧ row.subject = some sujet ∧
    ∀ id, row.session = some id → id ∈ opened

def Allows : RoomStage → Request → Prop
  | .owner roomId sujet opened, .updateRoom other row =>
      Writes roomId sujet opened other row
  | .owner roomId sujet opened, .insertRoom other row =>
      Writes roomId sujet opened other row
  | .named roomId _, .readRoom other => other = roomId
  | _, .updateRoom _ _ | _, .insertRoom _ _ | _, .readRoom _ => False
  | _, _ => True

def next : RoomStage → (request : Request) → request.Reply → RoomStage
  | .arrived roomId, .resolveLink _, .ok (some sujet) => .named roomId sujet
  | .named roomId sujet, .readRoom _, .ok row =>
      if (row.bind RoomRow.subject).all fun found => found = sujet then
        .owner roomId sujet []
      else .calm
  | .named _ _, .readRoom _, .error _ => .calm
  | .owner roomId sujet opened, .manager _ _ request, answer =>
      .owner roomId sujet ((opens sujet request answer).toList ++ opened)
  | stage, _, _ => stage

end RoomStage

/-- The stages of the messages of rooms. -/
def roomMessages : Protocol Call Request Request.Reply (Except String Unit)
    RoomStage where
  start
    | .deliver _ _ message => .arrived message.roomId
    | _ => .calm
  allows := RoomStage.Allows
  next := RoomStage.next
  ends _ _ _ := True

/-- The requests that are not on the row of a room. -/
def Request.Elsewhere : Request → Prop
  | .updateRoom _ _ | .insertRoom _ _ | .readRoom _ => False
  | _ => True

/-- Those of them that do not name the subject of a message either. -/
def Request.Nameless : Request → Prop
  | .resolveLink _ => False
  | request => request.Elsewhere

theorem RoomStage.allows_elsewhere {stage : RoomStage} {request : Request}
    (elsewhere : request.Elsewhere) : stage.Allows request := by
  cases request with
  | updateRoom roomId row => exact elsewhere.elim
  | insertRoom roomId row => exact elsewhere.elim
  | readRoom roomId => exact elsewhere.elim
  | _ => cases stage <;> trivial

/-- The message is of the subject, in a room of it, and has opened these
sessions. -/
def Within (roomId sujet : String) (ids : List SessionId)
    (stage : RoomStage) : Prop :=
  ∃ opened, stage = .owner roomId sujet opened ∧ ∀ id ∈ ids, id ∈ opened

section Within

variable {roomId sujet : String} {ids : List SessionId} {stage : RoomStage}

theorem within_next {request : Request} (within : Within roomId sujet ids stage)
    (elsewhere : request.Elsewhere) (answer : request.Reply) :
    Within roomId sujet ids (stage.next request answer) := by
  obtain ⟨opened, rfl, members⟩ := within
  cases request with
  | updateRoom roomId row => exact elsewhere.elim
  | insertRoom roomId row => exact elsewhere.elim
  | readRoom roomId => exact elsewhere.elim
  | manager process turn request =>
      refine ⟨_, rfl, ?_⟩
      intro id member
      exact List.mem_append_right _ (members id member)
  | _ => exact ⟨opened, rfl, members⟩

theorem stays_within {α : Type} {query : Code α}
    (only : Query.Only Request.Elsewhere query) :
    Query.Stays roomMessages (Within roomId sujet ids) query :=
  Query.Only.stays only
    (fun _ _ _ elsewhere => RoomStage.allows_elsewhere elsewhere)
    fun _ _ answer within elsewhere => within_next within elsewhere answer

theorem Within.writes {id : SessionId}
    (within : Within roomId sujet ids stage) (agent : Option String)
    (member : id ∈ ids) :
    ∃ opened, stage = .owner roomId sujet opened ∧
      RoomStage.Writes roomId sujet opened roomId
        { subject := some sujet, session := some id, agent } := by
  obtain ⟨opened, rfl, members⟩ := within
  refine ⟨opened, rfl, rfl, rfl, ?_⟩
  intro other written
  cases written
  exact members id member

theorem stays_ecrireSalle {id : SessionId} {agent : Option String}
    (member : id ∈ ids) :
    Query.Stays roomMessages (Within roomId sujet ids)
      (ecrireSalle roomId sujet (some id) agent) := by
  apply Query.Stays.bind
  · intro stage within
    obtain ⟨opened, rfl, writes⟩ := within.writes agent member
    exact ⟨writes, fun _ => within⟩
  intro rows
  split
  · exact Query.Stays.pure _
  · intro stage within
    obtain ⟨opened, rfl, writes⟩ := within.writes agent member
    exact ⟨writes, fun _ => within⟩

/-- The sections of a manager for a message. -/
abbrev sections (process : ℕ) :=
  roomMessages.comap (Request.manager process none)

theorem stays_sections {α : Type} {process : ℕ} (code : Manager.Code α) :
    Query.Stays (sections process) (Within roomId sujet ids) code := by
  have elsewhere : ∀ request,
      (Request.manager process none request).Elsewhere := fun _ => trivial
  exact Query.Only.stays (Script.only_of_all elsewhere code)
    (fun _ _ _ elsewhere => RoomStage.allows_elsewhere elsewhere)
    fun _ _ answer within elsewhere => within_next within elsewhere answer

theorem sections_then {α β : Type} {process : ℕ} {code : Manager.Code α}
    {next : α → Manager.Code β} {ends : RoomStage → Except LymailleError β → Prop}
    (within : Within roomId sujet ids stage)
    (after : ∀ stage value, Within roomId sujet ids stage →
      Script.Obeys (sections process) (next value) stage ends)
    (fails : ∀ stage error, Within roomId sujet ids stage →
      ends stage (.error error)) :
    Script.Obeys (sections process) (code >>= next : Manager.Code β) stage
      ends := by
  apply Query.obeys_bind
  apply (stays_sections code stage within).mono
  intro reached result inside
  cases result with
  | ok value => exact after reached value inside
  | error error => exact fails reached error inside

/-- The sessions that a message has opened once a call has answered it. -/
def answered (ids : List SessionId) :
    Except LymailleError SessionHandle → List SessionId
  | .ok anse => anse.id :: ids
  | .error _ => ids

theorem within_of_opens (process : ℕ) {request : Manager.Section}
    {answer : request.Reply} {id : SessionId}
    (within : Within roomId sujet ids stage)
    (shows : opens sujet request answer = some id) :
    Within roomId sujet (id :: ids)
      (stage.next (.manager process none request) answer) := by
  obtain ⟨opened, rfl, members⟩ := within
  refine ⟨_, rfl, ?_⟩
  rw [shows]
  intro other member
  rcases List.mem_cons.mp member with rfl | old
  · exact List.mem_cons_self
  · exact List.mem_cons_of_mem _ (members other old)

theorem open_obeys {process limit : ℕ} {contexte : String}
    {agent : Option String} (within : Within roomId sujet ids stage) :
    Script.Obeys (sections process)
      (Manager.open_ limit sujet contexte agent) stage
      fun after result => Within roomId sujet (answered ids result) after := by
  have fails : ∀ stage error, Within roomId sujet ids stage →
      Within roomId sujet (answered ids (.error error)) stage :=
    fun _ _ inside => inside
  apply sections_then within _ fails
  intro stage caller within
  apply sections_then within _ fails
  intro stage start within
  apply sections_then within _ fails
  intro stage counted within
  apply sections_then within _ fails
  intro stage versions within
  apply sections_then within _ fails
  intro stage id within
  apply sections_then within _ fails
  intro stage createdAt within
  apply sections_then within _ fails
  intro stage saved within
  have elsewhere : (Request.manager process none
      (.stampContext sujet id contexte)).Elsewhere := trivial
  refine ⟨RoomStage.allows_elsewhere elsewhere, fun stamped => ?_⟩
  cases stamped with
  | error panne => exact within_next within elsewhere _
  | ok _ =>
      have shows : opens sujet (.stampContext sujet id contexte) (.ok ()) =
          some id := if_pos rfl
      have owned := within_of_opens process within shows
      have fails : ∀ stage error, Within roomId sujet (id :: ids) stage →
          Within roomId sujet (answered ids (.error error)) stage := by
        intro stage error inside
        obtain ⟨opened, same, members⟩ := inside
        exact ⟨opened, same, fun other member =>
          members other (List.mem_cons_of_mem _ member)⟩
      apply sections_then owned _ fails
      intro stage registered within
      apply sections_then within _ fails
      intro stage entry within
      exact within

theorem resume_obeys {process : ℕ} {id : SessionId}
    (within : Within roomId sujet ids stage) :
    Script.Obeys (sections process) (Manager.resume sujet id) stage
      fun after result => Within roomId sujet (answered ids result) after := by
  have fails : ∀ stage error, Within roomId sujet ids stage →
      Within roomId sujet (answered ids (.error error)) stage :=
    fun _ _ inside => inside
  apply sections_then within _ fails
  intro stage caller within
  have elsewhere : (Request.manager process none
      (.load sujet id)).Elsewhere := trivial
  refine ⟨RoomStage.allows_elsewhere elsewhere, fun loaded => ?_⟩
  match loaded with
  | .error error => exact within_next within elsewhere _
  | .ok none => exact within_next within elsewhere _
  | .ok (some state) =>
      have shows : opens sujet (.load sujet id) (.ok (some state)) =
          some id := if_pos rfl
      have owned := within_of_opens process within shows
      have fails : ∀ stage error, Within roomId sujet (id :: ids) stage →
          Within roomId sujet (answered ids (.error error)) stage := by
        intro stage error inside
        obtain ⟨opened, same, members⟩ := inside
        exact ⟨opened, same, fun other member =>
          members other (List.mem_cons_of_mem _ member)⟩
      apply sections_then owned _ fails
      intro stage column within
      cases column with
      | none => exact fails _ _ within
      | some context =>
          apply sections_then within _ fails
          intro stage assembled within
          apply sections_then within _ fails
          intro stage registered within
          apply sections_then within _ fails
          intro stage reopened within
          apply sections_then within _ fails
          intro stage entry within
          exact within

/-- From the room of the message on, the code keeps within it. -/
def Lives (roomId sujet : String) (ids : List SessionId) {α : Type}
    (query : Code α) : Prop :=
  ∀ stage, Within roomId sujet ids stage →
    Script.Obeys roomMessages query stage
      fun after _ => Within roomId sujet [] after

theorem Within.forget (within : Within roomId sujet ids stage) :
    Within roomId sujet [] stage :=
  within.imp fun _ inside => ⟨inside.1, nofun⟩

theorem Lives.of_stays {α : Type} {query : Code α}
    (stays : Query.Stays roomMessages (Within roomId sujet ids) query) :
    Lives roomId sujet ids query :=
  fun stage within => (stays stage within).mono fun _ _ => Within.forget

theorem Lives.of_only {α : Type} {query : Code α}
    (only : Query.Only Request.Elsewhere query) :
    Lives roomId sujet ids query :=
  Lives.of_stays (stays_within only)

theorem Lives.then {α β : Type} {query : Code α} {next : α → Code β}
    (stays : Query.Stays roomMessages (Within roomId sujet ids) query)
    (rest : ∀ value, Lives roomId sujet ids (next value)) :
    Lives roomId sujet ids (query >>= next) := by
  intro stage within
  apply Query.obeys_bind
  apply (stays stage within).mono
  intro reached result inside
  cases result with
  | ok value => exact rest value reached inside
  | error error => exact inside.forget

theorem Lives.opened {α : Type} {process : ℕ}
    {code : Manager.Code SessionHandle}
    {next : Except LymailleError SessionHandle → Code α}
    (obeys : ∀ stage, Within roomId sujet ids stage →
      Script.Obeys (sections process) code stage
        fun after result => Within roomId sujet (answered ids result) after)
    (rest : ∀ result, Lives roomId sujet (answered ids result) (next result)) :
    Lives roomId sujet ids (managed process code >>= next) := by
  intro stage within
  apply Query.obeys_bind
  apply Script.Obeys.bind
  apply (Script.obeys_lift (obeys stage within)).mono
  intro reached result inside
  exact rest result reached inside

theorem Lives.subscribed {process : ℕ} {abonnement : Subscription}
    {code : Code Unit} (lives : Lives roomId sujet ids code) :
    Lives roomId sujet ids (subscribed process abonnement code) := by
  intro stage within
  apply Query.obeys_bind
  apply Script.Obeys.bind
  apply (lives stage within).mono
  intro reached result inside
  have elsewhere : (Request.manager process none
      (.hub (.unsubscribe abonnement))).Elsewhere := trivial
  refine ⟨RoomStage.allows_elsewhere elsewhere, fun answer => ?_⟩
  cases result with
  | ok value => exact within_next inside elsewhere _
  | error error => exact within_next inside elsewhere _

section Messages

variable {process reads : ℕ} {message : MatrixMessage} {texte : String}

theorem elsewhere_managed {α : Type} (code : Manager.Code α) :
    Query.Only Request.Elsewhere (managed process code) :=
  only_managed (fun _ => trivial) code

theorem elsewhere_dire : Query.Only Request.Elsewhere (dire roomId texte) :=
  only_dire (fun _ _ => trivial) texte

theorem elsewhere_abonner (id : SessionId) :
    Query.Only Request.Elsewhere (abonner process sujet id) :=
  only_abonner (fun _ => trivial) id

theorem elsewhere_collecte {eventId : String} (abonnement : Subscription) :
    Query.Only Request.Elsewhere
      (collecte process abonnement roomId eventId reads) :=
  only_collecte (fun _ _ => trivial) trivial trivial reads

theorem lives_ouvrirALaDemande :
    Lives message.roomId sujet ids
      (ouvrirALaDemande config process reads sujet message) := by
  apply Lives.then
    (stays_within (@only_ask _ (.resolveRoom message.roomId) trivial))
  intro contexte
  cases contexte with
  | none => exact Lives.of_only elsewhere_dire
  | some contexte =>
      apply Lives.opened fun stage within => open_obeys within
      intro anse
      cases anse with
      | error erreur => exact Lives.of_only elsewhere_dire
      | ok anse =>
          apply Lives.then (stays_ecrireSalle List.mem_cons_self)
          intro _
          apply Lives.then (stays_within (elsewhere_abonner _))
          intro abonnement
          apply Lives.subscribed
          apply Lives.of_only
          apply Query.Only.bind (elsewhere_managed _)
          intro result
          apply Query.Only.bind (.done _)
          intro _
          exact elsewhere_collecte abonnement

theorem lives_texteLibre (session : Option SessionId) :
    Lives message.roomId sujet ids
      (texteLibre config process reads sujet session message) := by
  cases session with
  | none => exact lives_ouvrirALaDemande
  | some id =>
      apply Lives.then (stays_within (elsewhere_abonner _))
      intro abonnement
      apply Lives.subscribed
      apply Lives.then (stays_within (elsewhere_managed _))
      intro sent
      match sent with
      | .ok () => exact Lives.of_only (elsewhere_collecte abonnement)
      | .error erreur =>
          cases erreur with
          | notFound text =>
              apply Lives.then (stays_within (elsewhere_managed _))
              intro resumed
              cases resumed with
              | error erreur => exact lives_ouvrirALaDemande
              | ok anse =>
                  apply Lives.then (stays_within (elsewhere_managed _))
                  intro again
                  match again with
                  | .ok () =>
                      exact Lives.of_only (elsewhere_collecte abonnement)
                  | .error erreur =>
                      cases erreur <;> exact Lives.of_only elsewhere_dire
          | _ => exact Lives.of_only elsewhere_dire

theorem lives_nouvelleSession (reste : String) (session : Option SessionId) :
    Lives roomId sujet ids
      (nouvelleSession config process sujet roomId reste session) := by
  apply Lives.then
  · apply stays_within
    unfold contexteNouveau
    split
    · exact .pure _
    apply Query.Only.bind
    · cases session with
      | none => exact .pure _
      | some id => exact only_demand trivial _
    intro ferme
    cases ferme with
    | none => exact only_ask trivial
    | some contexte => exact .pure _
  intro contexte
  apply Lives.then
  · apply stays_within
    cases session with
    | none => exact .pure _
    | some id => exact Query.Only.bind (elsewhere_managed _) fun _ => .pure _
  intro _
  cases contexte with
  | none => exact Lives.of_only elsewhere_dire
  | some contexte =>
      apply Lives.opened fun stage within => open_obeys within
      intro anse
      cases anse with
      | error erreur => exact Lives.of_only elsewhere_dire
      | ok anse =>
          apply Lives.then (stays_ecrireSalle List.mem_cons_self)
          intro _
          exact Lives.of_only elsewhere_dire

theorem lives_reprendre (session : Option SessionId) :
    Lives roomId sujet ids (reprendre process sujet roomId session) := by
  cases session with
  | none => exact Lives.of_only elsewhere_dire
  | some id =>
      apply Lives.opened fun stage within => resume_obeys within
      intro anse
      cases anse with
      | error erreur => exact Lives.of_only elsewhere_dire
      | ok anse =>
          apply Lives.then (stays_ecrireSalle List.mem_cons_self)
          intro _
          exact Lives.of_only elsewhere_dire

theorem lives_commander {body : List Char} {appelant : CallerPrincipal}
    (session : Option SessionId) :
    Lives message.roomId sujet ids
      (commander config process reads message body sujet appelant session) := by
  unfold commander
  split
  · dsimp only
    split
    · exact Lives.of_only elsewhere_dire
    split
    · exact lives_nouvelleSession _ session
    split
    · exact Lives.of_only (only_annuler (fun _ _ => trivial) fun _ => trivial)
    split
    · exact lives_reprendre session
    split
    · exact Lives.of_only (only_activer (fun _ _ => trivial) trivial)
    · exact Lives.of_only (.pure _)
  · exact lives_texteLibre session

theorem lireSalle_obeys :
    Script.Obeys roomMessages (lireSalle config roomId) (.named roomId sujet)
      fun after result => ∀ salle, result = .ok salle →
        (∀ found ∈ salle, found.sujet = sujet) →
        after = .owner roomId sujet [] := by
  refine ⟨rfl, fun read => ?_⟩
  cases read with
  | error panne => exact nofun
  | ok row =>
      intro salle same free
      cases same
      apply if_pos
      rw [Option.all_eq_true]
      intro subject found
      obtain ⟨row, rfl, named⟩ := Option.bind_eq_some_iff.mp found
      rw [decide_eq_true_eq]
      apply free ⟨subject, row.session.bind config.sessionId⟩
      simp [named]

theorem recevoir_obeys {body : List Char} {appelant : CallerPrincipal} :
    Script.Obeys roomMessages
      (recevoir config process reads message body sujet appelant)
      (.named message.roomId sujet) fun _ _ => True := by
  have free : ∀ session,
      Script.Obeys roomMessages
        (commander config process reads message body sujet appelant session)
        (.owner message.roomId sujet []) fun _ _ => True := by
    intro session
    have within : Within message.roomId sujet []
        (.owner message.roomId sujet []) := ⟨[], rfl, nofun⟩
    exact (lives_commander session _ within).mono fun _ _ _ => trivial
  have taken : ∀ stage, Script.Obeys roomMessages
      (do
        let premiere ← ask (.warn process message.roomId)
        if premiere then dire message.roomId ROOM_TAKEN else return () :
          Code Unit) stage fun _ _ => True := by
    intro stage
    have warns : (Request.warn process message.roomId).Elsewhere := trivial
    have tells : (Request.send message.roomId ROOM_TAKEN none).Elsewhere :=
      trivial
    refine ⟨RoomStage.allows_elsewhere warns, fun premiere => ?_⟩
    cases premiere with
    | false => trivial
    | true => exact ⟨RoomStage.allows_elsewhere tells, fun _ => trivial⟩
  apply Query.obeys_bind
  apply lireSalle_obeys.mono
  intro stage result reached
  match result with
  | .error panne => trivial
  | .ok none =>
      rw [reached none rfl nofun]
      exact free none
  | .ok (some salle) =>
      dsimp only
      split
      · exact taken stage
      · rename_i same
        rw [not_not] at same
        rw [reached _ rfl (by simp [same])]
        exact free salle.session

/-- What is asked before the row of a room stays at any stage but that of a
message without a name. -/
theorem obeys_of_nameless {α : Type} {query : Code α}
    (only : Query.Only Request.Nameless query) (stage : RoomStage)
    (unnamed : stage = .calm ∨ ∃ roomId, stage = .arrived roomId ∨
      ∃ sujet, stage = .named roomId sujet) :
    Script.Obeys roomMessages query stage fun after _ => after = stage := by
  have elsewhere : ∀ request : Request, request.Nameless →
      request.Elsewhere := by
    intro request nameless
    cases request with
    | resolveLink mxid => exact nameless.elim
    | _ => exact nameless
  apply Script.Only.obeys only
  · intro request nameless
    exact RoomStage.allows_elsewhere (elsewhere request nameless)
  · intro request nameless answer
    rcases unnamed with rfl | ⟨roomId, rfl | ⟨sujet, rfl⟩⟩
    · rfl
    · cases request with
      | resolveLink mxid => exact nameless.elim
      | _ => rfl
    · cases request with
      | readRoom other => exact nameless.elim
      | _ => rfl

theorem traiter_obeys {nowMs : ℕ} :
    Script.Obeys roomMessages (traiter config process reads message nowMs)
      (.arrived message.roomId) fun _ _ => True := by
  have invited : ∀ stage, (stage = .arrived message.roomId ∨
      ∃ sujet, stage = .named message.roomId sujet) →
      Script.Obeys roomMessages (inviter process message.roomId nowMs) stage
        fun _ _ => True := by
    intro stage unnamed
    have only : Query.Only Request.Nameless
        (inviter process message.roomId nowMs) :=
      only_inviter (fun _ _ => trivial) trivial
    apply (obeys_of_nameless only stage (Or.inr ⟨_, unnamed⟩)).mono
    exact fun _ _ _ => trivial
  unfold traiter
  dsimp only
  split
  · have only : ∀ code, Query.Only Request.Nameless
        (liaison message.roomId message.sender code) :=
      fun code => only_liaison (fun _ _ => trivial) trivial fun _ => trivial
    apply (obeys_of_nameless (only _) _ (Or.inr ⟨_, Or.inl rfl⟩)).mono
    exact fun _ _ _ => trivial
  refine ⟨trivial, fun linked => ?_⟩
  match linked with
  | .error erreur => trivial
  | .ok none => exact invited _ (Or.inl rfl)
  | .ok (some sujet) =>
      refine ⟨trivial, fun appelant => ?_⟩
      cases appelant with
      | error erreur => exact invited _ (Or.inr ⟨sujet, rfl⟩)
      | ok appelant => exact recevoir_obeys

end Messages

theorem messages_obey (call : Call) :
    (program config call).Obeys roomMessages (roomMessages.start call)
      (roomMessages.ends call) := by
  cases call with
  | deliver process reads message =>
      have arrived : ∀ {α : Type} {query : Code α},
          Query.Only Request.Nameless query →
          Script.Obeys roomMessages query (.arrived message.roomId)
            fun after _ => after = .arrived message.roomId :=
        fun only => obeys_of_nameless only _ (Or.inr ⟨_, Or.inl rfl⟩)
      have marks : ∀ nowMs, Query.Only Request.Nameless
          (marquerVu message.eventId nowMs) :=
        fun nowMs => only_marquerVu trivial fun _ => trivial
      show Script.Obeys roomMessages (dispatcher config process reads message)
        (.arrived message.roomId) fun _ _ => True
      unfold dispatcher
      split
      · trivial
      refine ⟨trivial, fun nowMs => ?_⟩
      apply Query.obeys_bind
      apply (arrived (marks nowMs)).mono
      intro stage nouveau same
      subst same
      match nouveau with
      | .error erreur => trivial
      | .ok false => trivial
      | .ok true =>
          apply Query.obeys_bind
          apply (arrived (only_purgeOpportune trivial (fun _ _ => trivial)
            trivial (fun _ => trivial) fun _ => trivial)).mono
          intro stage purged same
          subst same
          cases purged with
          | error erreur => trivial
          | ok _ =>
              dsimp only
              split
              · trivial
              · exact ⟨trivial, fun _ => traiter_obeys⟩
  | manager process call =>
      have only : (program config (.manager process call)).Only
          Request.Nameless := by
        apply Script.Only.bind (Script.only_lift _ (fun _ => trivial) _)
        intro answer
        trivial
      exact (obeys_of_nameless only .calm (Or.inl rfl)).mono
        fun _ _ _ => trivial
  | listen process reads subject id =>
      have only : Query.Only Request.Nameless
          (ecouter process reads subject id) := by
        apply Query.Only.bind (only_abonner (fun _ => trivial) _)
        intro abonnement
        exact only_subscribed trivial (only_lireEvenements trivial reads)
      exact (obeys_of_nameless only .calm (Or.inl rfl)).mono
        fun _ _ _ => trivial

end Within

end MiryadCore.Chat.Bridging
