import MiryadCore.Chat.BridgeRequests

/-!
# Events handled once

An event is handled by the delivery that marks it, if it is recent by the
clock that this delivery has read.  A row of the events seen may be purged
while its event still is recent, for its timestamp is the sender's.
-/

namespace MiryadCore.Chat.Bridging

open Interactive Code

variable {parts : Parts} {config : ChatConfig}

/-- The delivery of the message reads its clock. -/
def Clocked (trace : Trace parts) (task : ℕ) (message : MatrixMessage)
    (nowMs : ℕ) : Prop :=
  ∃ before, ⟨task, before, .clock message, nowMs⟩ ∈ trace

/-- The task marks the event, successfully or not. -/
def Marked (trace : Trace parts) (task : ℕ) (eventId : String) : Prop :=
  ∃ before seenAt answer,
    ⟨task, before, .markSeen eventId seenAt, answer⟩ ∈ trace

/-- The task marks the event, which was not marked. -/
def Claimed (trace : Trace parts) (task : ℕ) (eventId : String) : Prop :=
  ∃ before seenAt rows, 0 < rows ∧
    ⟨task, before, .markSeen eventId seenAt, .ok rows⟩ ∈ trace

/-- The message is not history for a clock. -/
def Recent (config : ChatConfig) (message : MatrixMessage) (nowMs : ℕ) : Prop :=
  nowMs - message.timestampMs ≤ min config.maxEventAge (2 ^ 64 - 1)

/-- What is read on the clock, in milliseconds. -/
def reading : Passage parts → Option ℤ
  | ⟨_, _, .clock _, nowMs⟩ => some (nowMs : ℕ)
  | ⟨_, _, .utcNow, now⟩ => some ((now : ℤ) / (nanosPerMilli : ℤ))
  | _ => none

/-- The clock has been read past the age of the message. -/
def Passed (config : ChatConfig) (trace : Trace parts)
    (message : MatrixMessage) : Prop :=
  ∃ past ∈ trace, ∃ instant, reading past = some instant ∧
    (message.timestampMs : ℤ) + min config.maxEventAge (2 ^ 64 - 1) < instant

def handles (eventId : String) : Passage parts → Bool
  | ⟨_, _, .handle message, _⟩ => decide (message.eventId = eventId)
  | _ => false

/-- No event launches two handlings. -/
def HandledOnce (trace : Trace parts) : Prop :=
  ∀ eventId, trace.countP (handles eventId) ≤ 1

/-- The clock does not go back. -/
def Onward (before : Trace parts) (passage : Passage parts) : Prop :=
  ∀ instant ∈ reading passage, ∀ past ∈ before, ∀ earlier ∈ reading past,
    earlier ≤ instant

instance (before : Trace parts) (passage : Passage parts) :
    Decidable (Onward before passage) :=
  inferInstanceAs (Decidable (∀ instant ∈ reading passage, ∀ past ∈ before,
    ∀ earlier ∈ reading past, earlier ≤ instant))

/-- An event that has no row is delivered again with no later timestamp.  A row
is only purged once the clock is past the age of each delivery of its event,
and each of them that has read its clock has marked it, or is too old for that
clock. -/
def PurgesOld (config : ChatConfig) (before : Trace parts)
    (passage : Passage parts) : Prop :=
  match passage with
  | ⟨_, s, .clock message, _⟩ =>
      s.seen message.eventId = none →
        ∀ task other nowMs, Clocked before task other nowMs →
          other.eventId = message.eventId →
          message.timestampMs ≤ other.timestampMs
  | ⟨_, s, .deleteSeen cutoff, .ok _⟩ =>
      ∀ task message nowMs, Clocked before task message nowMs →
        (∃ seenAt, s.seen message.eventId = some seenAt ∧ seenAt < cutoff) →
        Passed config before message ∧
          (Marked before task message.eventId ∨
            ¬ Recent config message nowMs)
  | _ => True

inductive Stage where
  | calm
  | arrived (message : MatrixMessage)
  | clocked (message : MatrixMessage) (nowMs : ℕ)
  | marked (message : MatrixMessage) (nowMs : ℕ)

/-- The requests that follow the handling of a message. -/
def Request.Later : Request → Prop
  | .clock _ | .markSeen _ _ | .handle _ => False
  | _ => True

namespace Stage

def Allows (config : ChatConfig) : Stage → Request → Prop
  | .arrived message, .clock other => other = message
  | .clocked message _, .markSeen eventId _ => eventId = message.eventId
  | .marked message nowMs, .handle other =>
      other = message ∧ Recent config message nowMs
  | _, request => request.Later

def next : Stage → (request : Request) → request.Reply → Stage
  | .arrived message, .clock _, nowMs => .clocked message nowMs
  | .clocked message nowMs, .markSeen _ _, .ok rows =>
      if 0 < rows then .marked message nowMs else .calm
  | .clocked _ _, .markSeen _ _, .error _ => .calm
  | .marked _ _, .handle _, _ => .calm
  | stage, _, _ => stage

end Stage

/-- The stages of the deliveries of messages. -/
def deliveries (config : ChatConfig) :
    Protocol Call Request Request.Reply (Except String Unit) Stage where
  start
    | .deliver _ _ message => .arrived message
    | _ => .calm
  allows := Stage.Allows config
  next := Stage.next
  ends _ _ _ := True

theorem allows_later {stage : Stage} {request : Request}
    (later : request.Later) : stage.Allows config request := by
  cases request with
  | clock message => exact later.elim
  | markSeen eventId seenAt => exact later.elim
  | handle message => exact later.elim
  | _ => cases stage <;> trivial

theorem next_later {stage : Stage} {request : Request} (later : request.Later)
    (answer : request.Reply) : stage.next request answer = stage := by
  cases request with
  | clock message => exact later.elim
  | markSeen eventId seenAt => exact later.elim
  | handle message => exact later.elim
  | _ => cases stage <;> rfl

section Later

variable {process reads : ℕ} {roomId eventId sujet : String}
  {message : MatrixMessage}

theorem later_collecte (abonnement : Subscription) :
    Query.Only Request.Later
      (collecte process abonnement roomId eventId reads) :=
  only_collecte (fun _ _ => trivial) trivial trivial reads

theorem later_ouvrirALaDemande :
    Query.Only Request.Later
      (ouvrirALaDemande config process reads sujet message) := by
  apply Query.Only.bind (only_ask trivial)
  intro contexte
  cases contexte with
  | none => exact only_dire (fun _ _ => trivial) _
  | some contexte =>
      apply Query.Only.bind (only_managed (fun _ => trivial) _)
      intro anse
      cases anse with
      | error erreur => exact only_dire (fun _ _ => trivial) _
      | ok anse =>
          apply Query.Only.bind
            (only_ecrireSalle (fun _ => trivial) fun _ => trivial)
          intro _
          apply Query.Only.bind (only_abonner (fun _ => trivial) _)
          intro abonnement
          apply only_subscribed trivial
          apply Query.Only.bind (only_managed (fun _ => trivial) _)
          intro result
          apply Query.Only.bind (.done _)
          intro _
          exact later_collecte abonnement

theorem later_texteLibre (session : Option SessionId) :
    Query.Only Request.Later
      (texteLibre config process reads sujet session message) := by
  cases session with
  | none => exact later_ouvrirALaDemande
  | some id =>
      apply Query.Only.bind (only_abonner (fun _ => trivial) _)
      intro abonnement
      apply only_subscribed trivial
      apply Query.Only.bind (only_managed (fun _ => trivial) _)
      intro sent
      match sent with
      | .ok () => exact later_collecte abonnement
      | .error erreur =>
          cases erreur with
          | notFound text =>
              apply Query.Only.bind (only_managed (fun _ => trivial) _)
              intro resumed
              cases resumed with
              | error erreur => exact later_ouvrirALaDemande
              | ok anse =>
                  apply Query.Only.bind (only_managed (fun _ => trivial) _)
                  intro again
                  match again with
                  | .ok () => exact later_collecte abonnement
                  | .error erreur =>
                      cases erreur <;> exact only_dire (fun _ _ => trivial) _
          | _ => exact only_dire (fun _ _ => trivial) _

theorem later_nouvelleSession (reste : String) (session : Option SessionId) :
    Query.Only Request.Later
      (nouvelleSession config process sujet roomId reste session) := by
  apply Query.Only.bind
  · unfold contexteNouveau
    split
    · exact .pure _
    apply Query.Only.bind
    · cases session with
      | none => exact .pure _
      | some id => exact only_demand trivial _
    intro ferme
    cases ferme with
    | none => exact only_ask trivial
    | some contexte => exact .pure _
  intro contexte
  apply Query.Only.bind
  · cases session with
    | none => exact .pure _
    | some id =>
        exact Query.Only.bind (only_managed (fun _ => trivial) _)
          fun _ => .pure _
  intro _
  cases contexte with
  | none => exact only_dire (fun _ _ => trivial) _
  | some contexte =>
      apply Query.Only.bind (only_managed (fun _ => trivial) _)
      intro anse
      cases anse with
      | error erreur => exact only_dire (fun _ _ => trivial) _
      | ok anse =>
          apply Query.Only.bind
            (only_ecrireSalle (fun _ => trivial) fun _ => trivial)
          intro _
          exact only_dire (fun _ _ => trivial) _

theorem later_reprendre (session : Option SessionId) :
    Query.Only Request.Later (reprendre process sujet roomId session) := by
  cases session with
  | none => exact only_dire (fun _ _ => trivial) _
  | some id =>
      apply Query.Only.bind (only_managed (fun _ => trivial) _)
      intro anse
      cases anse with
      | error erreur => exact only_dire (fun _ _ => trivial) _
      | ok anse =>
          apply Query.Only.bind
            (only_ecrireSalle (fun _ => trivial) fun _ => trivial)
          intro _
          exact only_dire (fun _ _ => trivial) _

theorem later_commander {body : List Char} {appelant : CallerPrincipal}
    (session : Option SessionId) :
    Query.Only Request.Later
      (commander config process reads message body sujet appelant session) := by
  unfold commander
  split
  · dsimp only
    split
    · exact only_dire (fun _ _ => trivial) _
    split
    · exact later_nouvelleSession _ session
    split
    · exact only_annuler (fun _ _ => trivial) fun _ => trivial
    split
    · exact later_reprendre session
    split
    · exact only_activer (fun _ _ => trivial) trivial
    · exact .pure _
  · exact later_texteLibre session

theorem later_recevoir {body : List Char} {appelant : CallerPrincipal} :
    Query.Only Request.Later
      (recevoir config process reads message body sujet appelant) := by
  apply Query.Only.bind (only_lireSalle trivial)
  intro salle
  cases salle with
  | none => exact later_commander none
  | some salle =>
      dsimp only
      split
      · apply Query.Only.bind (only_ask trivial)
        intro premiere
        split
        · exact only_dire (fun _ _ => trivial) _
        · exact .pure _
      · exact later_commander salle.session

theorem later_traiter {nowMs : ℕ} :
    Query.Only Request.Later
      (traiter config process reads message nowMs) := by
  unfold traiter
  dsimp only
  split
  · exact only_liaison (fun _ _ => trivial) trivial fun _ => trivial
  apply Query.Only.bind (only_ask trivial)
  intro linked
  apply Query.Only.bind (.done _)
  intro sujet
  cases sujet with
  | none => exact only_inviter (fun _ _ => trivial) trivial
  | some sujet =>
      apply Query.Only.bind (only_ask trivial)
      intro appelant
      cases appelant with
      | ok appelant => exact later_recevoir
      | error erreur => exact only_inviter (fun _ _ => trivial) trivial

theorem later_program {call : Call}
    (other : ∀ process reads message, call ≠ .deliver process reads message) :
    (program config call).Only Request.Later := by
  cases call with
  | deliver process reads message => exact (other _ _ _ rfl).elim
  | manager process call =>
      apply Script.Only.bind (Script.only_lift _ (fun _ => trivial) _)
      intro answer
      trivial
  | listen process reads subject id =>
      apply Query.Only.bind (only_abonner (fun _ => trivial) _)
      intro abonnement
      exact only_subscribed trivial (only_lireEvenements trivial reads)

end Later

theorem obeys_of_later {α : Type} {query : Code α} (stage : Stage)
    (later : Query.Only Request.Later query) :
    Script.Obeys (deliveries config) query stage
      fun after _ => after = stage :=
  Script.Only.obeys later (fun _ inside => allows_later inside)
    fun _ inside answer => next_later inside answer

theorem marquerVu_obeys (message : MatrixMessage) (nowMs : ℕ) :
    Script.Obeys (deliveries config) (marquerVu message.eventId nowMs)
      (.clocked message nowMs) fun stage result =>
        result = .ok true → stage = .marked message nowMs := by
  have later : Query.Only Request.Later (instantVu nowMs) :=
    only_instantVu trivial
  apply Query.obeys_bind
  apply (obeys_of_later _ later).mono
  intro stage vu same
  subst same
  cases vu with
  | error erreur => exact nofun
  | ok vu =>
      refine ⟨rfl, fun answer => ?_⟩
      cases answer with
      | error panne => exact nofun
      | ok rows =>
          intro marked
          have some : 0 < rows := of_decide_eq_true (Except.ok.inj marked)
          exact if_pos some

theorem dispatcher_obeys (process reads : ℕ) (message : MatrixMessage) :
    Script.Obeys (deliveries config) (dispatcher config process reads message)
      (.arrived message) fun _ _ => True := by
  unfold dispatcher
  split
  · trivial
  refine ⟨rfl, fun nowMs => ?_⟩
  apply Query.obeys_bind
  apply (marquerVu_obeys message nowMs).mono
  intro stage nouveau reached
  match nouveau with
  | .error erreur => trivial
  | .ok false => trivial
  | .ok true =>
      rw [reached rfl]
      apply Query.obeys_bind
      apply (obeys_of_later _ (only_purgeOpportune trivial (fun _ _ => trivial)
        trivial (fun _ => trivial) fun _ => trivial)).mono
      intro stage purged same
      subst same
      cases purged with
      | error erreur => trivial
      | ok _ =>
          dsimp only
          split
          · trivial
          rename_i recent
          refine ⟨⟨rfl, Nat.not_lt.mp recent⟩, fun _ => ?_⟩
          exact (obeys_of_later .calm later_traiter).mono fun _ _ _ => trivial

theorem program_obeys (call : Call) :
    (program config call).Obeys (deliveries config)
      ((deliveries config).start call) ((deliveries config).ends call) := by
  cases call with
  | deliver process reads message => exact dispatcher_obeys process reads message
  | manager process call =>
      exact (obeys_of_later .calm (later_program fun _ _ _ same => by cases same)).mono
        fun _ _ _ => trivial
  | listen process reads subject id =>
      exact (obeys_of_later .calm (later_program fun _ _ _ same => by cases same)).mono
        fun _ _ _ => trivial

/-- The delivery marks its event first, and finds it recent. -/
def Claims (config : ChatConfig) (trace : Trace parts) (task : ℕ)
    (message : MatrixMessage) : Prop :=
  ∃ nowMs, Clocked trace task message nowMs ∧ Recent config message nowMs ∧
    Claimed trace task message.eventId

/-- No delivery that is yet to mark the event would find it recent. -/
def Forgotten (config : ChatConfig) (trace : Trace parts)
    (message : MatrixMessage) : Prop :=
  Passed config trace message ∧ ∀ task other nowMs,
    Clocked trace task other nowMs → other.eventId = message.eventId →
    Marked trace task other.eventId ∨ ¬ Recent config other nowMs

structure Good (config : ChatConfig) (seen : String → Option ℤ)
    (trace : Trace parts) : Prop where
  alone : ∀ {task other message later}, Claims config trace task message →
    Claims config trace other later → message.eventId = later.eventId →
    task = other
  stands : ∀ {task message}, Claims config trace task message →
    seen message.eventId ≠ none ∨ Forgotten config trace message
  handled : ∀ passage ∈ trace, ∀ eventId, handles eventId passage = true →
    ∃ message, message.eventId = eventId ∧
      Claims config trace passage.task message
  once : HandledOnce trace

section Growth

variable {trace : Trace parts} {task other : ℕ} {before : Bridge parts}
  {request asked : Request} {answer : request.Reply}
  {passage : Passage parts} {message : MatrixMessage} {nowMs : ℕ}
  {eventId : String}

theorem Clocked.cons (clocked : Clocked trace task message nowMs) :
    Clocked (passage :: trace) task message nowMs :=
  clocked.imp fun _ => List.mem_cons_of_mem _

theorem Marked.cons (marked : Marked trace task eventId) :
    Marked (passage :: trace) task eventId := by
  obtain ⟨before, seenAt, answer, member⟩ := marked
  exact ⟨before, seenAt, answer, List.mem_cons_of_mem _ member⟩

theorem Claimed.cons (claimed : Claimed trace task eventId) :
    Claimed (passage :: trace) task eventId := by
  obtain ⟨before, seenAt, rows, some, member⟩ := claimed
  exact ⟨before, seenAt, rows, some, List.mem_cons_of_mem _ member⟩

theorem Passed.cons (passed : Passed config trace message) :
    Passed config (passage :: trace) message := by
  obtain ⟨past, member, reads⟩ := passed
  exact ⟨past, List.mem_cons_of_mem _ member, reads⟩

theorem Claims.cons (claims : Claims config trace task message) :
    Claims config (passage :: trace) task message := by
  obtain ⟨nowMs, clocked, recent, claimed⟩ := claims
  exact ⟨nowMs, clocked.cons, recent, claimed.cons⟩

theorem mem_of_cons {reply : asked.Reply} {found : Bridge parts}
    (different : request ≠ asked)
    (member : (⟨other, found, asked, reply⟩ : Passage parts) ∈
      ⟨task, before, request, answer⟩ :: trace) :
    ⟨other, found, asked, reply⟩ ∈ trace := by
  rcases List.mem_cons.mp member with here | earlier
  · exact (different (congrArg Occurrence.request here).symm).elim
  · exact earlier

theorem Clocked.of_cons
    (clocked : Clocked (⟨task, before, request, answer⟩ :: trace) other message
      nowMs) (different : request ≠ .clock message) :
    Clocked trace other message nowMs :=
  clocked.imp fun _ => mem_of_cons different

theorem Claimed.of_cons
    (claimed : Claimed (⟨task, before, request, answer⟩ :: trace) other eventId)
    (different : ∀ seenAt, request ≠ .markSeen eventId seenAt) :
    Claimed trace other eventId := by
  obtain ⟨found, seenAt, rows, some, member⟩ := claimed
  exact ⟨found, seenAt, rows, some, mem_of_cons (different seenAt) member⟩

theorem Claims.of_cons
    (claims : Claims config (⟨task, before, request, answer⟩ :: trace) other
      message) (noClock : request ≠ .clock message)
    (noMark : ∀ seenAt, request ≠ .markSeen message.eventId seenAt) :
    Claims config trace other message := by
  obtain ⟨nowMs, clocked, recent, claimed⟩ := claims
  exact ⟨nowMs, clocked.of_cons noClock, recent, claimed.of_cons noMark⟩

theorem Forgotten.cons (forgotten : Forgotten config trace message)
    (noClock : ∀ other, request ≠ .clock other) :
    Forgotten config (⟨task, before, request, answer⟩ :: trace) message := by
  refine ⟨forgotten.1.cons, ?_⟩
  intro task other nowMs clocked same
  rcases forgotten.2 task other nowMs (clocked.of_cons (noClock other)) same
    with marked | old
  · exact Or.inl marked.cons
  · exact Or.inr old

theorem HandledOnce.cons (once : HandledOnce trace)
    (silent : ∀ eventId, handles eventId passage = false) :
    HandledOnce (passage :: trace) := by
  intro eventId
  rw [List.countP_cons_of_neg (by simp [silent])]
  exact once eventId

end Growth

/-- What a delivery has done at each of its stages. -/
def Own (trace : Trace parts) (task : ℕ) : Stage → Prop
  | .calm => True
  | .arrived _ =>
      ∀ passage ∈ trace, passage.task = task → passage.request.Later
  | .clocked message nowMs =>
      Clocked trace task message nowMs ∧
        ∀ passage ∈ trace, passage.task = task → passage.request.Later ∨
          ∃ before, passage = ⟨task, before, .clock message, nowMs⟩
  | .marked message nowMs =>
      Clocked trace task message nowMs ∧
        Claimed trace task message.eventId ∧
        ∀ passage ∈ trace, passage.task = task →
          ∀ eventId, handles eventId passage = false

theorem handles_later {task : ℕ} {before : Bridge parts} {request : Request}
    {answer : request.Reply} (later : request.Later) (eventId : String) :
    handles eventId ⟨task, before, request, answer⟩ = false := by
  cases request with
  | handle message => exact later.elim
  | _ => rfl

section Steps

variable {seen after : String → Option ℤ} {trace : Trace parts} {task : ℕ}
  {before : Bridge parts} {message : MatrixMessage} {nowMs : ℕ}

theorem Good.handled_cons {passage : Passage parts}
    (good : Good config seen trace)
    (silent : ∀ eventId, handles eventId passage = false) :
    ∀ past ∈ passage :: trace, ∀ eventId, handles eventId past = true →
      ∃ message, message.eventId = eventId ∧
        Claims config (passage :: trace) past.task message := by
  intro past member eventId handling
  rcases List.mem_cons.mp member with here | earlier
  · subst here
    rw [silent] at handling
    cases handling
  · obtain ⟨message, same, claims⟩ :=
      good.handled past earlier eventId handling
    exact ⟨message, same, claims.cons⟩

/-- A request after the handling, or a purge. -/
theorem Good.later {request : Request} {answer : request.Reply}
    (good : Good config seen trace) (later : request.Later)
    (forgets : ∀ message : MatrixMessage, seen message.eventId ≠ none →
      after message.eventId = none → ∀ task nowMs,
        Clocked trace task message nowMs →
        Passed config trace message ∧ (Marked trace task message.eventId ∨
          ¬ Recent config message nowMs)) :
    Good config after (⟨task, before, request, answer⟩ :: trace) := by
  have noClock : ∀ other, request ≠ .clock other := by
    intro other same
    rw [same] at later
    exact later
  have old : ∀ {other claimed},
      Claims config (⟨task, before, request, answer⟩ :: trace) other claimed →
      Claims config trace other claimed := by
    intro other claimed claims
    apply claims.of_cons (noClock claimed)
    intro seenAt same
    rw [same] at later
    exact later
  refine ⟨?_, ?_, good.handled_cons (handles_later later),
    good.once.cons (handles_later later)⟩
  · intro task other message later claims claimsLater
    exact good.alone (old claims) (old claimsLater)
  · intro task message claims
    by_cases gone : after message.eventId = none
    · right
      rcases good.stands (old claims) with present | forgotten
      · obtain ⟨nowMs, clocked, _, _⟩ := old claims
        refine ⟨(forgets message present gone _ _ clocked).1.cons, ?_⟩
        intro task other nowMs clocked same
        rw [← same] at present gone
        rcases (forgets other present gone task nowMs
          (clocked.of_cons (noClock other))).2 with marked | stale
        · exact Or.inl marked.cons
        · exact Or.inr stale
      · exact forgotten.cons noClock
    · exact Or.inl gone

/-- A delivery reads its clock: an event that was purged is too old for it. -/
theorem Good.clock (good : Good config seen trace)
    (same_seen : before.seen = seen) (fresh : Own trace task (.arrived message))
    (onward : Onward trace ⟨task, before, .clock message, nowMs⟩)
    (older : PurgesOld config trace ⟨task, before, .clock message, nowMs⟩) :
    Good config seen (⟨task, before, .clock message, nowMs⟩ :: trace) := by
  have old : ∀ {other claimed},
      Claims config (⟨task, before, .clock message, nowMs⟩ :: trace) other
        claimed → Claims config trace other claimed := by
    intro other claimed claims
    obtain ⟨later, ⟨found, member⟩, recent, claim⟩ := claims
    have claim := claim.of_cons fun _ => by simp
    rcases List.mem_cons.mp member with here | earlier
    · obtain ⟨_, _, _, _, mark⟩ := claim
      exact (fresh _ mark (congrArg Occurrence.task here)).elim
    · exact ⟨later, ⟨found, earlier⟩, recent, claim⟩
  refine ⟨?_, ?_, good.handled_cons fun _ => rfl, good.once.cons fun _ => rfl⟩
  · intro other another first second claims claimsSecond
    exact good.alone (old claims) (old claimsSecond)
  · intro other claimed claims
    by_cases present : seen claimed.eventId ≠ none
    · exact Or.inl present
    have forgotten := (good.stands (old claims)).resolve_left present
    right
    refine ⟨forgotten.1.cons, ?_⟩
    intro another later instant clocked same
    obtain ⟨found, member⟩ := clocked
    rcases List.mem_cons.mp member with here | earlier
    · right
      cases here
      obtain ⟨_, first, _, _⟩ := old claims
      have absent : before.seen message.eventId = none := by
        rw [same_seen, same]
        exact not_not.mp present
      have stamp := older absent other claimed _ first same.symm
      obtain ⟨past, member, reads, read, passed⟩ := forgotten.1
      have ordered := onward nowMs rfl past member reads read
      unfold Recent
      omega
    · rcases forgotten.2 another later instant ⟨found, earlier⟩ same with
        marked | stale
      · exact Or.inl marked.cons
      · exact Or.inr stale

/-- A delivery finds its event marked, or the database fails it. -/
theorem Good.lose {eventId : String} {seenAt : ℤ} {answer : Except String ℕ}
    (good : Good config seen trace)
    (lost : ∀ rows, answer = .ok rows → rows = 0) :
    Good config seen
      (⟨task, before, .markSeen eventId seenAt, answer⟩ :: trace) := by
  have old : ∀ {other claimed},
      Claims config
        (⟨task, before, .markSeen eventId seenAt, answer⟩ :: trace)
        other claimed → Claims config trace other claimed := by
    intro other claimed claims
    obtain ⟨later, clocked, recent, found, at_, rows, some, member⟩ := claims
    refine ⟨later, clocked.of_cons (by simp), recent, ?_⟩
    rcases List.mem_cons.mp member with here | earlier
    · cases here
      rw [lost rows rfl] at some
      exact (Nat.lt_irrefl 0 some).elim
    · exact ⟨found, at_, rows, some, earlier⟩
  refine ⟨?_, ?_, good.handled_cons fun _ => rfl, good.once.cons fun _ => rfl⟩
  · intro other another first second claims claimsSecond
    exact good.alone (old claims) (old claimsSecond)
  · intro other claimed claims
    exact (good.stands (old claims)).imp id fun forgotten =>
      forgotten.cons (by simp)

/-- A delivery marks its event: no other that is recent has. -/
theorem Good.win {seenAt : ℤ} {rows : ℕ} (good : Good config seen trace)
    (own : Own trace task (.clocked message nowMs))
    (free : seen message.eventId = none) :
    Good config (Function.update seen message.eventId (some seenAt))
      (⟨task, before, .markSeen message.eventId seenAt, .ok rows⟩ ::
        trace) := by
  obtain ⟨clock, only⟩ := own
  have cases_of : ∀ {other claimed},
      Claims config
        (⟨task, before, .markSeen message.eventId seenAt, .ok rows⟩ :: trace)
        other claimed → Claims config trace other claimed ∨
          (other = task ∧ claimed = message ∧ Recent config message nowMs) := by
    intro other claimed claims
    obtain ⟨later, clocked, recent, found, at_, some, more, member⟩ := claims
    have read := clocked.of_cons (by simp)
    rcases List.mem_cons.mp member with here | earlier
    · right
      have mine : other = task := congrArg Occurrence.task here
      rw [mine] at read
      obtain ⟨before, read⟩ := read
      rcases only _ read rfl with later | ⟨before, same⟩
      · exact later.elim
      · cases same
        exact ⟨mine, rfl, recent⟩
    · exact Or.inl ⟨later, read, recent, found, at_, some, more, earlier⟩
  have first : ∀ {other claimed}, Claims config trace other claimed →
      claimed.eventId = message.eventId → ¬ Recent config message nowMs := by
    intro other claimed claims same recent
    rcases good.stands claims with present | forgotten
    · rw [same] at present
      exact present free
    · rcases forgotten.2 task message nowMs clock same.symm with marked | stale
      · obtain ⟨before, seenAt, answer, member⟩ := marked
        rcases only _ member rfl with later | ⟨before, same⟩
        · exact later
        · cases same
      · exact stale recent
  refine ⟨?_, ?_, good.handled_cons fun _ => rfl, good.once.cons fun _ => rfl⟩
  · intro other another left right claims claimsRight same
    rcases cases_of claims with old | ⟨rfl, rfl, recent⟩
    · rcases cases_of claimsRight with oldRight | ⟨rfl, rfl, recent⟩
      · exact good.alone old oldRight same
      · exact (first old same recent).elim
    · rcases cases_of claimsRight with oldRight | ⟨rfl, rfl, _⟩
      · exact (first oldRight same.symm recent).elim
      · rfl
  · intro other claimed claims
    by_cases same : claimed.eventId = message.eventId
    · rw [same, Function.update_self]
      exact Or.inl nofun
    · rw [Function.update_of_ne same]
      rcases cases_of claims with old | ⟨_, rfl, _⟩
      · exact (good.stands old).imp id fun forgotten =>
          forgotten.cons (by simp)
      · exact (same rfl).elim

/-- A message is handled by the only delivery that may. -/
theorem Good.handle (good : Good config seen trace)
    (own : Own trace task (.marked message nowMs))
    (recent : Recent config message nowMs) :
    Good config seen (⟨task, before, .handle message, ()⟩ :: trace) := by
  obtain ⟨clocked, claimed, unhandled⟩ := own
  have mine : Claims config trace task message :=
    ⟨nowMs, clocked, recent, claimed⟩
  have old : ∀ {other claimed},
      Claims config (⟨task, before, .handle message, ()⟩ :: trace) other
        claimed → Claims config trace other claimed :=
    fun claims => claims.of_cons (by simp) (by simp)
  refine ⟨?_, ?_, ?_, ?_⟩
  · intro other another first second claims claimsSecond
    exact good.alone (old claims) (old claimsSecond)
  · intro other claimed claims
    exact (good.stands (old claims)).imp id fun forgotten =>
      forgotten.cons (by simp)
  · intro past member eventId handling
    rcases List.mem_cons.mp member with here | earlier
    · subst here
      exact ⟨message, of_decide_eq_true handling, mine.cons⟩
    · obtain ⟨other, same, claims⟩ :=
        good.handled past earlier eventId handling
      exact ⟨other, same, claims.cons⟩
  · intro eventId
    by_cases same : message.eventId = eventId
    · have none : trace.countP (handles eventId) = 0 := by
        rw [List.countP_eq_zero]
        intro past member handling
        obtain ⟨other, event, claims⟩ :=
          good.handled past member eventId handling
        have own := good.alone claims mine (event.trans same.symm)
        rw [unhandled past member own eventId] at handling
        cases handling
      rw [List.countP_cons, none]
      split <;> omega
    · have silent : handles eventId
          (⟨task, before, .handle message, ()⟩ : Passage parts) = false :=
        decide_eq_false same
      rw [List.countP_cons_of_neg (by simp [silent])]
      exact good.once eventId

end Steps

theorem seen_of_updateRoom {bridge later : Bridge parts} {roomId : String}
    {row : RoomRow} {rows : ℕ}
    (updated : bridge.updateRoom roomId row = .ok (rows, later)) :
    later.seen = bridge.seen := by
  unfold Bridge.updateRoom at updated
  split at updated
  · cases updated
    rfl
  · cases updated
    rfl

theorem seen_of_insertRoom {bridge later : Bridge parts} {roomId : String}
    {row : RoomRow} (inserted : bridge.insertRoom roomId row = .ok ((), later)) :
    later.seen = bridge.seen := by
  unfold Bridge.insertRoom at inserted
  split at inserted
  · cases inserted
  · cases inserted
    rfl

theorem seen_exec {conditions : Conditions} {bridge : Bridge parts}
    {request : Request} (later : request.Later)
    (keeps : ∀ cutoff, request ≠ .deleteSeen cutoff) :
    (Bridge.exec conditions bridge request).2.seen = bridge.seen := by
  have room : ∀ {α : Type} {performed : Except String (α × Bridge parts)},
      (∀ reply after, performed = .ok (reply, after) →
        after.seen = bridge.seen) →
      (statement conditions bridge performed).2.seen = bridge.seen := by
    intro α performed same
    rcases statement_cases conditions bridge performed with
      ⟨panne, failed⟩ | ⟨reply, after, done, answered⟩
    · rw [failed]
    · rw [answered]
      exact same reply after done
  cases request with
  | clock message => exact later.elim
  | markSeen eventId seenAt => exact later.elim
  | handle message => exact later.elim
  | deleteSeen cutoff => exact (keeps cutoff rfl).elim
  | readRoom roomId =>
      apply room
      intro reply after same
      cases same
      rfl
  | updateRoom roomId row =>
      exact room fun _ _ => seen_of_updateRoom
  | insertRoom roomId row =>
      exact room fun _ _ => seen_of_insertRoom
  | _ => rfl

/-- The invariant of the runs that meet the conditions. -/
def SeenInv (config : ChatConfig) (bridge : Bridge parts)
    (trace : Trace parts) : Prop :=
  Throughout Onward trace → Throughout (PurgesOld config) trace →
    Good config bridge.seen trace

section Exec

variable {bridge : Bridge parts} {trace : Trace parts} {task : ℕ}
  {conditions : Conditions}

/-- A purge of the rows of the events that no delivery would find recent. -/
theorem Good.purge {cutoff : ℤ} (good : Good config bridge.seen trace)
    (old : PurgesOld config trace ⟨task, bridge, .deleteSeen cutoff,
      (Bridge.exec conditions bridge (.deleteSeen cutoff)).1⟩) :
    Good config (Bridge.exec conditions bridge (.deleteSeen cutoff)).2.seen
      (⟨task, bridge, .deleteSeen cutoff,
        (Bridge.exec conditions bridge (.deleteSeen cutoff)).1⟩ :: trace) := by
  have later : (Request.deleteSeen cutoff).Later := trivial
  apply good.later later
  intro message present gone task nowMs clocked
  obtain ⟨seenAt, found⟩ := Option.ne_none_iff_exists'.mp present
  rcases statement_cases conditions bridge (bridge.deleteSeen cutoff) with
    ⟨panne, failed⟩ | ⟨reply, after, done, answered⟩
  · have same : (Bridge.exec conditions bridge (.deleteSeen cutoff)).2.seen =
        bridge.seen := congrArg (fun answered => answered.2.seen) failed
    rw [same] at gone
    exact (present gone).elim
  · cases done
    have reply : (Bridge.exec conditions bridge (.deleteSeen cutoff)).1 =
        .ok 0 := congrArg Prod.fst answered
    have seen : (Bridge.exec conditions bridge (.deleteSeen cutoff)).2.seen =
        fun eventId =>
          (bridge.seen eventId).filter fun seenAt => cutoff ≤ seenAt :=
      congrArg (fun answered => answered.2.seen) answered
    rw [reply] at old
    apply old task message nowMs clocked
    refine ⟨seenAt, found, ?_⟩
    rw [seen] at gone
    simpa [found] using gone

theorem Good.mark {message : MatrixMessage} {nowMs : ℕ} {seenAt : ℤ}
    (good : Good config bridge.seen trace)
    (own : Own trace task (.clocked message nowMs)) :
    Good config
      (Bridge.exec conditions bridge (.markSeen message.eventId seenAt)).2.seen
      (⟨task, bridge, .markSeen message.eventId seenAt,
        (Bridge.exec conditions bridge
          (.markSeen message.eventId seenAt)).1⟩ :: trace) := by
  have asked : Bridge.exec conditions bridge
      (.markSeen message.eventId seenAt) =
        statement conditions bridge (bridge.markSeen message.eventId seenAt) :=
    rfl
  rw [asked]
  rcases statement_cases conditions bridge
      (bridge.markSeen message.eventId seenAt) with
    ⟨panne, failed⟩ | ⟨rows, after, done, answered⟩
  · rw [failed]
    exact good.lose nofun
  rw [answered]
  unfold Bridge.markSeen at done
  split at done
  · cases done
    apply good.lose
    intro rows same
    exact (Except.ok.inj same).symm
  · rename_i free
    cases done
    exact good.win own (by simpa using free)

end Exec

theorem good_of_turn {task : ℕ} {stage : Stage} {bridge : Bridge parts}
    {trace : Trace parts} {request : Request}
    (turn : Turn (system parts config) (deliveries config) (SeenInv config)
      (fun task stage _ trace => Own trace task stage) task stage bridge trace
      request) (conditions : Conditions) :
    SeenInv config (Bridge.exec conditions bridge request).2
      (⟨task, bridge, request, (Bridge.exec conditions bridge request).1⟩ ::
        trace) := by
  intro onward old
  have good := turn.inv onward.2 old.2
  have own := turn.own
  have allowed := turn.allowed
  by_cases later : request.Later
  · by_cases purge : ∃ cutoff, request = .deleteSeen cutoff
    · obtain ⟨cutoff, rfl⟩ := purge
      exact good.purge old.1
    · have same : (Bridge.exec conditions bridge request).2.seen = bridge.seen :=
        seen_exec later fun cutoff here => purge ⟨cutoff, here⟩
      rw [same]
      apply good.later later
      intro message present gone
      exact (present gone).elim
  · cases request with
    | clock message =>
        cases stage with
        | arrived other =>
            obtain rfl : message = other := allowed
            exact good.clock rfl own onward.1 old.1
        | _ => exact allowed.elim
    | markSeen eventId seenAt =>
        cases stage with
        | clocked message nowMs =>
            obtain rfl : eventId = message.eventId := allowed
            exact good.mark own
        | _ => exact allowed.elim
    | handle message =>
        cases stage with
        | marked other nowMs =>
            obtain ⟨rfl, recent⟩ := allowed
            exact good.handle own recent
        | _ => exact allowed.elim
    | _ => exact (later trivial).elim

/-- A request that is not of its own kind leaves what a delivery has done. -/
theorem Own.later {task : ℕ} {stage : Stage} {bridge : Bridge parts}
    {trace : Trace parts} {request : Request} {answer : request.Reply}
    (own : Own trace task stage) (later : request.Later) :
    Own (⟨task, bridge, request, answer⟩ :: trace) task stage := by
  cases stage with
  | calm => trivial
  | arrived message =>
      intro passage member mine
      rcases List.mem_cons.mp member with here | earlier
      · rw [here]
        exact later
      · exact own passage earlier mine
  | clocked message nowMs =>
      refine ⟨own.1.cons, ?_⟩
      intro passage member mine
      rcases List.mem_cons.mp member with here | earlier
      · rw [here]
        exact Or.inl later
      · exact own.2 passage earlier mine
  | marked message nowMs =>
      obtain ⟨clocked, claimed, unhandled⟩ := own
      refine ⟨clocked.cons, claimed.cons, ?_⟩
      intro passage member mine
      rcases List.mem_cons.mp member with here | earlier
      · rw [here]
        exact handles_later later
      · exact unhandled passage earlier mine

/-- What another task does leaves what a delivery has done. -/
theorem Own.frame {task : ℕ} {stage : Stage} {trace : Trace parts}
    {passage : Passage parts} (own : Own trace task stage)
    (different : passage.task ≠ task) : Own (passage :: trace) task stage := by
  have earlier_of : ∀ past ∈ passage :: trace, past.task = task →
      past ∈ trace := by
    intro past member mine
    rcases List.mem_cons.mp member with here | earlier
    · rw [here] at mine
      exact (different mine).elim
    · exact earlier
  cases stage with
  | calm => trivial
  | arrived message =>
      intro past member mine
      exact own past (earlier_of past member mine) mine
  | clocked message nowMs =>
      refine ⟨own.1.cons, ?_⟩
      intro past member mine
      exact own.2 past (earlier_of past member mine) mine
  | marked message nowMs =>
      obtain ⟨clocked, claimed, unhandled⟩ := own
      refine ⟨clocked.cons, claimed.cons, ?_⟩
      intro past member mine
      exact unhandled past (earlier_of past member mine) mine

theorem Own.next {task : ℕ} {stage : Stage} {bridge : Bridge parts}
    {trace : Trace parts} {request : Request} (own : Own trace task stage)
    (allowed : stage.Allows config request) (answer : request.Reply) :
    Own (⟨task, bridge, request, answer⟩ :: trace) task
      (stage.next request answer) := by
  by_cases later : request.Later
  · rw [next_later later]
    exact own.later later
  cases request with
  | clock message =>
      cases stage with
      | arrived other =>
          obtain rfl : message = other := allowed
          refine ⟨⟨bridge, List.mem_cons_self⟩, ?_⟩
          intro passage member mine
          rcases List.mem_cons.mp member with here | earlier
          · exact Or.inr ⟨bridge, here⟩
          · exact Or.inl (own passage earlier mine)
      | _ => exact allowed.elim
  | markSeen eventId seenAt =>
      cases stage with
      | clocked message nowMs =>
          obtain rfl : eventId = message.eventId := allowed
          cases answer with
          | error panne => trivial
          | ok rows =>
              show Own _ task (if 0 < rows then .marked message nowMs else .calm)
              split
              · rename_i some
                refine ⟨own.1.cons,
                  ⟨bridge, seenAt, rows, some, List.mem_cons_self⟩, ?_⟩
                intro passage member mine eventId
                rcases List.mem_cons.mp member with here | earlier
                · rw [here]
                  rfl
                rcases own.2 passage earlier mine with later | ⟨before, same⟩
                · exact handles_later later eventId
                · rw [same]
                  rfl
              · trivial
      | _ => exact allowed.elim
  | handle message =>
      cases stage with
      | marked other nowMs => trivial
      | _ => exact allowed.elim
  | _ => exact (later trivial).elim

theorem deliveries_outline :
    Outline (system parts config) (deliveries config) (fun _ => True)
      (fun _ => (none : Option Unit)) (SeenInv config)
      (fun task stage _ trace => Own trace task stage) where
  obeys := program_obeys
  begins := by
    intro call task s trace _ _ past
    cases call with
    | deliver process reads message =>
        intro passage member mine
        exact absurd (past passage member) (by omega)
    | manager process call => trivial
    | listen process reads subject id => trivial
  bare _ _ := rfl
  keeps turn conditions := good_of_turn turn conditions
  reaches turn conditions := turn.own.next turn.allowed _
  renews := by
    intro task stage s trace request turn conditions held has
    cases has
  frames := by
    intro task stage s trace request turn conditions other otherStage
      different own _
    exact own.frame different.symm
  spawned := by
    intro task stage s trace request turn conditions call other spawned _ _
    cases call with
    | deliver process reads message =>
        cases request with
        | manager process turn section_ =>
            obtain ⟨_, _, same⟩ := Option.map_eq_some_iff.mp spawned
            cases same
        | _ => cases spawned
    | manager process call => trivial
    | listen process reads subject id => trivial
  passes := by
    intro task stage s trace request turn conditions call held _ has
    cases has

/-- While the clock does not go back, and the rows that are purged are those
of events that no delivery would find recent, no event is handled twice. -/
theorem handled_once (config : ChatConfig) (managers : ℕ → Manager parts)
    (moves : List (Move Call Conditions))
    (onward : Throughout Onward
      ((system parts config).run (Bridge.new parts managers) moves).trace)
    (old : Throughout (PurgesOld config)
      ((system parts config).run (Bridge.new parts managers) moves).trace) :
    ∀ earlier, earlier <+: moves → HandledOnce
      ((system parts config).run (Bridge.new parts managers) earlier).trace := by
  intro earlier begins
  have start : SeenInv config (Bridge.new parts managers) [] := by
    intro _ _
    refine ⟨?_, ?_, ?_, fun _ => Nat.zero_le _⟩
    · intro task other message later claims
      obtain ⟨_, ⟨_, member⟩, _⟩ := claims
      cases member
    · intro task message claims
      obtain ⟨_, ⟨_, member⟩, _⟩ := claims
      cases member
    · intro passage member
      cases member
  obtain ⟨stages, outlined⟩ := (deliveries_outline).run start earlier (by
    intro move _
    cases move with
    | start call => trivial
    | step task conditions => trivial)
  exact (outlined.inv (System.throughout_of_earlier begins onward)
    (System.throughout_of_earlier begins old)).once

/-- Runs from the start, with the settings by default. -/
def handlings (moves : List (Move Call Conditions)) :
    Trace ⟨Ring.broadcast SessionEvent, TurnGate.listed⟩ :=
  ((system ⟨Ring.broadcast SessionEvent, TurnGate.listed⟩
    ChatConfig.default).run (Bridge.new _ fun _ => Manager.new _ ⟨8, 1000⟩
      (fun _ => false) (Hub.new _ false 256)) moves).trace

/-- A message of Alice, with its timestamp. -/
def greeting (eventId : String) (timestampMs : ℕ) : MatrixMessage :=
  { roomId := "!room:srv", eventId, sender := "@alice:srv", body := "bonjour"
    timestampMs }

/-- Eight days, one more than the window in which events are kept. -/
def eightDays : ℕ := 8 * 24 * 3600 * 1000

/-- A message is handled, a message that comes eight days later purges its row,
and the first one is delivered again. -/
def redelivery : List (Move Call Conditions) :=
  [.start (.deliver 0 0 (greeting "$e" 0)),
    .start (.deliver 0 0 (greeting "$other" eightDays)),
    .start (.deliver 0 0 (greeting "$e" 0))] ++
    List.replicate 9 (.step 0 {}) ++
    List.replicate 6 (.step 1 { now := eightDays * nanosPerMilli }) ++
    List.replicate 4 (.step 2 { now := eightDays * nanosPerMilli })

/-- The task, the message and the reading of a delivery. -/
def clockOf : Passage parts → Option (ℕ × MatrixMessage × ℕ)
  | ⟨task, _, .clock message, nowMs⟩ => some (task, message, nowMs)
  | _ => none

def purgeOf : Passage parts → Option ℤ
  | ⟨_, _, .deleteSeen cutoff, .ok _⟩ => some cutoff
  | _ => none

def marks (task : ℕ) (eventId : String) : Passage parts → Bool
  | ⟨other, _, .markSeen marked _, _⟩ =>
      decide (other = task) && decide (marked = eventId)
  | _ => false

/-- `PurgesOld`, as a check of the passages. -/
structure Checks (config : ChatConfig) (before : Trace parts)
    (passage : Passage parts) : Prop where
  again : ∀ told ∈ clockOf passage,
    (passage.before.seen told.2.1.eventId).isNone →
      ∀ past ∈ before, ∀ other ∈ clockOf past,
        other.2.1.eventId = told.2.1.eventId →
        told.2.1.timestampMs ≤ other.2.1.timestampMs
  purges : ∀ cutoff ∈ purgeOf passage, ∀ past ∈ before, ∀ told ∈ clockOf past,
    (∃ seenAt ∈ passage.before.seen told.2.1.eventId, seenAt < cutoff) →
    (∃ late ∈ before, ∃ instant ∈ reading late,
      (told.2.1.timestampMs : ℤ) + min config.maxEventAge (2 ^ 64 - 1) <
        instant) ∧
      ((∃ mark ∈ before, marks told.1 told.2.1.eventId mark = true) ∨
        ¬ told.2.2 - told.2.1.timestampMs ≤
          min config.maxEventAge (2 ^ 64 - 1))

instance (config : ChatConfig) (before : Trace parts)
    (passage : Passage parts) : Decidable (Checks config before passage) :=
  decidable_of_iff (_ ∧ _)
    ⟨fun both => ⟨both.1, both.2⟩, fun checks => ⟨checks.again, checks.purges⟩⟩

theorem marked_of_marks {task : ℕ} {eventId : String} {trace : Trace parts}
    {mark : Passage parts} (member : mark ∈ trace)
    (told : marks task eventId mark = true) : Marked trace task eventId := by
  obtain ⟨other, before, request, answer⟩ := mark
  cases request with
  | markSeen marked seenAt =>
      obtain ⟨same, event⟩ := Bool.and_eq_true_iff.mp told
      obtain rfl := of_decide_eq_true same
      obtain rfl := of_decide_eq_true event
      exact ⟨before, seenAt, answer, member⟩
  | _ => cases told

theorem Checks.purgesOld {before : Trace parts} {passage : Passage parts}
    (checks : Checks config before passage) :
    PurgesOld config before passage := by
  obtain ⟨task, s, request, answer⟩ := passage
  cases request with
  | clock message =>
      intro absent other again nowMs clocked same
      obtain ⟨state, member⟩ := clocked
      exact checks.again _ rfl (Option.isNone_iff_eq_none.mpr absent) _ member
        _ rfl same
  | deleteSeen cutoff =>
      cases answer with
      | error error => trivial
      | ok rows =>
          intro other message nowMs clocked seen
          obtain ⟨state, member⟩ := clocked
          obtain ⟨passed, marked⟩ := checks.purges cutoff rfl _ member _ rfl seen
          refine ⟨passed, marked.imp_left ?_⟩
          rintro ⟨mark, listed, told⟩
          exact marked_of_marks listed told
  | _ => trivial

theorem purgesOld_of_checks : {trace : Trace parts} →
    Throughout (Checks config) trace → Throughout (PurgesOld config) trace
  | [], _ => trivial
  | _ :: _, ⟨now, earlier⟩ => ⟨now.purgesOld, purgesOld_of_checks earlier⟩

theorem handled_once_redelivered :
    HandledOnce (handlings redelivery) ∧
      (handlings redelivery).countP (handles "$e") = 1 := by
  have onward : Throughout Onward (handlings redelivery) := by
    decide +kernel
  have old : Throughout (PurgesOld ChatConfig.default)
      (handlings redelivery) := by
    apply purgesOld_of_checks
    decide +kernel
  have once := @handled_once ⟨Ring.broadcast SessionEvent, TurnGate.listed⟩
    ChatConfig.default (fun _ => Manager.new _ ⟨8, 1000⟩ (fun _ => false)
      (Hub.new _ false 256)) redelivery onward old redelivery
      (List.prefix_refl _)
  exact ⟨once, by decide +kernel⟩

/-- The row of an event that is dated far ahead is purged, and the event is
delivered again: it still is recent. -/
theorem future_event_handled_twice :
    ¬ ∀ moves, Throughout Onward (handlings moves) →
      HandledOnce (handlings moves) := by
  intro all
  have once := all
    ([.start (.deliver 0 0 (greeting "$e" (10 * eightDays))),
      .start (.deliver 0 0 (greeting "$other" eightDays)),
      .start (.deliver 0 0 (greeting "$e" (10 * eightDays)))] ++
      List.replicate 9 (.step 0 {}) ++
      List.replicate 6 (.step 1 { now := eightDays * nanosPerMilli }) ++
      List.replicate 4 (.step 2 { now := eightDays * nanosPerMilli }))
    (by decide +kernel) "$e"
  exact absurd once (by decide +kernel)

end MiryadCore.Chat.Bridging
