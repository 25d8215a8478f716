import MiryadCore.Chat.Bridge

/-!
# The requests of the parts of the bridge

Each part makes only requests of certain kinds, whatever it is answered.
-/

namespace MiryadCore.Chat.Bridging

open Interactive Code

variable {allowed : Request → Prop}

theorem only_ask {request : Request} (inside : allowed request) :
    Query.Only allowed (ask request) :=
  ⟨inside, fun _ => trivial⟩

theorem only_demand {α : Type} {request : Request} (inside : allowed request)
    (translate : request.Reply → Except String α) :
    Query.Only allowed (demand request translate) :=
  ⟨inside, fun _ => trivial⟩

theorem only_managed {α : Type} {process : ℕ}
    (manages : ∀ request, allowed (.manager process none request))
    (code : Manager.Code α) : Query.Only allowed (managed process code) :=
  (Script.only_lift _ manages code).bind fun _ => trivial

theorem only_abonner {process : ℕ} {sujet : String}
    (manages : ∀ request, allowed (.manager process none request))
    (id : SessionId) : Query.Only allowed (abonner process sujet id) :=
  Query.Only.bind (only_managed manages _) fun _ => .done _

theorem only_subscribed {process : ℕ} {abonnement : Subscription}
    {code : Code Unit}
    (drops : allowed (.manager process none (.hub (.unsubscribe abonnement))))
    (only : Query.Only allowed code) :
    Query.Only allowed (subscribed process abonnement code) := by
  apply Query.Only.bind only.attempt
  intro result
  apply Query.Only.bind (only_ask drops)
  intro _
  exact .done _

theorem only_lireEvenements {process : ℕ} {abonnement : Subscription}
    (receives : allowed (.manager process none (.hub (.recv abonnement))))
    (reads : ℕ) :
    Query.Only allowed (lireEvenements process abonnement reads) := by
  induction reads with
  | zero => exact .pure _
  | succ reads induction =>
      exact Query.Only.bind (only_ask receives) fun _ => induction

theorem only_purgeOpportune {process dedupeWindow nowMs : ℕ}
    (loads : allowed (.loadPurge process))
    (exchanges : ∀ current new, allowed (.exchangePurge process current new))
    (reads : allowed .utcNow) (deletes : ∀ before, allowed (.deleteSeen before))
    (purges : ∀ now, allowed (.purgeExpired now)) :
    Query.Only allowed (purgeOpportune process dedupeWindow nowMs) := by
  apply Query.Only.bind (only_ask loads)
  intro dernier
  split
  · exact .pure _
  apply Query.Only.bind (only_ask (exchanges _ _))
  intro exchanged
  split
  · apply Query.Only.bind
    · apply Query.Only.bind (only_ask reads)
      intro now
      split
      · exact .done _
      dsimp only
      split
      · exact only_ask reads
      · exact .pure _
    intro avant
    apply Query.Only.bind (only_ask (deletes avant))
    intro _
    apply Query.Only.bind (only_ask reads)
    intro now
    apply Query.Only.bind (only_ask (purges now))
    intro _
    exact .pure _
  · exact .pure _

theorem only_instantVu {nowMs : ℕ} (reads : allowed .utcNow) :
    Query.Only allowed (instantVu nowMs) := by
  unfold instantVu
  split
  · exact .pure _
  · exact only_ask reads

theorem only_marquerVu {eventId : String} {nowMs : ℕ} (reads : allowed .utcNow)
    (marks : ∀ seenAt, allowed (.markSeen eventId seenAt)) :
    Query.Only allowed (marquerVu eventId nowMs) := by
  apply Query.Only.bind (only_instantVu reads)
  intro vu
  exact Query.Only.bind (only_demand (marks vu) _) fun _ => .pure _

theorem only_lireSalle {config : ChatConfig} {roomId : String}
    (reads : allowed (.readRoom roomId)) :
    Query.Only allowed (lireSalle config roomId) :=
  Query.Only.bind (only_demand reads _) fun _ => .pure _

theorem only_ecrireSalle {roomId sujet : String} {session : Option SessionId}
    {agent : Option String} (updates : ∀ row, allowed (.updateRoom roomId row))
    (inserts : ∀ row, allowed (.insertRoom roomId row)) :
    Query.Only allowed (ecrireSalle roomId sujet session agent) := by
  apply Query.Only.bind (only_demand (updates _) _)
  intro rows
  split
  · exact .pure _
  · exact only_demand (inserts _) _

section Talks

variable {roomId : String} (talks : ∀ text txnId, allowed (.send roomId text txnId))

include talks

theorem only_dire (texte : String) : Query.Only allowed (dire roomId texte) :=
  only_demand (talks _ _) _

theorem only_liaison {mxid code : String} (reads : allowed .utcNow)
    (consumes : ∀ now, allowed (.consumeCode mxid code now)) :
    Query.Only allowed (liaison roomId mxid code) := by
  apply Query.Only.bind
  · unfold consommer
    split
    · exact .pure _
    · apply Query.Only.bind (only_ask reads)
      intro now
      exact only_ask (consumes now)
  intro resultat
  cases resultat with
  | ok subject => exact only_dire talks _
  | error erreur => exact only_dire talks _

theorem only_inviter {process nowMs : ℕ}
    (invites : allowed (.invite process roomId nowMs)) :
    Query.Only allowed (inviter process roomId nowMs) := by
  apply Query.Only.bind (only_ask invites)
  intro autorisee
  split
  · exact only_dire talks _
  · exact .pure _

theorem only_activer {appelant : CallerPrincipal} {toolset : String}
    (activates : allowed (.activateToolset appelant toolset)) :
    Query.Only allowed (activer roomId appelant toolset) := by
  unfold activer
  split
  · exact only_dire talks _
  apply Query.Only.bind (only_ask activates)
  intro result
  cases result with
  | error erreur => exact only_dire talks _
  | ok rapport =>
      dsimp only
      split
      · exact only_dire talks _
      · exact only_dire talks _

theorem only_annuler {process : ℕ} {sujet : String}
    {session : Option SessionId}
    (manages : ∀ request, allowed (.manager process none request)) :
    Query.Only allowed (annuler process sujet roomId session) := by
  apply Query.Only.bind
  · cases session with
    | none => exact .pure _
    | some id =>
        apply Query.Only.bind (only_managed manages _)
        intro result
        exact .done _
  intro actif
  split
  · exact .pure _
  · exact only_dire talks _

theorem only_envoyerParties {eventId : String} (parties : List String)
    (rang : ℕ) :
    Query.Only allowed (envoyerParties roomId eventId rang parties) := by
  induction parties generalizing rang with
  | nil => exact .pure _
  | cons partie parties induction =>
      apply Query.Only.bind (only_demand (talks _ _) _)
      intro _
      exact induction (rang + 1)

theorem only_repondre {eventId : String} (response : String)
    (outcome : SessionOutcome) :
    Query.Only allowed (repondre roomId eventId response outcome) := by
  cases outcome with
  | valid => exact only_envoyerParties talks _ _
  | failed => exact only_dire talks _
  | cancelled => exact only_dire talks _

theorem only_collecte {process : ℕ} {eventId : String}
    {abonnement : Subscription} (stalls : allowed .stall)
    (receives : allowed (.manager process none (.hub (.recv abonnement))))
    (reads : ℕ) :
    Query.Only allowed (collecte process abonnement roomId eventId reads) := by
  induction reads with
  | zero => exact only_ask stalls
  | succ reads induction =>
      apply Query.Only.bind (only_ask receives)
      intro received
      match received with
      | .ok ⟨_, _, kind⟩ =>
          cases kind with
          | turnEnded turn outcome response =>
              exact only_repondre talks response outcome
          | _ => exact induction
      | .error (.lagged _) => exact induction
      | .error .closed => exact .done _

end Talks

end MiryadCore.Chat.Bridging
