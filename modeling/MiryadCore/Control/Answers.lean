import MiryadCore.Control.Script

/-!
# Scripts whose answers are known

Where the service gives only some answers to a request, a script makes only the
requests to which those answers lead.
-/

namespace MiryadCore

variable {op : Type} {reply : op → Type} {α β ε : Type}
  {possible : (request : op) → reply request → Prop} {allowed asked : op → Prop}

namespace Script

/-- Answered as it can be, the script makes only such requests and ends with
such a value. -/
def Given (possible : (request : op) → reply request → Prop)
    (allowed : op → Prop) : Script op reply α → (α → Prop) → Prop
  | .done value, post => post value
  | .call request next, post =>
      allowed request ∧ ∀ answer, possible request answer →
        (next answer).Given possible allowed post

/-- Answered as it can be, the script may come to make such a request. -/
def MayAsk (possible : (request : op) → reply request → Prop)
    (asked : op → Prop) : Script op reply α → Prop
  | .done _ => False
  | .call request next =>
      asked request ∨ ∃ answer, possible request answer ∧
        (next answer).MayAsk possible asked

variable {script : Script op reply α} {post : α → Prop}

theorem Given.mono {weaker : α → Prop}
    (given : script.Given possible allowed post)
    (weakens : ∀ value, post value → weaker value) :
    script.Given possible allowed weaker := by
  induction script with
  | done value => exact weakens value given
  | call request next induction =>
      exact ⟨given.1, fun answer can => induction answer (given.2 answer can)⟩

theorem Given.bind {next : α → Script op reply β} {final : β → Prop}
    (given : script.Given possible allowed fun value =>
      (next value).Given possible allowed final) :
    (script.bind next).Given possible allowed final := by
  induction script with
  | done value => exact given
  | call request rest induction =>
      exact ⟨given.1, fun answer can => induction answer (given.2 answer can)⟩

/-- Requests that are made whatever is answered. -/
theorem Only.given {narrower : op → Prop} (only : script.Only narrower)
    (allows : ∀ request, narrower request → allowed request) :
    script.Given possible allowed fun _ => True := by
  induction script with
  | done value => trivial
  | call request next induction =>
      exact ⟨allows request only.1, fun answer _ =>
        induction answer (only.2 answer)⟩

/-- A request to which a script may come is one of those that it makes. -/
theorem Given.of_mayAsk (given : script.Given possible allowed post)
    (may : script.MayAsk possible asked) :
    ∃ request, allowed request ∧ asked request := by
  induction script with
  | done value => exact may.elim
  | call request next induction =>
      rcases may with here | ⟨answer, can, later⟩
      · exact ⟨request, given.1, here⟩
      · exact induction answer (given.2 answer can) later

end Script

namespace Query

/-- Answered as it can be, the query makes only such requests and its value, if
there is one, is such. -/
def Given (possible : (request : op) → reply request → Prop)
    (allowed : op → Prop) (query : Query op reply ε α) (post : α → Prop) :
    Prop :=
  Script.Given possible allowed query fun result =>
    ∀ value, result = .ok value → post value

variable {query : Query op reply ε α} {post : α → Prop}

theorem Given.bind {next : α → Query op reply ε β} {final : β → Prop}
    (given : Given possible allowed query post)
    (rest : ∀ value, post value →
      Given possible allowed (next value) final) :
    Given possible allowed (query >>= next : Query op reply ε β) final := by
  apply Script.Given.bind
  apply Script.Given.mono given
  intro result holds
  cases result with
  | ok value => exact rest value (holds value rfl)
  | error error => exact fun _ same => nomatch same

theorem Given.done {result : Except ε α}
    (holds : ∀ value, result = .ok value → post value) :
    Given possible allowed (ofExcept result : Query op reply ε α) post :=
  holds

theorem Given.fail (error : ε) :
    Given possible allowed (Query.fail error : Query op reply ε α) post :=
  fun _ same => nomatch same

theorem Given.pure {value : α} (holds : post value) :
    Given possible allowed (Pure.pure value : Query op reply ε α) post :=
  fun _ same => Except.ok.inj same ▸ holds

theorem Only.given {narrower : op → Prop} (only : Only narrower query)
    (allows : ∀ request, narrower request → allowed request) :
    Given possible allowed query fun _ => True :=
  Script.Given.mono (Script.Only.given only allows) fun _ _ _ _ => trivial

end Query

end MiryadCore
