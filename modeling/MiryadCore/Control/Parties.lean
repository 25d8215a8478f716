import Mathlib.Logic.Function.Basic
import MiryadCore.Control.Script

/-!
# Parties beside each other, and what explains them

Each party runs a script of its own on a state that all share, and the requests
of the parties come in any order.  What a party relies on is what the others
guarantee, so that what each script meets alone it meets beside the others.  A
client is a script of calls, of which each is a script of requests; an abstract
state explains what a client is answered when each call is simulated by a step
of it.
-/

namespace MiryadCore

variable {ι op call : Type} {reply : op → Type} {result : call → Type}
  {env state abstract α : Type}

/-- What the parties share, and what is left of the script of each. -/
structure Parties (ι op : Type) (reply : op → Type) (state α : Type) where
  shared : state
  scripts : ι → Script op reply α

namespace Parties

variable [DecidableEq ι]

/-- A party makes its next request, if it has one. -/
def next (exec : ι → Script.Service op reply env state)
    (parties : Parties ι op reply state α) (move : ι × env) :
    Parties ι op reply state α :=
  match parties.scripts move.1 with
  | .done _ => parties
  | .call request rest =>
      let answered := exec move.1 move.2 parties.shared request
      { shared := answered.2
        scripts := Function.update parties.scripts move.1 (rest answered.1) }

def run (exec : ι → Script.Service op reply env state)
    (parties : Parties ι op reply state α) (moves : List (ι × env)) :
    Parties ι op reply state α :=
  moves.foldl (next exec) parties

end Parties

/-- What each party relies on, and guarantees to the others. -/
structure Pact (ι state : Type) where
  rely : ι → state → state → Prop
  guar : ι → state → state → Prop
  refl : ∀ party s, rely party s s
  trans : ∀ {party a b c}, rely party a b → rely party b c → rely party a c
  beside : ∀ {party other s s'}, other ≠ party → guar other s s' →
    rely party s s'

namespace Pact

variable (pact : Pact ι state)
  (exec : ι → Script.Service op reply env state)
  (post : ι → α → state → Prop)

/-- Each script meets its postcondition, whatever the others do. -/
def Goes (parties : Parties ι op reply state α) : Prop :=
  ∀ party, (parties.scripts party).Meets (exec party) (pact.rely party)
    (pact.guar party) (post party) parties.shared

variable {pact exec post} [DecidableEq ι]
  {parties : Parties ι op reply state α}

theorem Goes.next (goes : pact.Goes exec post parties) (move : ι × env) :
    pact.Goes exec post (parties.next exec move) := by
  unfold Parties.next
  cases left : parties.scripts move.1 with
  | done value => exact goes
  | call request rest =>
      have mine := goes move.1
      rw [left] at mine
      obtain ⟨keeps, after⟩ := mine _ (pact.refl _ _) move.2
      intro party
      dsimp only
      by_cases moves : party = move.1
      · subst moves
        rw [Function.update_self]
        exact after
      · rw [Function.update_of_ne moves]
        exact (goes party).stable pact.trans (pact.beside (Ne.symm moves) keeps)

theorem Goes.run (goes : pact.Goes exec post parties)
    (moves : List (ι × env)) : pact.Goes exec post (parties.run exec moves) :=
  List.foldlRecOn moves (Parties.next exec) goes
    fun _ before move _ => before.next move

omit [DecidableEq ι] in
theorem Goes.returned (goes : pact.Goes exec post parties) {party : ι}
    {value : α} (done : parties.scripts party = .done value) :
    post party value parties.shared := by
  have meets := goes party
  rw [done] at meets
  exact meets _ (pact.refl _ _)

end Pact

section Stop

variable [DecidableEq ι] {γ : Type}

/-- Where its requests may all change nothing of what is seen, a party may come
to its end and nothing that is seen changes. -/
theorem Parties.exists_end (exec : ι → Script.Service op reply env state)
    (seen : state → γ) {party : ι} {stop : env}
    (keeps : ∀ s request, seen (exec party stop s request).2 = seen s)
    (script : Script op reply α) (parties : Parties ι op reply state α)
    (left : parties.scripts party = script) :
    ∃ moves value, (parties.run exec moves).scripts party = .done value ∧
      seen (parties.run exec moves).shared = seen parties.shared := by
  induction script generalizing parties with
  | done value => exact ⟨[], value, left, rfl⟩
  | call request rest induction =>
      have moved : parties.next exec (party, stop) =
          { shared := (exec party stop parties.shared request).2
            scripts := Function.update parties.scripts party
              (rest (exec party stop parties.shared request).1) } := by
        unfold Parties.next
        dsimp only
        rw [left]
      obtain ⟨moves, value, ends, same⟩ := induction _
        (parties.next exec (party, stop)) (by
          rw [moved]
          exact Function.update_self ..)
      refine ⟨(party, stop) :: moves, value, ends, same.trans ?_⟩
      rw [moved]
      exact keeps parties.shared request

end Stop

namespace Script

/-- The requests of a client whose calls are scripts. -/
def expand (code : (called : call) → Script op reply (result called)) :
    Script call result α → Script op reply α
  | .done value => .done value
  | .call called next =>
      (code called).bind fun answer => (next answer).expand code

/-- The answers that lead a client to its value are those of an abstract
state, which they take to another. -/
inductive Plays
    (step : abstract → (called : call) → result called → abstract → Prop) :
    Script call result α → abstract → α → abstract → Prop where
  | done (value : α) (a : abstract) : Plays step (.done value) a value a
  | call {called : call} {next : result called → Script call result α}
      {answer : result called} {value : α} {a b c : abstract} :
      step a called answer b → Plays step (next answer) b value c →
      Plays step (.call called next) a value c

variable {exec : Service op reply env state} {rely guar : state → state → Prop}
  {code : (called : call) → Script op reply (result called)}
  {step : abstract → (called : call) → result called → abstract → Prop}
  {related : abstract → state → Prop}

/-- Where each call is simulated by a step, so is a client by its steps. -/
theorem Meets.expand (refl : ∀ s, rely s s)
    (stable : ∀ {a s s'}, related a s → rely s s' → related a s')
    (simulates : ∀ a called s, related a s →
      (code called).Meets exec rely guar (fun answer s' => ∃ b,
        step a called answer b ∧ related b s') s)
    (client : Script call result α) {a : abstract} {s : state}
    (begins : related a s) :
    (client.expand code).Meets exec rely guar (fun value s' => ∃ b,
      Plays step client a value b ∧ related b s') s := by
  induction client generalizing a s with
  | done value =>
      intro s' between
      exact ⟨a, .done value a, stable begins between⟩
  | call called next induction =>
      apply Meets.bind refl
      apply Meets.mono (simulates a called s begins)
      rintro answer s' ⟨b, steps, goes⟩
      apply Meets.mono (induction answer goes)
      rintro value s'' ⟨c, plays, ends⟩
      exact ⟨c, .call steps plays, ends⟩

end Script

end MiryadCore
