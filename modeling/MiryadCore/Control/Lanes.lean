import MiryadCore.Control.Pool

/-!
# Calls that each have a state of their own

A request sees what all calls share and what its own call has, and may have to
wait for what the others have.  A contract gives each call a postcondition
that the others keep.  The scripts of all lanes then meet theirs in every
state that a run reaches.
-/

namespace MiryadCore

/-- A call under way. -/
structure Lane (call own op : Type) (reply : op → Type) (α : Type) where
  call : call
  own : own
  script : Script op reply α

structure Lanes (call own op : Type) (reply : op → Type) (state α : Type) where
  shared : state
  lanes : List (Lane call own op reply α)

structure Course (call own op : Type) (reply : op → Type)
    (env moment state α : Type) where
  program : call → Script op reply α
  fresh : own
  exec : Script.Service op reply moment (state × own)
  /-- How the request is taken, unless it waits for what the others have. -/
  ready : state → List own → env → op → Option moment

namespace Course

variable {call own op : Type} {reply : op → Type} {env moment state α : Type}

/-- What the other calls have. -/
def others (road : Lanes call own op reply state α) (index : ℕ) : List own :=
  (road.lanes.eraseIdx index).map Lane.own

def next (course : Course call own op reply env moment state α)
    (road : Lanes call own op reply state α) :
    Move call env → Lanes call own op reply state α
  | .start call =>
      { road with
        lanes := road.lanes ++
          [{ call, own := course.fresh, script := course.program call }] }
  | .step index conditions =>
      match road.lanes[index]? with
      | some { call, own, script := .call request rest } =>
          match course.ready road.shared (others road index) conditions
              request with
          | some moment =>
              let answered := course.exec moment (road.shared, own) request
              { shared := answered.2.1
                lanes := road.lanes.set index
                  { call, own := answered.2.2, script := rest answered.1 } }
          | none => road
      | _ => road

def run (course : Course call own op reply env moment state α) (s : state)
    (moves : List (Move call env)) : Lanes call own op reply state α :=
  moves.foldl course.next { shared := s, lanes := [] }

/-- Each move is allowed where it is made. -/
def Always (course : Course call own op reply env moment state α)
    (allows : Lanes call own op reply state α → Move call env → Prop) :
    Lanes call own op reply state α → List (Move call env) → Prop
  | _, [] => True
  | road, move :: moves =>
      allows road move ∧ course.Always allows (course.next road move) moves

instance decidableAlways {course : Course call own op reply env moment state α}
    {allows : Lanes call own op reply state α → Move call env → Prop}
    [decides : ∀ road move, Decidable (allows road move)] :
    ∀ road moves, Decidable (course.Always allows road moves)
  | _, [] => isTrue trivial
  | road, move :: moves =>
      have : Decidable (course.Always allows (course.next road move) moves) :=
        decidableAlways (course.next road move) moves
      inferInstanceAs (Decidable (allows road move ∧
        course.Always allows (course.next road move) moves))

variable {course : Course call own op reply env moment state α}
  {road : Lanes call own op reply state α} {s : state}

/-- A move starts a call, or has a request of one answered, or does
nothing. -/
theorem next_cases (course : Course call own op reply env moment state α)
    (road : Lanes call own op reply state α) (move : Move call env) :
    (∃ call, move = .start call ∧ course.next road move =
      { road with
        lanes := road.lanes ++
          [{ call, own := course.fresh, script := course.program call }] }) ∨
    (∃ index conditions call own request rest moment,
      move = .step index conditions ∧
      road.lanes[index]? = some ⟨call, own, .call request rest⟩ ∧
      course.ready road.shared (others road index) conditions request =
        some moment ∧
      course.next road move =
        { shared := (course.exec moment (road.shared, own) request).2.1
          lanes := road.lanes.set index
            { call
              own := (course.exec moment (road.shared, own) request).2.2
              script :=
                rest (course.exec moment (road.shared, own) request).1 } }) ∨
    course.next road move = road := by
  cases move with
  | start call => exact .inl ⟨call, rfl, rfl⟩
  | step index conditions =>
      right
      cases found : road.lanes[index]? with
      | none =>
          right
          simp only [next, found]
      | some lane =>
          obtain ⟨call, own, script⟩ := lane
          cases script with
          | done value =>
              right
              simp only [next, found]
          | call request rest =>
              cases ready : course.ready road.shared (others road index)
                  conditions request with
              | none =>
                  right
                  simp only [next, found, ready]
              | some moment =>
                  left
                  refine ⟨index, conditions, call, own, request, rest, moment,
                    rfl, found, ready, ?_⟩
                  simp only [next, found, ready]

/-- What each allowed move keeps, a run of such moves keeps. -/
theorem holds_of_always
    {allows : Lanes call own op reply state α → Move call env → Prop}
    {holds : Lanes call own op reply state α → Prop}
    (keeps : ∀ road move, holds road → allows road move →
      holds (course.next road move))
    (moves : List (Move call env)) (begins : holds road)
    (always : course.Always allows road moves) :
    holds (moves.foldl course.next road) := by
  induction moves generalizing road with
  | nil => exact begins
  | cons move moves induction =>
      exact induction (keeps road move begins always.1) always.2

theorem holds_of_next {holds : Lanes call own op reply state α → Prop}
    (keeps : ∀ road move, holds road → holds (course.next road move))
    (moves : List (Move call env))
    (begins : holds { shared := s, lanes := [] }) :
    holds (course.run s moves) :=
  List.foldlRecOn moves course.next begins
    fun road before move _ => keeps road move before

/-- The postcondition of each call, with what the others do meanwhile. -/
structure Contract (course : Course call own op reply env moment state α) where
  rely : state × own → state × own → Prop
  guar : state × own → state × own → Prop
  post : call → α → state × own → Prop
  refl : ∀ s, rely s s
  trans : ∀ {a b c}, rely a b → rely b c → rely a c
  beside : ∀ {s s' mine mine'}, guar (s, mine) (s', mine') →
    ∀ own, rely (s, own) (s', own)
  starts : ∀ call s,
    (course.program call).Meets course.exec rely guar (post call)
      (s, course.fresh)

namespace Contract

/-- All calls go on as their contract says. -/
def Holds (contract : course.Contract)
    (road : Lanes call own op reply state α) : Prop :=
  ∀ lane ∈ road.lanes, lane.script.Meets course.exec contract.rely
    contract.guar (contract.post lane.call) (road.shared, lane.own)

variable {contract : course.Contract}

/-- What a request of a call does. -/
theorem Holds.answered (holds : contract.Holds road)
    {index : ℕ} {call : call} {own : own} {request : op}
    {rest : reply request → Script op reply α}
    (there : road.lanes[index]? = some ⟨call, own, .call request rest⟩)
    (moment : moment) :
    contract.guar (road.shared, own)
        (course.exec moment (road.shared, own) request).2 ∧
      (rest (course.exec moment (road.shared, own) request).1).Meets
        course.exec contract.rely contract.guar (contract.post call)
        (course.exec moment (road.shared, own) request).2 :=
  holds _ (List.mem_of_getElem? there) _ (contract.refl _) moment

theorem Holds.next (holds : contract.Holds road) (move : Move call env) :
    contract.Holds (course.next road move) := by
  rcases course.next_cases road move with
    ⟨call, _, same⟩ |
    ⟨index, conditions, call, own, request, rest, moment, _, there, _, same⟩ |
    same
  · rw [same]
    intro lane member
    rcases List.mem_append.mp member with before | started
    · exact holds lane before
    · rw [List.mem_singleton.mp started]
      exact contract.starts call road.shared
  · rw [same]
    obtain ⟨keeps, goes⟩ := holds.answered there moment
    intro lane member
    rcases List.mem_or_eq_of_mem_set member with other | stepped
    · exact (holds lane other).stable contract.trans
        (contract.beside keeps lane.own)
    · rw [stepped]
      exact goes
  · rw [same]
    exact holds

theorem Holds.returned (holds : contract.Holds road)
    {lane : Lane call own op reply α} (member : lane ∈ road.lanes) {value : α}
    (done : lane.script = .done value) :
    contract.post lane.call value (road.shared, lane.own) := by
  have meets := holds lane member
  rw [done] at meets
  exact meets _ (contract.refl _)

theorem holds_run (contract : course.Contract) (s : state)
    (moves : List (Move call env)) : contract.Holds (course.run s moves) :=
  holds_of_next (fun _ move before => before.next move) moves
    (by intro lane member; cases member)

end Contract

end Course

end MiryadCore
