import MiryadCore.Chat.Rooms

/-!
# Rooms that keep their subjects

A statement on the row of a room is the only request that changes it.  The
invariants tell where the rows come from, and that their subjects stay as long
as each write is undisputed.
-/

namespace MiryadCore.Chat.Bridging

open Interactive

variable {parts : Parts} {config : ChatConfig} {bridge : Bridge parts}
  {trace : Trace parts} {task : ℕ} {conditions : Conditions}
  {request : Request}

/-- The passage of a request, answered under conditions. -/
abbrev passed (task : ℕ) (conditions : Conditions) (bridge : Bridge parts)
    (request : Request) : Passage parts :=
  ⟨task, bridge, request, (Bridge.exec conditions bridge request).1⟩

/-- What a request does to the rows of the rooms: it leaves them, or writes
one of them. -/
theorem rooms_exec (task : ℕ) (conditions : Conditions) (bridge : Bridge parts)
    (request : Request) :
    (wrote (passed task conditions bridge request) = none ∧
      (Bridge.exec conditions bridge request).2.rooms = bridge.rooms) ∨
    ∃ roomId row, wrote (passed task conditions bridge request) =
        some (roomId, row) ∧
      (request = .updateRoom roomId row ∨ request = .insertRoom roomId row) ∧
      (Bridge.exec conditions bridge request).2.rooms =
        Function.update bridge.rooms roomId (some row) := by
  cases request with
  | readRoom roomId =>
      left
      refine ⟨rfl, ?_⟩
      rcases statement_cases conditions bridge
          (.ok (bridge.rooms roomId, bridge)) with
        ⟨panne, failed⟩ | ⟨reply, after, done, answered⟩
      · exact congrArg (fun answered => answered.2.rooms) failed
      · cases done
        exact congrArg (fun answered => answered.2.rooms) answered
  | markSeen eventId seenAt =>
      left
      refine ⟨rfl, ?_⟩
      rcases statement_cases conditions bridge
          (bridge.markSeen eventId seenAt) with
        ⟨panne, failed⟩ | ⟨reply, after, done, answered⟩
      · exact congrArg (fun answered => answered.2.rooms) failed
      · unfold Bridge.markSeen at done
        split at done
        · cases done
          exact congrArg (fun answered => answered.2.rooms) answered
        · cases done
          exact congrArg (fun answered => answered.2.rooms) answered
  | deleteSeen before =>
      left
      refine ⟨rfl, ?_⟩
      rcases statement_cases conditions bridge (bridge.deleteSeen before) with
        ⟨panne, failed⟩ | ⟨reply, after, done, answered⟩
      · exact congrArg (fun answered => answered.2.rooms) failed
      · cases done
        exact congrArg (fun answered => answered.2.rooms) answered
  | updateRoom roomId row =>
      have asked : Bridge.exec conditions bridge (.updateRoom roomId row) =
          statement conditions bridge (bridge.updateRoom roomId row) := rfl
      unfold passed
      rw [asked]
      rcases statement_cases conditions bridge
          (bridge.updateRoom roomId row) with
        ⟨panne, failed⟩ | ⟨rows, after, done, answered⟩
      · rw [failed]
        exact Or.inl ⟨rfl, rfl⟩
      rw [answered]
      unfold Bridge.updateRoom at done
      split at done
      · cases done
        exact Or.inr ⟨roomId, row, rfl, Or.inl rfl, rfl⟩
      · cases done
        exact Or.inl ⟨rfl, rfl⟩
  | insertRoom roomId row =>
      have asked : Bridge.exec conditions bridge (.insertRoom roomId row) =
          statement conditions bridge (bridge.insertRoom roomId row) := rfl
      unfold passed
      rw [asked]
      rcases statement_cases conditions bridge
          (bridge.insertRoom roomId row) with
        ⟨panne, failed⟩ | ⟨reply, after, done, answered⟩
      · rw [failed]
        exact Or.inl ⟨rfl, rfl⟩
      rw [answered]
      unfold Bridge.insertRoom at done
      split at done
      · cases done
      · cases done
        exact Or.inr ⟨roomId, row, rfl, Or.inr rfl, rfl⟩
  | _ => exact Or.inl ⟨rfl, rfl⟩

theorem readRoom_ok {roomId : String} {row : Option RoomRow}
    (read : (Bridge.exec conditions bridge (.readRoom roomId)).1 = .ok row) :
    row = bridge.rooms roomId := by
  rcases statement_cases conditions bridge
      (.ok (bridge.rooms roomId, bridge)) with
    ⟨panne, failed⟩ | ⟨reply, after, done, answered⟩
  · have same : (Bridge.exec conditions bridge (.readRoom roomId)).1 =
        .error panne := congrArg Prod.fst failed
    rw [same] at read
    cases read
  · cases done
    have same : (Bridge.exec conditions bridge (.readRoom roomId)).1 =
        .ok (bridge.rooms roomId) := congrArg Prod.fst answered
    rw [same] at read
    exact (Except.ok.inj read).symm

theorem Opened.cons {sujet : String} {id : SessionId} {passage : Passage parts}
    (opened : Opened trace sujet id) : Opened (passage :: trace) sujet id := by
  obtain ⟨task, before, process, turn, request, answer, member, shows⟩ := opened
  exact ⟨task, before, process, turn, request, answer,
    List.mem_cons_of_mem _ member, shows⟩

/-- Where the rows come from: each has been written, for a subject, with a
session of it. -/
structure Rooted (bridge : Bridge parts) (trace : Trace parts) : Prop where
  written : ∀ roomId row, bridge.rooms roomId = some row →
    ∃ past ∈ trace, wrote past = some (roomId, row)
  named : ∀ roomId row, bridge.rooms roomId = some row → row.subject.isSome
  owned : SessionsOwned bridge trace

/-- Each row that was written has the subject that it had. -/
def Kept (bridge : Bridge parts) (trace : Trace parts) : Prop :=
  ∀ past ∈ trace, ∀ roomId row, wrote past = some (roomId, row) →
    ∃ current, bridge.rooms roomId = some current ∧
      current.subject = row.subject

def RoomInv (bridge : Bridge parts) (trace : Trace parts) : Prop :=
  Rooted bridge trace ∧ (Throughout Undisputed trace → Kept bridge trace)

/-- If its row has been written for the subject only since it was read, the
room is free or that of the subject. -/
def Watched (bridge : Bridge parts) (trace : Trace parts) (task : ℕ)
    (roomId sujet : String) : Prop :=
  ∃ later read earlier, trace = later ++ read :: earlier ∧
    ReadsRoom task roomId read ∧
    ((∀ past ∈ later, ∀ other, wrote past = some (roomId, other) →
        other.subject = some sujet) →
      ∀ row, bridge.rooms roomId = some row → row.subject = some sujet)

/-- What a message has done at each of its stages. -/
def RoomStage.Own (bridge : Bridge parts) (trace : Trace parts) (task : ℕ) :
    RoomStage → Prop
  | .owner roomId sujet opened =>
      Watched bridge trace task roomId sujet ∧
        ∀ id ∈ opened, Opened trace sujet id
  | _ => True

theorem Watched.step {watcher : ℕ} {roomId sujet : String}
    (watched : Watched bridge trace watcher roomId sujet) (task : ℕ)
    (conditions : Conditions) (request : Request) :
    Watched (Bridge.exec conditions bridge request).2
      (passed task conditions bridge request :: trace) watcher roomId
      sujet := by
  obtain ⟨later, read, earlier, split, reads, keeps⟩ := watched
  refine ⟨passed task conditions bridge request :: later, read, earlier,
    congrArg _ split, reads, ?_⟩
  intro same
  have before := keeps fun past member =>
    same past (List.mem_cons_of_mem _ member)
  rcases rooms_exec task conditions bridge request with
    ⟨_, rooms⟩ | ⟨other, row, writes, _, rooms⟩
  · rw [rooms]
    exact before
  · rw [rooms]
    intro current found
    by_cases here : roomId = other
    · subst here
      rw [Function.update_self] at found
      cases found
      exact same _ List.mem_cons_self row writes
    · rw [Function.update_of_ne here] at found
      exact before current found

theorem RoomStage.Own.step {other : ℕ} {stage : RoomStage}
    (own : stage.Own bridge trace other) (task : ℕ) (conditions : Conditions)
    (request : Request) :
    stage.Own (Bridge.exec conditions bridge request).2
      (passed task conditions bridge request :: trace) other := by
  cases stage with
  | owner roomId sujet opened =>
      exact ⟨own.1.step task conditions request,
        fun id member => (own.2 id member).cons⟩
  | _ => trivial

/-- A message that has read the row of its room owns the room, if it goes
on. -/
theorem own_readRoom {roomId sujet : String} (rooted : Rooted bridge trace) :
    (RoomStage.next (.named roomId sujet) (.readRoom roomId)
      (Bridge.exec conditions bridge (.readRoom roomId)).1).Own
      (Bridge.exec conditions bridge (.readRoom roomId)).2
      (passed task conditions bridge (.readRoom roomId) :: trace) task := by
  have rooms : (Bridge.exec conditions bridge (.readRoom roomId)).2.rooms =
      bridge.rooms := by
    rcases rooms_exec task conditions bridge (.readRoom roomId) with
      ⟨_, same⟩ | ⟨_, _, writes, _⟩
    · exact same
    · cases writes
  cases read : (Bridge.exec conditions bridge (.readRoom roomId)).1 with
  | error panne => trivial
  | ok row =>
      show (if _ then RoomStage.owner roomId sujet [] else .calm).Own _ _ task
      split
      · rename_i free
        refine ⟨⟨[], _, trace, rfl, ⟨rfl, rfl⟩, ?_⟩, nofun⟩
        intro _ current found
        rw [rooms, ← readRoom_ok read] at found
        subst found
        obtain ⟨subject, named⟩ := Option.isSome_iff_exists.mp
          (rooted.named roomId current (readRoom_ok read).symm)
        rw [Option.bind_some, named] at free
        rw [named]
        exact congrArg some (of_decide_eq_true free)
      · trivial

theorem own_manager {process : ℕ} {turn : Option Manager.Turn}
    {section_ : Manager.Section} {roomId sujet : String}
    {opened : List SessionId}
    (own : (RoomStage.owner roomId sujet opened).Own bridge trace task) :
    (RoomStage.next (.owner roomId sujet opened) (.manager process turn section_)
      (Bridge.exec conditions bridge (.manager process turn section_)).1).Own
      (Bridge.exec conditions bridge (.manager process turn section_)).2
      (passed task conditions bridge (.manager process turn section_) :: trace)
      task := by
  obtain ⟨watched, older⟩ :=
    own.step task conditions (.manager process turn section_)
  refine ⟨watched, ?_⟩
  intro id member
  rcases List.mem_append.mp member with new | old
  · exact ⟨task, bridge, process, turn, section_, _, List.mem_cons_self,
      Option.mem_toList.mp new⟩
  · exact older id old

theorem own_next {stage : RoomStage} (rooted : Rooted bridge trace)
    (own : stage.Own bridge trace task) (allowed : stage.Allows request) :
    (stage.next request (Bridge.exec conditions bridge request).1).Own
      (Bridge.exec conditions bridge request).2
      (passed task conditions bridge request :: trace) task := by
  cases stage with
  | calm => trivial
  | arrived roomId =>
      cases request with
      | resolveLink mxid =>
          cases linked : (Bridge.exec conditions bridge
            (.resolveLink mxid)).1 with
          | error erreur => trivial
          | ok found => cases found <;> trivial
      | _ => trivial
  | named roomId sujet =>
      cases request with
      | readRoom other =>
          obtain rfl : other = roomId := allowed
          exact own_readRoom rooted
      | _ => trivial
  | owner roomId sujet opened =>
      cases request with
      | manager process turn section_ => exact own_manager own
      | _ => exact own.step task conditions _

theorem writes_of_allowed {stage : RoomStage} {roomId : String} {row : RoomRow}
    (allowed : stage.Allows request)
    (writes : request = .updateRoom roomId row ∨
      request = .insertRoom roomId row) :
    ∃ sujet opened, stage = .owner roomId sujet opened ∧
      row.subject = some sujet ∧ ∀ id, row.session = some id → id ∈ opened := by
  rcases writes with rfl | rfl
  · cases stage with
    | owner room sujet opened =>
        obtain ⟨rfl, named, sessions⟩ := allowed
        exact ⟨sujet, opened, rfl, named, sessions⟩
    | _ => exact allowed.elim
  · cases stage with
    | owner room sujet opened =>
        obtain ⟨rfl, named, sessions⟩ := allowed
        exact ⟨sujet, opened, rfl, named, sessions⟩
    | _ => exact allowed.elim

/-- Rows that no request writes stay rooted. -/
theorem Rooted.step {stage : RoomStage} (rooted : Rooted bridge trace)
    (own : stage.Own bridge trace task) (allowed : stage.Allows request)
    (conditions : Conditions) :
    Rooted (Bridge.exec conditions bridge request).2
      (passed task conditions bridge request :: trace) := by
  have old : ∀ roomId row, bridge.rooms roomId = some row →
      (∃ past ∈ passed task conditions bridge request :: trace,
        wrote past = some (roomId, row)) ∧ row.subject.isSome ∧
      ∀ id, row.session = some id → ∃ sujet, row.subject = some sujet ∧
        Opened (passed task conditions bridge request :: trace) sujet id := by
    intro roomId row found
    obtain ⟨past, member, writes⟩ := rooted.written roomId row found
    refine ⟨⟨past, List.mem_cons_of_mem _ member, writes⟩,
      rooted.named roomId row found, ?_⟩
    intro id session
    obtain ⟨sujet, named, opened⟩ := rooted.owned roomId row id found session
    exact ⟨sujet, named, opened.cons⟩
  have all : ∀ roomId row,
      (Bridge.exec conditions bridge request).2.rooms roomId = some row →
      (∃ past ∈ passed task conditions bridge request :: trace,
        wrote past = some (roomId, row)) ∧ row.subject.isSome ∧
      ∀ id, row.session = some id → ∃ sujet, row.subject = some sujet ∧
        Opened (passed task conditions bridge request :: trace) sujet id := by
    intro roomId row found
    rcases rooms_exec task conditions bridge request with
      ⟨_, rooms⟩ | ⟨room, new, writes, asked, rooms⟩
    · rw [rooms] at found
      exact old roomId row found
    rw [rooms] at found
    by_cases here : roomId = room
    · subst here
      rw [Function.update_self] at found
      cases found
      obtain ⟨sujet, opened, rfl, named, sessions⟩ :=
        writes_of_allowed allowed asked
      refine ⟨⟨_, List.mem_cons_self, writes⟩, by rw [named]; rfl, ?_⟩
      intro id session
      exact ⟨sujet, named, (own.2 id (sessions id session)).cons⟩
    · rw [Function.update_of_ne here] at found
      exact old roomId row found
  exact ⟨fun roomId row found => (all roomId row found).1,
    fun roomId row found => (all roomId row found).2.1,
    fun roomId row id found => (all roomId row found).2.2 id⟩

/-- An undisputed write leaves the subject of its room. -/
theorem Kept.step {stage : RoomStage} (kept : Kept bridge trace)
    (own : stage.Own bridge trace task) (allowed : stage.Allows request)
    (undisputed : Undisputed trace (passed task conditions bridge request)) :
    Kept (Bridge.exec conditions bridge request).2
      (passed task conditions bridge request :: trace) := by
  rcases rooms_exec task conditions bridge request with
    ⟨none, rooms⟩ | ⟨room, new, writes, asked, rooms⟩
  · intro past member roomId row wrote
    rw [rooms]
    rcases List.mem_cons.mp member with here | earlier
    · rw [here, none] at wrote
      cases wrote
    · exact kept past earlier roomId row wrote
  obtain ⟨sujet, opened, rfl, named, _⟩ := writes_of_allowed allowed asked
  obtain ⟨⟨later, read, earlier, split, reads, keeps⟩, _⟩ := own
  have since := undisputed room new writes later read earlier split reads
  have current := keeps fun past member other wrote =>
    (since past member other wrote).trans named
  intro past member roomId row wrote
  rw [rooms]
  by_cases here : roomId = room
  · subst here
    refine ⟨new, Function.update_self .., ?_⟩
    rcases List.mem_cons.mp member with latest | before
    · rw [latest, writes] at wrote
      cases wrote
      rfl
    · obtain ⟨row', found, same⟩ := kept past before roomId row wrote
      rw [named, ← same, current row' found]
  · rw [Function.update_of_ne here]
    rcases List.mem_cons.mp member with latest | before
    · rw [latest, writes] at wrote
      cases wrote
      exact (here rfl).elim
    · exact kept past before roomId row wrote

theorem undisputed_of_kept (task : ℕ) (bridge : Bridge parts)
    (trace : Trace parts) (request : Request) (conditions : Conditions)
    (_ : Kept bridge trace)
    (after : Kept (Bridge.exec conditions bridge request).2
      (passed task conditions bridge request :: trace)) :
    Undisputed trace (passed task conditions bridge request) := by
  intro roomId row writes later read earlier split _ past member other wrote
  obtain ⟨current, found, same⟩ := after _ List.mem_cons_self roomId row writes
  have older : past ∈ trace := by
    rw [split]
    exact List.mem_append_left _ member
  obtain ⟨current', found', same'⟩ :=
    after past (List.mem_cons_of_mem _ older) roomId other wrote
  rw [found] at found'
  cases found'
  exact same'.symm.trans same

theorem roomMessages_outline :
    Outline (system parts config) roomMessages (fun _ => True)
      (fun _ => (none : Option Unit)) RoomInv
      (fun task stage bridge trace => stage.Own bridge trace task) where
  obeys := messages_obey
  begins := by
    intro call task s trace _ _ _
    cases call <;> trivial
  bare _ _ := rfl
  keeps := by
    intro task stage s trace request turn conditions
    obtain ⟨rooted, keeps⟩ := turn.inv
    refine ⟨rooted.step turn.own turn.allowed conditions, ?_⟩
    intro undisputed
    exact (keeps undisputed.2).step turn.own turn.allowed undisputed.1
  reaches turn conditions := own_next turn.inv.1 turn.own turn.allowed
  renews := by
    intro task stage s trace request turn conditions held has
    cases has
  frames := by
    intro task stage s trace request turn conditions other otherStage _ own _
    exact own.step task conditions request
  spawned := by
    intro task stage s trace request turn conditions call other _ _ _
    cases call <;> trivial
  passes := by
    intro task stage s trace request turn conditions call held _ has
    cases has

section Runs

variable (config) (managers : ℕ → Manager parts)
  (moves : List (Move Call Conditions))

/-- The bridges after some moves. -/
abbrev reachedBy : Pool Call Request Request.Reply (Bridge parts)
    (Except String Unit) :=
  (system parts config).run (Bridge.new parts managers) moves

theorem roomInv_of_run :
    RoomInv (reachedBy config managers moves).shared
      (reachedBy config managers moves).trace := by
  have start : RoomInv (Bridge.new parts managers) [] := by
    refine ⟨⟨?_, ?_, ?_⟩, ?_⟩
    · intro roomId row found
      cases found
    · intro roomId row found
      cases found
    · intro roomId row id found
      cases found
    · intro _ past member
      cases member
  obtain ⟨stages, outlined⟩ := roomMessages_outline.run start moves (by
    intro move _
    cases move <;> trivial)
  exact outlined.inv

/-- Rooms that keep their subjects through a run have at its end those of
all the rows that were written. -/
theorem kept_of_subjects
    (keeps : ∀ earlier later, earlier <+: later → later <+: moves →
      KeepsSubjects (reachedBy config managers earlier).shared
        (reachedBy config managers later).shared) :
    Kept (reachedBy config managers moves).shared
      (reachedBy config managers moves).trace := by
  induction moves using List.reverseRecOn with
  | nil =>
      intro past member
      cases member
  | append_singleton moves move induction =>
      have last := keeps moves (moves ++ [move]) (List.prefix_append _ _)
        (List.prefix_refl _)
      have before := induction fun earlier later first second =>
        keeps earlier later first (second.trans (List.prefix_append _ _))
      intro past member roomId row writes
      have old : past ∈ (reachedBy config managers moves).trace →
          ∃ current,
            (reachedBy config managers (moves ++ [move])).shared.rooms roomId =
              some current ∧ current.subject = row.subject := by
        intro earlier
        obtain ⟨row', found, same⟩ := before past earlier roomId row writes
        obtain ⟨current, now, subject⟩ := last roomId row' found
        exact ⟨current, now, subject.trans same⟩
      rcases System.move_cases (system parts config)
          (Bridge.new parts managers) moves move with
        ⟨_, same⟩ | ⟨task, conditions, request, _, shared, grown⟩
      · rw [same] at member
        exact old member
      · rw [grown] at member
        rcases List.mem_cons.mp member with here | earlier
        · subst here
          rcases rooms_exec task conditions
              (reachedBy config managers moves).shared request with
            ⟨none, _⟩ | ⟨room, new, wrote, _, rooms⟩
          · cases none.symm.trans writes
          · cases wrote.symm.trans writes
            refine ⟨row, ?_, rfl⟩
            rw [shared]
            show (Bridge.exec conditions _ request).2.rooms roomId = some row
            rw [rooms, Function.update_self]
        · exact old earlier

/-- Through the run, the rows of the rooms keep their subjects, and have
sessions of their subjects. -/
def SubjectsStay : Prop :=
  ∀ earlier later, earlier <+: later → later <+: moves →
    KeepsSubjects (reachedBy config managers earlier).shared
        (reachedBy config managers later).shared ∧
      SessionsOwned (reachedBy config managers later).shared
        (reachedBy config managers later).trace

/-- In every run the subjects of the rooms stay exactly when each row is
written undisputed. -/
theorem subjects_stay_iff :
    SubjectsStay config managers moves ↔
      Throughout Undisputed (reachedBy config managers moves).trace := by
  constructor
  · intro keeps
    have kept : ∀ earlier, earlier <+: moves →
        Kept (reachedBy config managers earlier).shared
          (reachedBy config managers earlier).trace := by
      intro before begins
      apply kept_of_subjects
      intro earlier later first second
      exact (keeps earlier later first (second.trans begins)).1
    exact System.throughout_of_reached undisputed_of_kept moves kept
  · intro undisputed earlier later first second
    have before := roomInv_of_run config managers earlier
    have after := roomInv_of_run config managers later
    refine ⟨?_, after.1.owned⟩
    intro roomId row found
    obtain ⟨past, member, writes⟩ := before.1.written roomId row found
    have grown := System.trace_suffix (system parts config)
      (Bridge.new parts managers) first
    exact after.2 (System.throughout_of_earlier second undisputed) past
      (grown.subset member) roomId row writes

end Runs

/-- A first message in the room. -/
def firstMessage (eventId sender : String) : MatrixMessage :=
  { roomId := "!room:srv", eventId, sender, body := "bonjour"
    timestampMs := 0 }

/-- The first messages of Alice and of Bob in a room: Alice's reads no row,
Bob's opens a session and writes it, then Alice's does. -/
def firstMessages : List (Move Call Conditions) :=
  [.start (.deliver 0 0 (firstMessage "$a" "@alice:srv")),
    .start (.deliver 0 0 (firstMessage "$b" "@bob:srv"))] ++
    List.replicate 12 (.step 0 {}) ++
    List.replicate 28 (.step 1
      { linked := .ok (some "bob"), manager := { uuid := "t" } }) ++
    List.replicate 15 (.step 0 {})

theorem subject_replaced :
    ¬ ∀ moves, SubjectsStay ChatConfig.default
      (fun _ => Manager.new ⟨Ring.broadcast SessionEvent, TurnGate.listed⟩
        ⟨8, 1000⟩ (fun _ => false) (Hub.new _ false 256)) moves := by
  intro all
  have keeps := (all firstMessages (firstMessages.take 42) firstMessages
    (List.take_prefix _ _) (List.prefix_refl _)).1
  obtain ⟨after, found, same⟩ := keeps "!room:srv"
    { subject := some "bob", session := some "t", agent := some "agent" }
    (by decide +kernel)
  have later : (reachedBy ChatConfig.default
      (fun _ => Manager.new ⟨Ring.broadcast SessionEvent, TurnGate.listed⟩
        ⟨8, 1000⟩ (fun _ => false) (Hub.new _ false 256))
      firstMessages).shared.rooms "!room:srv" =
        some { subject := some "alice", session := some "s"
               agent := some "agent" } := by
    decide +kernel
  rw [later] at found
  cases found
  exact absurd same (by decide)

end MiryadCore.Chat.Bridging
