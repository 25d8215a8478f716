import MiryadCore.Users.CreationCalls
import Mathlib.Data.List.Count

/-!
# Runs of calls that create the same rows

The rows that are committed and those that transactions have inserted have
keys of their own.  In a run that spares its transactions no row of another
call hinders one, and the calls converge.
-/

namespace MiryadCore.Users.Creation

variable {s after : Database × Connection} {moment : Moment}
  {request : Statement} {road : Road}

theorem filter_key {rows : List Row} (distinct : (rows.map Row.key).Nodup)
    {row : Row} (member : row ∈ rows) :
    rows.filter (fun other => other.key = row.key) = [row] := by
  have same : rows.filter (fun other => other.key = row.key) =
      rows.filter fun other => other = row := by
    apply List.filter_congr
    intro other listed
    rw [decide_eq_decide]
    exact ⟨List.inj_on_of_nodup_map distinct listed member,
      congrArg Row.key⟩
  rw [same, List.filter_eq,
    List.count_eq_one_of_mem (List.Nodup.of_map _ distinct) member]
  rfl

/-- The committed rows, and those of the transactions. -/
def allRows (road : Road) : List Row :=
  stored road.shared ++ road.lanes.flatMap fun lane => lane.own.held

/-- The keys of a statement that has not waited are of no transaction. -/
theorem apart_of_not_rivals {others : List Connection} {key : Key}
    (inserted : inserts request = some key)
    (free : rivals others request = false) :
    ∀ own ∈ others, ∀ row ∈ own.held, row.key ≠ key := by
  intro own member row held same
  have absent := List.any_eq_false.mp free own member
  cases request with
  | insertUser subject email =>
      cases inserted
      rcases List.mem_append.mp held with users | groups
      · obtain ⟨user, listed, rfl⟩ := List.mem_map.mp users
        exact absent (List.any_eq_true.mpr
          ⟨user, listed, decide_eq_true (Key.subject.inj same)⟩)
      · obtain ⟨group, _, rfl⟩ := List.mem_map.mp groups
        cases same
  | insertGroup name =>
      cases inserted
      rcases List.mem_append.mp held with users | groups
      · obtain ⟨user, _, rfl⟩ := List.mem_map.mp users
        cases same
      · obtain ⟨group, listed, rfl⟩ := List.mem_map.mp groups
        exact absent (List.any_eq_true.mpr
          ⟨group, listed, decide_eq_true (Key.name.inj same)⟩)
  | _ => cases inserted

theorem ready_some {db : Database} {others : List Connection}
    {conditions : Conditions}
    (taken : ready db others conditions request = some moment) :
    moment = { rival := rivals others request, conditions } ∧
      (conditions.fault = none → rivals others request = false) := by
  simp only [ready] at taken
  split at taken
  · cases taken
  · rename_i goes
    refine ⟨(Option.some.inj taken).symm, fun sound => ?_⟩
    by_contra rival
    apply goes
    simp [Bool.eq_true_of_not_eq_false rival, sound]

theorem nodup_added (request : Statement) (reply : request.Reply) :
    ((added request reply).map Row.key).Nodup := by
  cases request with
  | insertUser subject email => exact List.nodup_singleton _
  | insertGroup name => exact List.nodup_singleton _
  | _ => exact List.nodup_nil

theorem held_fail (own : Connection) (request : Statement)
    (failure : Failure) : (own.fail request failure).held = [] := by
  simp only [Connection.held, Connection.fail]
  split
  · rfl
  · cases own.pending with
    | none => rfl
    | some pending => rfl

/-- What a statement leaves visible: rows that were so, and one with a key of
its own. -/
theorem exec_rows (moment : Moment) (s : Database × Connection)
    (request : Statement) :
    ∃ new : List Row,
      (visible (exec moment s request).2).Subperm (visible s ++ new) ∧
      (new.map Row.key).Nodup ∧
      ∀ row ∈ new, inserts request = some row.key ∧
        moment.conditions.fault = none ∧
        ∀ other ∈ visible s, other.key ≠ row.key := by
  cases result : exec moment s request with
  | mk answer after =>
      cases answer with
      | error error =>
          obtain ⟨failure, _, rfl⟩ := exec_error result
          refine ⟨[], ?_, List.nodup_nil, by simp⟩
          have nothing := held_fail s.2 request failure
          rw [visible, nothing, List.append_nil, List.append_nil]
          exact (List.sublist_append_left _ _).subperm
      | ok reply =>
          obtain ⟨goes, _, session', done, rfl⟩ := exec_ok result
          have succeeds := perform_succeeds done
          refine ⟨added request reply, ?_, nodup_added request reply, ?_⟩
          · by_cases bare : request = .begin ∨ request = .rollback
            · obtain ⟨same, nothing⟩ := succeeds.bare bare
              have less : stored session'.db ++ heldBy session'.pending =
                  stored s.1 := by
                rw [same, nothing, List.append_nil]
                rfl
              rw [visible, visible, List.append_assoc]
              exact less ▸ (List.sublist_append_left _ _).subperm
            · exact (succeeds.rows bare).subperm
          · intro row member
            obtain ⟨named, fresh⟩ := succeeds.fresh row member
            exact ⟨named, goes, fresh⟩

theorem nodup_of_subperm {rows rows' : List Row} (subperm : rows.Subperm rows')
    (distinct : (rows'.map Row.key).Nodup) : (rows.map Row.key).Nodup := by
  obtain ⟨between, perm, sublist⟩ := subperm
  exact (perm.map Row.key).nodup_iff.mp (distinct.sublist (sublist.map Row.key))

theorem nodup_grown {rows rows' rest new : List Row}
    (distinct : ((rows ++ rest).map Row.key).Nodup)
    (subperm : rows'.Subperm (rows ++ new)) (apart : (new.map Row.key).Nodup)
    (fresh : ∀ row ∈ new, (∀ other ∈ rows, other.key ≠ row.key) ∧
      ∀ other ∈ rest, other.key ≠ row.key) :
    ((rows' ++ rest).map Row.key).Nodup := by
  have order : (rows ++ new ++ rest).Perm (rows ++ rest ++ new) := by
    rw [List.append_assoc, List.append_assoc]
    exact List.perm_append_comm.append_left _
  apply nodup_of_subperm (subperm.append (List.Subperm.refl rest))
  rw [(order.map Row.key).nodup_iff, List.map_append, List.nodup_append']
  refine ⟨distinct, apart, ?_⟩
  intro key known added
  obtain ⟨row, member, rfl⟩ := List.mem_map.mp added
  obtain ⟨other, listed, same⟩ := List.mem_map.mp known
  obtain ⟨unseen, unheld⟩ := fresh row member
  rcases List.mem_append.mp listed with seen | beside
  · exact unseen other seen same
  · exact unheld other beside same

def contract : course.Contract where
  rely := Beside
  guar := Guarantee
  post call result s :=
    match result with
    | .ok answer => Concluded call answer s
    | .error _ => Troubled s
  refl := Beside.refl
  trans := Beside.trans
  beside guarantee _ := ⟨rfl, guarantee.rows⟩
  starts := by
    intro call db
    apply Script.Meets.mono (meets_program call db)
    intro result s' ends
    cases result with
    | ok answer => exact ends
    | error error => exact ends

/-- No row of another call hinders a transaction. -/
structure Peaceful (road : Road) : Prop where
  meets : contract.Holds road
  distinct : ((allRows road).map Row.key).Nodup
  calm : ∀ lane ∈ road.lanes, ∀ failure ∈ lane.own.failures,
    failure.rival = false

/-- The rows that the other transactions have inserted. -/
def heldBeside (road : Road) (index : ℕ) : List Row :=
  (Course.others road index).flatMap Connection.held

theorem allRows_set {index : ℕ} (inside : index < road.lanes.length)
    (db : Database)
    (lane : Lane Call Connection Statement
      (fun statement => Except DbErr statement.Reply) (Except DbErr Answer)) :
    (allRows { shared := db, lanes := road.lanes.set index lane }).Perm
      (visible (db, lane.own) ++ heldBeside road index) := by
  rw [allRows, visible, heldBeside, Course.others,
    List.eraseIdx_eq_take_drop_succ, List.set_eq_take_append_cons_drop,
    if_pos inside, List.flatMap_map, List.flatMap_append, List.flatMap_append,
    List.flatMap_cons, List.append_assoc]
  apply List.Perm.append_left
  rw [← List.append_assoc, ← List.append_assoc]
  exact List.perm_append_comm.append_right _

theorem Peaceful.distinct_set (peaceful : Peaceful road) {index : ℕ}
    {call : Call} {own : Connection} {request : Statement}
    {rest : Except DbErr request.Reply → Db Answer} {conditions : Conditions}
    (there : road.lanes[index]? = some ⟨call, own, .call request rest⟩)
    (taken : ready road.shared (Course.others road index) conditions request =
      some moment)
    (script : Db Answer) :
    ((allRows
      { shared := (exec moment (road.shared, own) request).2.1
        lanes := road.lanes.set index
          { call, own := (exec moment (road.shared, own) request).2.2
            script } }).map Row.key).Nodup := by
  obtain ⟨inside, same⟩ := List.getElem?_eq_some_iff.mp there
  obtain ⟨new, subperm, apart, fresh⟩ :=
    exec_rows moment (road.shared, own) request
  have before : ((visible (road.shared, own) ++ heldBeside road index).map
      Row.key).Nodup := by
    have rows := allRows_set inside road.shared road.lanes[index]
    rw [List.set_getElem_self, same] at rows
    exact ((rows.map Row.key).nodup_iff).mp peaceful.distinct
  apply nodup_of_subperm (allRows_set inside _ _).subperm
  apply nodup_grown before subperm apart
  intro row member
  obtain ⟨inserted, goes, unseen⟩ := fresh row member
  refine ⟨unseen, ?_⟩
  intro other beside
  obtain ⟨moment_eq, waits⟩ := ready_some taken
  rw [moment_eq] at goes
  obtain ⟨own', among, held⟩ := List.mem_flatMap.mp beside
  exact apart_of_not_rivals inserted (waits goes) own' among other held

/-- A statement of a lane leaves no failure that is due to a row of another
call. -/
theorem Peaceful.calm_exec (peaceful : Peaceful road) {index : ℕ}
    {call : Call} {own : Connection} {request : Statement}
    {rest : Except DbErr request.Reply → Db Answer} {conditions : Conditions}
    (there : road.lanes[index]? = some ⟨call, own, .call request rest⟩)
    (taken : ready road.shared (Course.others road index) conditions request =
      some moment)
    (spared : spares road (.step index conditions) = true) :
    ∀ failure ∈ (exec moment (road.shared, own) request).2.2.failures,
      failure.rival = false := by
  have before := peaceful.calm _ (List.mem_of_getElem? there)
  have guarantee := (peaceful.meets.answered there moment).1
  obtain ⟨same, _⟩ := ready_some taken
  simp only [spares, there] at spared
  intro failure member
  rcases guarantee.foreseen failure member with old | foreseen
  · exact before failure old
  cases result : exec moment (road.shared, own) request with
  | mk answer after =>
      rw [result] at member
      cases answer with
      | ok reply =>
          obtain ⟨_, _, session', _, rfl⟩ := exec_ok result
          exact before failure member
      | error error =>
          obtain ⟨failure', fails, rfl⟩ := exec_error result
          rcases List.mem_append.mp member with old | new
          · exact before failure old
          rw [List.mem_singleton.mp new] at foreseen ⊢
          cases fails with
          | fault => rfl
          | aborted => rfl
          | waiting given rival =>
              rw [same] at given rival
              have given : conditions.fault = some _ := given
              have rival : rivals (Course.others road index) request = true :=
                rival
              simp [given, rival] at spared
          | @refused error tried _ =>
              rw [same] at tried
              rw [if_pos tried] at spared
              cases inside : own.pending with
              | none =>
                  cases error with
                  | uniqueViolation => rfl
                  | _ => rfl
              | some pending =>
                  cases error with
                  | uniqueViolation constraint =>
                      obtain ⟨key, inserted, row, stored, named⟩ :=
                        foreseen request constraint (by simp [inside])
                      rcases of_decide_eq_true spared with outside | fresh
                      · rw [inside] at outside
                        cases outside
                      · exact absurd named (fresh key inserted row stored)
                  | _ => rfl

theorem Peaceful.next (peaceful : Peaceful road) {move : Move Call Conditions}
    (spared : spares road move = true) : Peaceful (course.next road move) := by
  have meets := peaceful.meets.next move
  rcases course.next_cases road move with
    ⟨call, _, same⟩ |
    ⟨index, conditions, call, own, request, rest, moment, rfl, there, taken,
      same⟩ | same
  · rw [same] at meets ⊢
    refine ⟨meets, ?_, ?_⟩
    · have rows : allRows { road with lanes := road.lanes ++
          [{ call, own := course.fresh, script := course.program call }] } =
            allRows road := by
        rw [allRows, List.flatMap_append]
        exact congrArg (stored road.shared ++ ·) (List.append_nil _)
      rw [rows]
      exact peaceful.distinct
    · intro lane member failure listed
      rcases List.mem_append.mp member with before | started
      · exact peaceful.calm lane before failure listed
      · rw [List.mem_singleton.mp started] at listed
        cases listed
  · rw [same] at meets ⊢
    refine ⟨meets, peaceful.distinct_set there taken _, ?_⟩
    intro lane member failure listed
    rcases List.mem_or_eq_of_mem_set member with other | stepped
    · exact peaceful.calm lane other failure listed
    · rw [stepped] at listed
      exact peaceful.calm_exec there taken spared failure listed
  · rw [same]
    exact peaceful

theorem Peaceful.converged (peaceful : Peaceful road) : Converged road := by
  have concluded : ∀ lane ∈ road.lanes, ∀ answer,
      lane.script = .done (.ok answer) →
        Concluded lane.call answer (road.shared, lane.own) :=
    fun lane member answer done => peaceful.meets.returned member done
  have distinct : ((stored road.shared).map Row.key).Nodup :=
    peaceful.distinct.sublist ((List.sublist_append_left _ _).map _)
  have alone : ∀ lane ∈ road.lanes, ∀ answer,
      lane.script = .done (.ok answer) →
        ∀ key id, Gives lane.own.told lane.call answer key id →
          ((stored road.shared).filter fun row => row.key = key).map Row.id =
            [id] := by
    intro lane member answer done key id given
    have concluded := concluded lane member answer done
    obtain ⟨row, told, rfl, rfl⟩ := concluded.rows key id given
    rw [filter_key distinct (concluded.told told)]
    rfl
  constructor
  case calm =>
    intro lane member error done
    refine ⟨?_, peaceful.calm lane member⟩
    obtain ⟨failure, listed, independent | rival⟩ :=
      peaceful.meets.returned member done
    · exact ⟨failure, listed, independent⟩
    · rw [peaceful.calm lane member failure listed] at rival
      cases rival
  case given =>
    intro lane member answer done
    exact (concluded lane member answer done).given
  case alone => exact alone
  case agree =>
    intro lane member answer done other member' answer' done' key id id' given
      given'
    have same := (alone lane member answer done key id given).symm.trans
      (alone other member' answer' done' key id' given')
    exact List.cons.inj same |>.1

/-- In a run that spares its transactions, the calls converge. -/
theorem converged_of_spared (db : Database)
    (unique : ((stored db).map Row.key).Nodup)
    (moves : List (Move Call Conditions)) (spared : Spared db moves) :
    Converged (course.run db moves) := by
  have begins : Peaceful { shared := db, lanes := [] } := by
    refine ⟨contract.holds_run db [], ?_, by simp⟩
    rw [allRows, List.flatMap_nil, List.append_nil]
    exact unique
  have keeps : ∀ road move, Peaceful road → spares road move = true →
      Peaceful (course.next road move) :=
    fun _ _ peaceful spared => peaceful.next spared
  exact (Course.holds_of_always keeps moves begins spared).converged

def twoUsers : Database :=
  { users := [⟨1, "u", none, none, 0⟩, ⟨2, "v", none, none, 0⟩]
    groups := [], memberships := []
    nextUser := 3, nextGroup := 1, nextMembership := 1 }

/-- The next statement of a call, which the database takes. -/
def go (index : ℕ) : Move Call Conditions :=
  .step index { fault := none, now := 0, gap := 0 }

/-- A group is created beside a synchronisation that creates it, and waits for
its transaction. -/
def beside : List (Move Call Conditions) :=
  [.start (.ensureGroup "a"), .start (.syncGroupMemberships 2 ["a"]),
   go 0, go 1, go 1, go 1, go 0, go 1, go 1, go 1, go 0, go 0]

theorem beside_converged : Converged (course.run twoUsers beside) :=
  converged_of_spared twoUsers (by decide) beside (by decide)

/-- Two synchronisations look for a group that is missing; the first commits
before the second inserts. -/
def clash : List (Move Call Conditions) :=
  [.start (.syncGroupMemberships 1 ["a"]),
   .start (.syncGroupMemberships 2 ["a"]),
   go 0, go 1, go 0, go 1, go 0, go 0, go 0, go 0, go 1, go 1, go 1]

/-- The second fails although only the row of the first was in its way. -/
theorem clash_aborted :
    ¬ ∀ (db : Database) (moves : List (Move Call Conditions)),
      ((stored db).map Row.key).Nodup → Converged (course.run db moves) := by
  intro converges
  have converged := converges twoUsers clash (by decide)
  have member : (course.run twoUsers clash).lanes[1]? =
      some ⟨.syncGroupMemberships 2 ["a"],
        { pending := none, aborted := false
          failures := [.refused true (.insertGroup "a")
            (.uniqueViolation "miryad_groups_name_key"), .aborted]
          told := [] }, .done (.error abortedTransaction)⟩ := rfl
  obtain ⟨failure, listed, independent⟩ := (converged.calm _
    (List.mem_of_getElem? member) abortedTransaction rfl).1
  rcases List.mem_cons.mp listed with rfl | listed
  · cases independent
  · rw [List.mem_singleton.mp listed] at independent
    cases independent

end MiryadCore.Users.Creation
