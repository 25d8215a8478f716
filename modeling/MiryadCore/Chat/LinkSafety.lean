import MiryadCore.Chat.LinkCodes

/-!
# What runs of calls on link codes keep

The calls that have returned, and the links that are there, tell of the codes
that were issued.
-/

namespace MiryadCore.Chat

open Interactive

/-- The calls that have been started, with what is left of them. -/
abbrev Calls := Pool Call Request Request.Reply Directory Answer

/-- The call of a task has returned. -/
def Returns (pool : Calls) (task : ℕ) (call : Call) (answer : Answer) : Prop :=
  pool.tasks[task]? = some (call, .done answer)

/-- The call of a task has returned, or returns whatever happens. -/
def Settled (pool : Calls) (task : ℕ) (call : Call) (answer : Answer) : Prop :=
  ∃ script, pool.tasks[task]? = some (call, script) ∧
    ∀ envs s, (Script.run exec envs script s).1 = answer

/-- A code with the hash of `code` was issued to the subject, and expires after
`now`. -/
def IssuedTo (sha : Sha256) (pool : Calls) (code subject : String)
    (now : Instant) : Prop :=
  ∃ task caller issuedAt issued,
    Returns pool task (.issue caller issuedAt) (.issued (.ok issued)) ∧
      hashCode sha issued.code = hashCode sha code ∧
      caller.subject = subject ∧ now < issued.expiresAt

/-- What the calls on link codes ought to keep. -/
structure Sound (sha : Sha256) (pool : Calls) : Prop where
  once : ∀ {task other mxid mxid' code now now' subject subject'},
    Returns pool task (.consume mxid code now) (.consumed (.ok subject)) →
    Returns pool other (.consume mxid' code now') (.consumed (.ok subject')) →
    task = other
  issued : ∀ {task mxid code now subject},
    Returns pool task (.consume mxid code now) (.consumed (.ok subject)) →
    IssuedTo sha pool code subject now
  bound : ∀ {task other caller issuedAt issued mxid now subject},
    Returns pool task (.issue caller issuedAt) (.issued (.ok issued)) →
    Returns pool other (.consume mxid issued.code now)
      (.consumed (.ok subject)) →
    subject = caller.subject ∧ now < issued.expiresAt
  links : ∀ {link}, link ∈ pool.shared.links → ∃ task code,
    Settled pool task (.consume link.mxid code link.createdAt)
      (.consumed (.ok link.subject)) ∧
    IssuedTo sha pool code link.subject link.createdAt
  single : (pool.shared.links.map MatrixLink.mxid).Nodup
  refused : ∀ {task call answer}, Returns pool task call answer →
    answer.Refused → ∀ passage : Passage, passage ∈ pool.trace →
      passage.task = task → passage.Keeps
  capped : Capped pool.shared pool.trace

section Pool

variable {sha : Sha256} {pool : Calls} {stages : List Stage}

/-- The calls are outlined. -/
abbrev LinkOutlined (sha : Sha256) (pool : Calls) (stages : List Stage) : Prop :=
  Outlined (protocol sha) (fun _ => (none : Option Unit))
    (fun s trace => Throughout Fresh trace → Good s trace ∧ AllDrawn sha trace)
    (fun task stage s trace => Throughout Fresh trace →
      Own sha task stage s trace) pool stages

theorem done_of_concluded {script : Script Request Request.Reply Answer}
    {call concluded : Call} {answer : Answer}
    (obeys : script.Obeys (protocol sha) (.concluded concluded answer)
      ((protocol sha).ends call)) :
    script = .done answer ∧ call = concluded := by
  cases script with
  | call request rest => exact obeys.1.elim
  | done value =>
      have same : Stage.concluded concluded answer = .concluded call value := obeys
      cases same
      exact ⟨rfl, rfl⟩

theorem run_of_clearing {script : Script Request Request.Reply Answer}
    {call : Call} {consumer : Consumer} {row : LinkCode}
    (obeys : script.Obeys (protocol sha) (.clearing consumer row)
      ((protocol sha).ends call)) :
    call = consumer.call ∧ ∀ envs s,
      (Script.run exec envs script s).1 = .consumed (.ok row.subject) := by
  cases script with
  | done value =>
      have same : Stage.clearing consumer row = .concluded call value := obeys
      cases same
  | call request rest =>
      obtain ⟨allowed, after⟩ := obeys
      cases request with
      | clearAttempts mxid =>
          obtain ⟨done, same⟩ := done_of_concluded (after ())
          refine ⟨same, ?_⟩
          intro envs s
          have runs : (Script.run exec envs (.call (.clearAttempts mxid) rest) s).1 =
              (Script.run exec (fun n => envs (n + 1)) (rest ())
                (s.clearAttempts mxid)).1 := rfl
          rw [runs, done]
          rfl
      | statement statement => exact allowed.elim
      | random => exact allowed.elim
      | rateLimited mxid now => exact allowed.elim
      | recordFailure mxid now => exact allowed.elim

theorem own_of_returns (holds : LinkOutlined sha pool stages)
    (fresh : Throughout Fresh pool.trace) {task : ℕ} {call : Call}
    {answer : Answer} (returns : Returns pool task call answer) :
    Own sha task (.concluded call answer) pool.shared pool.trace := by
  obtain ⟨stage, staged, obeys⟩ := holds.stage_of_task returns
  have concluded : stage = .concluded call answer := obeys
  exact concluded ▸ holds.own staged fresh

theorem task_of_passage (holds : LinkOutlined sha pool stages)
    (fresh : Throughout Fresh pool.trace) {passage : Passage}
    (member : passage ∈ pool.trace) :
    ∃ call script stage, pool.tasks[passage.task]? = some (call, script) ∧
      script.Obeys (protocol sha) stage ((protocol sha).ends call) ∧
      Own sha passage.task stage pool.shared pool.trace := by
  have inside := holds.past passage member
  have found := List.getElem?_eq_getElem inside
  obtain ⟨stage, staged, obeys⟩ := holds.stage_of_task found
  exact ⟨_, _, stage, found, obeys, holds.own staged fresh⟩

theorem issue_of_inserted (holds : LinkOutlined sha pool stages)
    (fresh : Throughout Fresh pool.trace) {row : LinkCode}
    (inserted : Inserted row pool.trace) :
    ∃ task caller now code,
      Returns pool task (.issue caller now)
        (.issued (.ok { code, expiresAt := row.expiresAt })) ∧
      row.codeHash = hashCode sha code ∧ row.subject = caller.subject := by
  obtain ⟨passage, member, adds⟩ := inserted
  obtain ⟨call, script, stage, found, obeys, own⟩ :=
    task_of_passage holds fresh member
  obtain ⟨issuer, bytes, staged, same⟩ :=
    own.history.adds passage member rfl row adds
  rw [staged] at obeys
  obtain ⟨done, called⟩ := done_of_concluded obeys
  rw [done, called] at found
  refine ⟨passage.task, issuer.caller, issuer.now, randomCode bytes, found, ?_, ?_⟩
  · rw [same]
    rfl
  · rw [same]
    rfl

theorem issuedTo_of_accepted (holds : LinkOutlined sha pool stages)
    (fresh : Throughout Fresh pool.trace) {consumer : Consumer} {row : LinkCode}
    (accepted : Accepted sha consumer row pool.trace) :
    IssuedTo sha pool consumer.code row.subject consumer.now := by
  obtain ⟨task, caller, issuedAt, code, returns, hash, subject⟩ :=
    issue_of_inserted holds fresh accepted.inserted
  exact ⟨task, caller, issuedAt, _, returns, hash.symm.trans accepted.hash,
    subject.symm, accepted.live⟩

/-- What holds in every pool, the cap apart. -/
theorem sound_of_outlined (holds : LinkOutlined sha pool stages)
    (fresh : Throughout Fresh pool.trace)
    (capped : Capped pool.shared pool.trace) : Sound sha pool := by
  obtain ⟨good, all⟩ := holds.inv fresh
  refine ⟨?_, ?_, ?_, ?_, good.single, ?_, capped⟩
  · intro task other mxid mxid' code now now' subject subject' returns again
    obtain ⟨passage, member, mine, consumer, row, tx, called, _, accepted,
      redeems⟩ := (own_of_returns holds fresh returns).holds
    obtain ⟨past, there, theirs, consumer', row', tx', called', _, accepted',
      redeems'⟩ := (own_of_returns holds fresh again).holds
    obtain ⟨_, code_eq, _⟩ := Call.consume.inj called
    obtain ⟨_, code_eq', _⟩ := Call.consume.inj called'
    have same : row.codeHash = row'.codeHash := by
      rw [accepted.hash, accepted'.hash, ← code_eq, ← code_eq']
    rw [← mine, ← theirs]
    apply good.spentOnce member there ⟨tx, redeems.commits, redeems.erased⟩
    rw [same]
    exact ⟨tx', redeems'.commits, redeems'.erased⟩
  · intro task mxid code now subject returns
    obtain ⟨passage, member, mine, consumer, row, tx, called, told, accepted,
      redeems⟩ := (own_of_returns holds fresh returns).holds
    cases called
    rw [told]
    exact issuedTo_of_accepted holds fresh accepted
  · intro task other caller issuedAt issued mxid now subject returns consumed
    obtain ⟨passage, member, _, issuer, row, called, adds, hash, mine, expires⟩ :=
      (own_of_returns holds fresh returns).holds
    obtain ⟨_, _, _, consumer, taken, _, calledTo, told, accepted, _⟩ :=
      (own_of_returns holds fresh consumed).holds
    obtain ⟨caller_eq, _⟩ := Call.issue.inj called
    obtain ⟨_, code_eq, now_eq⟩ := Call.consume.inj calledTo
    obtain ⟨past, there, added⟩ := accepted.inserted
    obtain ⟨_, same⟩ := good.once there member added adds
      (by rw [accepted.hash, hash, code_eq])
    rw [told, same, mine, caller_eq, ← expires, ← same, now_eq]
    exact ⟨rfl, accepted.live⟩
  · intro link there
    obtain ⟨passage, member, tx, commits, wrote⟩ := good.made there
    obtain ⟨call, script, stage, found, obeys, own⟩ :=
      task_of_passage holds fresh member
    obtain ⟨consumer, row, staged, accepted, redeems⟩ :=
      own.history.commits passage member rfl tx commits
    have is : link = consumer.link row := by
      rcases redeems.only _ wrote with same | same
      · cases same
      · exact Change.linked.inj same
    subst is
    refine ⟨passage.task, consumer.code, ?_,
      issuedTo_of_accepted holds fresh accepted⟩
    rcases staged with staged | staged
    · rw [staged] at obeys
      obtain ⟨called, runs⟩ := run_of_clearing obeys
      rw [called] at found
      exact ⟨script, found, runs⟩
    · rw [staged] at obeys
      obtain ⟨done, called⟩ := done_of_concluded obeys
      rw [called] at found
      refine ⟨script, found, ?_⟩
      intro envs s
      rw [done]
      rfl
  · intro task call answer returns refused passage member mine
    exact (own_of_returns holds fresh returns).history.harmless refused passage
      member mine

end Pool

theorem good_empty : Good Directory.empty [] where
  codes member := by cases member
  unique := List.nodup_nil
  once member := by cases member
  begun member := by cases member
  begunOnce member := by cases member
  older member := by cases member
  locks := List.nodup_nil
  spent member := by cases member
  spentOnce member := by cases member
  single := List.nodup_nil
  apart member := by cases member
  made member := by cases member
  capped _ _ _ _ := Nat.zero_le _

/-- An insertion that leaves the cap has found room. -/
theorem room_of_capped (task : ℕ) (s : Directory) (trace : Trace)
    (request : Request) (conditions : Conditions)
    (capped : Capped (exec conditions s request).2
      (⟨task, s, request, (exec conditions s request).1⟩ :: trace)) :
    Room trace ⟨task, s, request, (exec conditions s request).1⟩ := by
  intro row adds _ now clock unexpired
  have asked := request_of_adds adds
  dsimp only at asked
  subst asked
  have effect := effect_of_exec task conditions s (.statement (.insertCode row))
  have codes : (exec conditions s (.statement (.insertCode row))).2.codes =
      s.codes ++ [row] := by
    cases effect with
    | adds _ _ _ _ same _ codes _ _ _ =>
        cases same
        exact codes
    | same plain _ _ _ _ => exact absurd (plain.adds.symm.trans adds) (by simp)
    | drops _ plain _ _ _ _ _ _ =>
        exact absurd (plain.adds.symm.trans adds) (by simp)
    | begins none_added _ _ _ _ _ _ =>
        exact absurd (none_added.symm.trans adds) (by simp)
    | erases _ _ plain _ _ _ _ _ _ _ =>
        exact absurd (plain.adds.symm.trans adds) (by simp)
    | links _ _ plain _ _ _ _ _ _ =>
        exact absurd (plain.adds.symm.trans adds) (by simp)
    | commits _ none_added _ _ _ _ =>
        exact absurd (none_added.symm.trans adds) (by simp)
    | rolls _ plain _ _ => exact absurd (plain.adds.symm.trans adds) (by simp)
    | unlinks _ plain _ _ _ _ _ =>
        exact absurd (plain.adds.symm.trans adds) (by simp)
  have later : Clock now
      (⟨task, s, .statement (.insertCode row),
        (exec conditions s (.statement (.insertCode row))).1⟩ :: trace) := by
    intro passage member instant told
    rcases List.mem_cons.mp member with same | earlier
    · rw [same] at told
      cases told
    · exact clock passage earlier instant told
  have below := capped row.subject now later
  rw [live_insert codes, if_pos ⟨rfl, unexpired⟩] at below
  exact below

/-- In every run of calls whose codes are all different, whatever their order
and that of their statements, a code is consumed once at most, before it
expires, and links to the subject that was given it; a Matrix identifier has
one link; a call that is refused changes nothing; and a subject has no more
live codes than it may, exactly when each insertion that another one has
overtaken since its call looked finds fewer. -/
theorem sound_iff_room (sha : Sha256) (moves : List (Move Call Conditions))
    (fresh : Throughout Fresh ((system sha).run Directory.empty moves).trace) :
    (∀ earlier, earlier <+: moves →
      Sound sha ((system sha).run Directory.empty earlier)) ↔
    Throughout Room ((system sha).run Directory.empty moves).trace := by
  constructor
  · intro sound
    have capped : ∀ earlier, earlier <+: moves →
        Capped ((system sha).run Directory.empty earlier).shared
          ((system sha).run Directory.empty earlier).trace :=
      fun earlier begins => (sound earlier begins).capped
    apply System.throughout_of_reached _ moves capped
    intro task s trace request conditions _ after
    exact room_of_capped task s trace request conditions after
  · intro room earlier begins
    have first : Throughout Fresh [] →
        Good Directory.empty [] ∧ AllDrawn sha [] := by
      intro _
      refine ⟨good_empty, ?_⟩
      intro passage member
      cases member
    obtain ⟨stages, holds⟩ := (link_outline sha).run first earlier
      (by intro move _; cases move <;> trivial)
    have freshly := System.throughout_of_earlier begins fresh
    have roomy := System.throughout_of_earlier begins room
    exact sound_of_outlined holds freshly ((holds.inv freshly).1.capped roomy)

/-- No other insertion for the subject comes between the look of a call and
its own. -/
def Unhurried (earlier : Trace) (passage : Passage) : Prop :=
  ∀ row, passage.adds = some row →
    overtaken passage.task row.subject earlier = false

theorem room_of_unhurried {trace : Trace}
    (unhurried : Throughout Unhurried trace) : Throughout Room trace := by
  induction trace with
  | nil => trivial
  | cons passage earlier induction =>
      refine ⟨?_, induction unhurried.2⟩
      intro row adds concluded
      rw [unhurried.1 row adds] at concluded
      cases concluded

/-- The digests of the codes that the runs draw. -/
def knownDigests : List (String × List UInt8) :=
  [("222222222222",
      [118, 235, 23, 168, 251, 23, 89, 103, 178, 20, 79, 28, 181, 54,
       215, 40, 20, 174, 71, 94, 185, 84, 40, 122, 172, 27, 89, 33, 204,
       109, 146, 32]),
    ("322222222222",
      [87, 176, 123, 59, 77, 196, 108, 41, 254, 76, 92, 237, 245, 153,
       171, 118, 152, 150, 3, 132, 223, 207, 144, 155, 222, 20, 218,
       249, 155, 35, 179, 94]),
    ("422222222222",
      [36, 211, 110, 66, 84, 144, 55, 222, 186, 122, 237, 75, 158, 253,
       219, 102, 240, 3, 14, 211, 208, 71, 78, 246, 254, 178, 187, 47,
       236, 160, 111, 224]),
    ("522222222222",
      [2, 60, 233, 14, 167, 127, 176, 240, 162, 132, 205, 72, 27, 231,
       145, 157, 163, 228, 147, 201, 114, 46, 52, 57, 18, 119, 104, 82,
       59, 25, 228, 16])]

/-- SHA-256 on these codes; what it gives for the others does not matter here,
as long as it tells them apart. -/
def knownDigest (code : String) : List UInt8 :=
  match knownDigests.lookup code with
  | some digest => digest
  | none => List.replicate 33 0 ++ code.toByteArray.data.toList

theorem mem_of_lookup {code : String} {digest : List UInt8}
    (found : knownDigests.lookup code = some digest) :
    (code, digest) ∈ knownDigests := by
  obtain ⟨before, after, split, _⟩ := List.lookup_eq_some_iff.mp found
  rw [split]
  exact List.mem_append_right before List.mem_cons_self

theorem knownDigest_injective {code other : String}
    (same : knownDigest code = knownDigest other) : code = other := by
  have short : ∀ entry ∈ knownDigests, entry.2.length = 32 := by decide
  have apart : (knownDigests.map Prod.snd).Nodup := by decide
  unfold knownDigest at same
  cases found : knownDigests.lookup code with
  | some digest =>
      rw [found] at same
      cases otherFound : knownDigests.lookup other with
      | some otherDigest =>
          rw [otherFound] at same
          have one := List.inj_on_of_nodup_map apart (mem_of_lookup found)
            (mem_of_lookup otherFound) same
          exact congrArg Prod.fst one
      | none =>
          rw [otherFound] at same
          have long := congrArg List.length same
          rw [short _ (mem_of_lookup found)] at long
          simp at long
  | none =>
      rw [found] at same
      cases otherFound : knownDigests.lookup other with
      | some otherDigest =>
          rw [otherFound] at same
          have long := congrArg List.length same
          rw [short _ (mem_of_lookup otherFound)] at long
          simp at long
      | none =>
          rw [otherFound] at same
          apply String.toByteArray_inj.mp
          apply ByteArray.ext
          apply Array.toList_inj.mp
          exact List.append_cancel_left same

def knownSha : Sha256 where
  digest := knownDigest
  distinct same := knownDigest_injective same

/-- The source of entropy gives this byte, then zeros. -/
def drawing (first : UInt8) : Conditions :=
  { bytes := (Vector.replicate 12 0).set 0 first }

def alice : CallerPrincipal :=
  { userId := 1, subject := "alice", isAdmin := false }

/-- The statements of a call that issues a code and has none to delete. -/
def issuing (task : ℕ) (first : UInt8) : List (Move Call Conditions) :=
  [.start (.issue alice 0), .step task {}, .step task {},
    .step task (drawing first), .step task {}]

/-- Alice has two codes; two calls then look for them before either inserts
its own. -/
def overtaking : List (Move Call Conditions) :=
  issuing 0 0 ++ issuing 1 1 ++
    [.start (.issue alice 0), .start (.issue alice 0), .step 2 {}, .step 2 {},
      .step 3 {}, .step 3 {}, .step 2 (drawing 2), .step 2 {},
      .step 3 (drawing 3), .step 3 {}]

instance (earlier : Trace) (passage : Passage) :
    Decidable (Fresh earlier passage) :=
  decidable_of_iff
    (∀ code ∈ passage.draws, ∀ past ∈ earlier, past.draws ≠ some code) Iff.rfl

instance (now : Instant) (trace : Trace) : Decidable (Clock now trace) :=
  decidable_of_iff
    (∀ passage ∈ trace, ∀ instant ∈ Passage.instant passage, instant ≤ now)
    Iff.rfl

instance (earlier : Trace) (passage : Passage) :
    Decidable (Unhurried earlier passage) :=
  decidable_of_iff
    (∀ row ∈ passage.adds, overtaken passage.task row.subject earlier = false)
    Iff.rfl

/-- Alice is given a code and presents it. -/
def linking : List (Move Call Conditions) :=
  issuing 0 0 ++
    .start (.consume "@alice:srv" "222222222222" 1) ::
      List.replicate 8 (.step 1 {})

theorem sound_linking :
    Sound knownSha ((system knownSha).run Directory.empty linking) ∧
      ((system knownSha).run Directory.empty linking).shared.links =
        [{ mxid := "@alice:srv", subject := "alice", createdAt := 1 }] := by
  constructor
  · apply (sound_iff_room knownSha linking (by decide +kernel)).mpr
    · exact room_of_unhurried (by decide +kernel)
    · exact List.prefix_refl _
  · decide +kernel

/-- Alice has four live codes. -/
theorem cap_exceeded :
    ¬∀ moves : List (Move Call Conditions),
      Throughout Fresh ((system knownSha).run Directory.empty moves).trace →
      Sound knownSha ((system knownSha).run Directory.empty moves) := by
  intro all
  have sound := all overtaking (by decide +kernel)
  have below := sound.capped "alice" 0 (by decide +kernel)
  exact absurd below (by decide +kernel)

end MiryadCore.Chat
