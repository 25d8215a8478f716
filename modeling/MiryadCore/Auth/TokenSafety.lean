import MiryadCore.Auth.TokenSteps

/-!
# Whom a token authenticates

A token that is accepted was allocated and not revoked when its row was read,
and its row is that of one subject for as long as it lasts.
-/

namespace MiryadCore.Auth

/-- The row was inserted, and has not been revoked since. -/
def Standing (trace : List Turn) (row : Token) : Prop :=
  ∃ since turn before, trace = since ++ turn :: before ∧
    inserted turn = some row ∧ ∀ past ∈ since, revoked past ≠ some row.id

/-- A row that is read stands, and is that of the subject of an earlier row
with its hash, unless the latter was revoked. -/
def Reads (before : List Turn) (turn : Turn) : Prop :=
  ∀ record, selected turn = some record →
    record ∈ turn.before.rows ∧ Standing before record.kept ∧
    ∀ between past earlier, before = between ++ past :: earlier →
      ∀ other, selected past = some other →
        other.tokenHash = record.tokenHash →
        other.subject = record.subject ∨
          ∃ gone ∈ between, revoked gone = some other.id

structure Good (tokens : Tokens) (trace : List Turn) : Prop where
  ids : (tokens.kept.map Token.id).Nodup
  below : ∀ row ∈ tokens.kept, row.id < tokens.nextId
  hashes : (tokens.kept.map Token.tokenHash).Nodup
  made : ∀ row ∈ tokens.kept, Standing trace row
  lasting : ∀ later turn earlier, trace = later ++ turn :: earlier →
    ∀ record, selected turn = some record → record.kept ∈ tokens.kept ∨
      ∃ past ∈ later, revoked past = some record.id
  reads : Throughout Reads trace

theorem Standing.cons {trace : List Turn} {row : Token}
    (standing : Standing trace row) {turn : Turn}
    (keeps : revoked turn ≠ some row.id) : Standing (turn :: trace) row := by
  obtain ⟨since, past, before, rfl, adds, lasts⟩ := standing
  refine ⟨turn :: since, past, before, rfl, adds, ?_⟩
  intro other member
  rcases List.mem_cons.mp member with here | earlier
  · rw [here]
    exact keeps
  · exact lasts other earlier

theorem changes_of_selected {turn : Turn} {record : Token}
    (reads : selected turn = some record) :
    inserted turn = none ∧ revoked turn = none := by
  obtain ⟨_, _, _, rfl⟩ := selected_eq_some reads
  exact ⟨rfl, rfl⟩

section Keeps

variable {tokens after : Tokens} {trace : List Turn} {turn : Turn}

theorem Good.made_step (good : Good tokens trace)
    (effect : Effect tokens after turn) :
    ∀ row ∈ after.kept, Standing (turn :: trace) row := by
  intro row member
  cases effect with
  | none same grown nothing keeps =>
      rw [same] at member
      exact (good.made row member).cons (by simp [keeps])
  | insert new adds keeps unused grown fresh next free request =>
      rw [grown] at member
      rcases List.mem_append.mp member with old | last
      · exact (good.made row old).cons (by simp [keeps])
      · rw [List.mem_singleton.mp last]
        exact ⟨[], turn, trace, rfl, adds, by simp⟩
  | delete id deletes nothing left same =>
      rw [left, List.mem_filter, decide_eq_true_eq] at member
      apply (good.made row member.1).cons
      rw [deletes]
      exact fun here => member.2 (Option.some.inj here).symm

theorem Good.lasting_step (good : Good tokens trace)
    (effect : Effect tokens after turn)
    (there : ∀ record, selected turn = some record → record ∈ tokens.rows) :
    ∀ later past earlier, turn :: trace = later ++ past :: earlier →
      ∀ record, selected past = some record → record.kept ∈ after.kept ∨
        ∃ gone ∈ later, revoked gone = some record.id := by
  intro later past earlier split record reads
  cases later with
  | nil =>
      obtain ⟨rfl, rfl⟩ := List.cons.inj split
      left
      obtain ⟨noInsert, noDelete⟩ := changes_of_selected reads
      have member : record.kept ∈ tokens.kept :=
        List.mem_map_of_mem (there record reads)
      cases effect with
      | none same grown nothing keeps => rw [same]; exact member
      | insert new adds keeps unused grown fresh next free request =>
          rw [noInsert] at adds
          cases adds
      | delete id deletes nothing left same =>
          rw [noDelete] at deletes
          cases deletes
  | cons latest later =>
      obtain ⟨rfl, rfl⟩ := List.cons.inj split
      rcases good.lasting later past earlier rfl record reads with
        member | gone
      · cases effect with
        | none same grown nothing keeps => exact Or.inl (same ▸ member)
        | insert new adds keeps unused grown fresh next free request =>
            left
            rw [grown]
            exact List.mem_append_left _ member
        | delete id deletes nothing left same =>
            by_cases here : record.id = id
            · exact Or.inr ⟨turn, List.mem_cons_self, by rw [deletes, here]⟩
            · left
              rw [left, List.mem_filter, decide_eq_true_eq]
              exact ⟨member, here⟩
      · obtain ⟨gone, member, revokes⟩ := gone
        exact Or.inr ⟨gone, List.mem_cons_of_mem _ member, revokes⟩

theorem Good.reads_step (good : Good tokens trace) (here : turn.before = tokens)
    (there : ∀ record, selected turn = some record → record ∈ tokens.rows) :
    Reads trace turn := by
  intro record reads
  have member := there record reads
  have kept : record.kept ∈ tokens.kept := List.mem_map_of_mem member
  refine ⟨here ▸ member, good.made _ kept, ?_⟩
  intro between past earlier split other readsOther sameHash
  rcases good.lasting between past earlier split other readsOther with
    standing | gone
  · left
    have same := List.inj_on_of_nodup_map good.hashes standing kept sameHash
    have subjects := congrArg Token.subject same
    exact subjects
  · exact Or.inr gone

theorem Good.step (good : Good tokens trace)
    (effect : Effect tokens after turn) (here : turn.before = tokens)
    (there : ∀ record, selected turn = some record → record ∈ tokens.rows) :
    Good after (turn :: trace) := by
  refine ⟨?_, ?_, ?_, good.made_step effect, good.lasting_step effect there,
    good.reads_step here there, good.reads⟩
  · cases effect with
    | none same grown nothing keeps => rw [same]; exact good.ids
    | insert new adds keeps unused grown fresh next free request =>
        rw [grown, List.map_append, List.map_singleton]
        apply good.ids.append (List.nodup_singleton _)
        rw [List.disjoint_singleton]
        intro member
        obtain ⟨row, old, same⟩ := List.mem_map.mp member
        have before := good.below row old
        omega
    | delete id deletes nothing left same =>
        rw [left]
        exact good.ids.sublist (List.filter_sublist.map _)
  · cases effect with
    | none same grown nothing keeps =>
        intro row member
        rw [same] at member
        exact (good.below row member).trans_le grown
    | insert new adds keeps unused grown fresh next free request =>
        intro row member
        rw [grown] at member
        rcases List.mem_append.mp member with old | last
        · have before := good.below row old
          omega
        · rw [List.mem_singleton.mp last]
          omega
    | delete id deletes nothing left same =>
        intro row member
        rw [left] at member
        rw [same]
        exact good.below row (List.mem_of_mem_filter member)
  · cases effect with
    | none same grown nothing keeps => rw [same]; exact good.hashes
    | insert new adds keeps unused grown fresh next free request =>
        rw [grown, List.map_append, List.map_singleton]
        exact good.hashes.append (List.nodup_singleton _)
          (List.disjoint_singleton.mpr free)
    | delete id deletes nothing left same =>
        rw [left]
        exact good.hashes.sublist (List.filter_sublist.map _)

end Keeps

/-- The table before any token. -/
def start (clock nextId : ℤ) : Tokens :=
  { clock, rows := [], nextId }

/-- The row that a task which accepted a token has read stands, and is live. -/
structure Trusted (secrets : Secrets) (trace : List Turn) (task : ℕ)
    (token : String) (principal : Rest.AuthPrincipal) (later : List Turn)
    (read : Turn) (since : List Turn) (allocation : Turn) (before : List Turn)
    (record : Token) : Prop where
  trace : trace = later ++ read :: (since ++ allocation :: before)
  mine : read.task = task
  reads : selected read = some record
  there : record ∈ read.before.rows
  hashed : secrets.hashToken token = .ok record.tokenHash
  subject : principal.subject = record.subject
  source : principal.source = .apiToken record.id
  live : ∀ expiry, record.expiresAt = some expiry → read.before.clock < expiry
  allocated : inserted allocation = some record.kept
  standing : ∀ past ∈ since, revoked past ≠ some record.id

section Served

variable {call : Type}
  {sys : System call Request Request.Reply Conditions Tokens Answer}
  (served : sys.exec = exec) (clock nextId : ℤ)
  (moves : List (Move call Conditions))

include served

theorem good_of_served : Good (sys.run (start clock nextId) moves).shared
    (sys.run (start clock nextId) moves).trace := by
  apply System.holds_of_run Good
  case begins =>
    refine ⟨List.nodup_nil, ?_, List.nodup_nil, ?_, ?_, trivial⟩
    · intro row member
      cases member
    · intro row member
      cases member
    · intro later turn earlier split
      simp at split
  case keeps =>
    intro moves task conditions call request rest _ good
    rw [served]
    apply good.step (effect_of_exec _ conditions task request) rfl
    intro record reads
    exact (selected_of_exec reads).1

variable {clock nextId moves}

theorem effect_of_trace {turn : Turn}
    (member : turn ∈ (sys.run (start clock nextId) moves).trace) :
    ∃ after, Effect turn.before after turn := by
  obtain ⟨conditions, answered⟩ := System.answer_of_trace moves turn member
  have effect := effect_of_exec turn.before conditions turn.task turn.request
  rw [served] at answered
  rw [← answered] at effect
  exact ⟨_, effect⟩

theorem reading_of_trace {task : ℕ} {before : Tokens} {now : ℤ}
    (member : (⟨task, before, .now, now⟩ : Turn) ∈
      (sys.run (start clock nextId) moves).trace) : now = before.clock := by
  obtain ⟨conditions, answered⟩ := System.answer_of_trace moves _ member
  rw [served] at answered
  exact answered

theorem selected_of_trace {turn : Turn}
    (member : turn ∈ (sys.run (start clock nextId) moves).trace)
    {record : Token} (reads : selected turn = some record) :
    record ∈ turn.before.rows ∧ turn.request = .select record.tokenHash := by
  obtain ⟨conditions, answered⟩ := System.answer_of_trace moves turn member
  obtain ⟨task, before, request, answer⟩ := turn
  rw [served] at answered
  dsimp only at answered
  subst answered
  exact selected_of_exec reads

theorem request_of_inserted {turn : Turn}
    (member : turn ∈ (sys.run (start clock nextId) moves).trace)
    {row : Token} (adds : inserted turn = some row) :
    turn.request = .insert row.subject row.name row.tokenHash row.createdAt
      row.expiresAt ∧ row.kept = row := by
  obtain ⟨after, effect⟩ := effect_of_trace served member
  cases effect with
  | none same grown nothing keeps =>
      rw [adds] at nothing
      cases nothing
  | insert new adds' keeps unused grown fresh next free request =>
      rw [adds] at adds'
      obtain rfl := Option.some.inj adds'
      refine ⟨request, ?_⟩
      rw [Token.kept, ← unused]
  | delete id deletes nothing left same =>
      rw [adds] at nothing
      cases nothing

theorem trusted_of_served {secrets : Secrets} {task : ℕ} {asked : call}
    {token : String} {principal : Rest.AuthPrincipal}
    (validates : sys.program asked = validateToken secrets token)
    (returns : (sys.run (start clock nextId) moves).tasks[task]? =
      some (asked, .done (.validated (.ok principal)))) :
    ∃ later read since allocation before record,
      Trusted secrets (sys.run (start clock nextId) moves).trace task token
        principal later read since allocation before record := by
  have follows := System.follows moves returns
  rw [validates] at follows
  obtain ⟨hash, asker, there, record, more, hashed, turns, subject, source, _,
    expires⟩ := (validate_course follows).2 principal rfl
  obtain ⟨later, earlier, trace, after, _⟩ :=
    Pool.trace_of_turns (turns.trans (List.nil_append _).symm)
  have member := Pool.mem_turns.mp
    (turns ▸ List.mem_cons_self :
      (⟨asker, there, .select hash, .ok (some record)⟩ : Turn) ∈ _)
  have reads := (good_of_served served clock nextId moves).reads
  rw [trace] at reads
  obtain ⟨present, ⟨since, allocation, before, rfl, allocated, standing⟩, _⟩ :=
    reads.at record rfl
  obtain rfl := Request.select.inj (selected_of_trace served member.1 rfl).2
  refine ⟨later, _, since, allocation, before, record, trace, member.2, rfl,
    present, hashed, subject, source, ?_, allocated, standing⟩
  intro expiry same
  obtain ⟨reader, place, now, read, live⟩ := expires expiry same
  have inTrace : (⟨reader, place, .now, now⟩ : Turn) ∈
      (sys.run (start clock nextId) moves).trace := by
    rw [trace]
    exact List.mem_append_left _ (after _ read)
  have grown := (System.grown_of_run sys
    (fun before after => before.clock ≤ after.clock) le_trans
    (fun conditions s request => served ▸ exec_clock conditions s request)
    moves).2 _ _ _ trace _ (after _ read)
  rw [reading_of_trace served inTrace] at live
  exact lt_of_le_of_lt grown live

end Served

section Run

variable {secrets : Secrets} {clock nextId : ℤ}
  {moves : List (Move Call Conditions)}

theorem allocated_of_run {turn : Turn}
    (member : turn ∈
      ((system secrets).run (start clock nextId) moves).trace)
    {row : Token} (adds : inserted turn = some row) :
    ∃ call left token,
      ((system secrets).run (start clock nextId) moves).tasks[turn.task]? =
        some (call, left) ∧
      secrets.hashToken token = .ok row.tokenHash ∧
      Allocates call left token row := by
  have older := System.task_lt_of_trace moves turn member
  have found := List.getElem?_eq_getElem older
  obtain ⟨token, hashed, allocates⟩ := allocates_of_inserted
    (System.follows moves found) (Pool.mem_turns.mpr ⟨member, rfl⟩) adds
    (request_of_inserted (system_exec secrets) member adds).1
  exact ⟨_, _, token, found, hashed, allocates⟩

end Run

/-- The row that a call which accepted a token has read, and how it came to be
there. -/
structure Authentic (secrets : Secrets) (pool : Calls) (task : ℕ)
    (token : String) (principal : Rest.AuthPrincipal) (later : List Turn)
    (read : Turn) (since : List Turn) (allocation : Turn) (before : List Turn)
    (record : Token) : Prop where
  trace : pool.trace = later ++ read :: (since ++ allocation :: before)
  mine : read.task = task
  reads : selected read = some record
  there : record ∈ read.before.rows
  hashed : secrets.hashToken token = .ok record.tokenHash
  subject : principal.subject = record.subject
  source : principal.source = .apiToken record.id
  live : ∀ expiry, record.expiresAt = some expiry → read.before.clock < expiry
  allocated : inserted allocation = some record.kept
  allocates : ∃ call left, pool.tasks[allocation.task]? = some (call, left) ∧
    Allocates call left token record
  standing : ∀ past ∈ since, revoked past ≠ some record.id

/-- What the calls on tokens keep. -/
structure Sound (secrets : Secrets) (clock nextId : ℤ)
    (moves : List (Move Call Conditions)) : Prop where
  authentic : ∀ {task : ℕ} {token : String} {principal : Rest.AuthPrincipal},
    ((system secrets).run (start clock nextId) moves).tasks[task]? =
      some (.validate token, .done (.validated (.ok principal))) →
    ∃ later read since allocation before record,
      Authentic secrets ((system secrets).run (start clock nextId) moves) task
        token principal later read since allocation before record
  single : ∀ {one other : ℕ} {token : String}
      {principal principal' : Rest.AuthPrincipal},
    ((system secrets).run (start clock nextId) moves).tasks[one]? =
      some (.validate token, .done (.validated (.ok principal))) →
    ((system secrets).run (start clock nextId) moves).tasks[other]? =
      some (.validate token, .done (.validated (.ok principal'))) →
    ∀ later read' between read earlier,
      ((system secrets).run (start clock nextId) moves).trace =
        later ++ read' :: (between ++ read :: earlier) →
      read.task = one → (selected read).isSome = true →
      read'.task = other → (selected read').isSome = true →
      principal.subject = principal'.subject ∨
        ∃ gone ∈ between, ∃ id, revoked gone = some id ∧
          principal.source = .apiToken id
  validation : ∀ {task : ℕ} {token : String} {left : Code},
    ((system secrets).run (start clock nextId) moves).tasks[task]? =
      some (.validate token, left) →
    ∀ earlier conditions, earlier ++ [.step task conditions] <+: moves →
      ((system secrets).run (start clock nextId)
          (earlier ++ [.step task conditions])).shared.kept =
        ((system secrets).run (start clock nextId) earlier).shared.kept
  ensured : ∀ {task : ℕ} {subject name token : String}
      {expiresAt : Option ℤ} {earlier : List (Move Call Conditions)}
      {move : Move Call Conditions}, earlier ++ [move] <+: moves →
    ((system secrets).run (start clock nextId) (earlier ++ [move])).tasks[task]? =
      some (.ensure subject name token expiresAt, .done (.ensured (.ok ()))) →
    ((system secrets).run (start clock nextId) earlier).tasks[task]? ≠
      some (.ensure subject name token expiresAt, .done (.ensured (.ok ()))) →
    ∃ row ∈ ((system secrets).run (start clock nextId)
        (earlier ++ [move])).shared.rows,
      row.subject = subject ∧ secrets.hashToken token = .ok row.tokenHash

section Run

variable {secrets : Secrets} {clock nextId : ℤ}
  {moves : List (Move Call Conditions)}

theorem authentic_of_run {task : ℕ} {token : String}
    {principal : Rest.AuthPrincipal}
    (returns : ((system secrets).run (start clock nextId) moves).tasks[task]? =
      some (.validate token, .done (.validated (.ok principal)))) :
    ∃ later read since allocation before record,
      Authentic secrets ((system secrets).run (start clock nextId) moves) task
        token principal later read since allocation before record := by
  obtain ⟨later, read, since, allocation, before, record, trusted⟩ :=
    trusted_of_served (system_exec secrets) rfl returns
  refine ⟨later, read, since, allocation, before, record, trusted.trace,
    trusted.mine, trusted.reads, trusted.there, trusted.hashed,
    trusted.subject, trusted.source, trusted.live, trusted.allocated, ?_,
    trusted.standing⟩
  have placed : allocation ∈
      ((system secrets).run (start clock nextId) moves).trace := by
    rw [trusted.trace]
    simp
  obtain ⟨call, left, token', found, hashed', allocates⟩ :=
    allocated_of_run placed trusted.allocated
  rw [secrets.injective trusted.hashed hashed']
  exact ⟨call, left, found, allocates⟩

/-- The turn at which a call that accepted a token has read its row. -/
theorem read_of_run {task : ℕ} {token : String}
    {principal : Rest.AuthPrincipal}
    (returns : ((system secrets).run (start clock nextId) moves).tasks[task]? =
      some (.validate token, .done (.validated (.ok principal))))
    {read : Turn}
    (member : read ∈ ((system secrets).run (start clock nextId) moves).trace)
    (mine : read.task = task) (reads : (selected read).isSome = true) :
    ∃ record, selected read = some record ∧
      principal.subject = record.subject ∧
      principal.source = .apiToken record.id ∧
      secrets.hashToken token = .ok record.tokenHash := by
  obtain ⟨hash, asker, there, record, more, hashed, turns, subject, source,
    others, _⟩ := (validate_course (System.follows moves returns)).2 principal rfl
  have turn := Pool.mem_turns.mpr ⟨member, mine⟩
  rw [turns] at turn
  rcases List.mem_cons.mp turn with here | later
  · subst here
    obtain rfl := Request.select.inj (selected_of_trace (system_exec secrets) member rfl).2
    exact ⟨record, rfl, subject, source, hashed⟩
  · rw [others read later] at reads
    cases reads

theorem single_of_run {one other : ℕ} {token : String}
    {principal principal' : Rest.AuthPrincipal}
    (returns : ((system secrets).run (start clock nextId) moves).tasks[one]? =
      some (.validate token, .done (.validated (.ok principal))))
    (returns' : ((system secrets).run (start clock nextId) moves).tasks[other]? =
      some (.validate token, .done (.validated (.ok principal'))))
    (later : List Turn) (read' : Turn) (between : List Turn) (read : Turn)
    (earlier : List Turn)
    (trace : ((system secrets).run (start clock nextId) moves).trace =
      later ++ read' :: (between ++ read :: earlier))
    (mine : read.task = one) (reads : (selected read).isSome = true)
    (mine' : read'.task = other) (reads' : (selected read').isSome = true) :
    principal.subject = principal'.subject ∨
      ∃ gone ∈ between, ∃ id, revoked gone = some id ∧
        principal.source = .apiToken id := by
  obtain ⟨record, selects, subject, source, hashed⟩ :=
    read_of_run returns (trace ▸ by simp) mine reads
  obtain ⟨record', selects', subject', _, hashed'⟩ :=
    read_of_run returns' (trace ▸ by simp) mine' reads'
  have sameHash : record.tokenHash = record'.tokenHash := by
    rw [hashed] at hashed'
    exact Except.ok.inj hashed'
  have all := (good_of_served (system_exec secrets) clock nextId moves).reads
  rw [trace] at all
  rcases (all.at record' selects').2.2 between read earlier rfl record selects
    sameHash with same | gone
  · left
    rw [subject, subject', same]
  · obtain ⟨gone, member, revokes⟩ := gone
    exact Or.inr ⟨gone, member, record.id, revokes, source⟩

theorem validation_of_run {task : ℕ} {token : String} {left : Code}
    (found : ((system secrets).run (start clock nextId) moves).tasks[task]? =
      some (.validate token, left))
    (earlier : List (Move Call Conditions)) (conditions : Conditions)
    (begins : earlier ++ [.step task conditions] <+: moves) :
    ((system secrets).run (start clock nextId)
        (earlier ++ [.step task conditions])).shared.kept =
      ((system secrets).run (start clock nextId) earlier).shared.kept := by
  rcases System.move_cases (system secrets) (start clock nextId) earlier
    (.step task conditions) with same | asks
  · rw [same.1]
  · obtain ⟨mover, during, request, same, is, grown⟩ := asks
    cases same
    have member := (System.trace_suffix (system secrets) (start clock nextId)
      begins).subset
    rw [grown, system_exec] at member
    have turn := Pool.mem_turns.mpr ⟨member List.mem_cons_self, rfl⟩
    have reading := (validate_course (System.follows moves found)).1 _ turn
    rw [is, system_exec]
    have effect := effect_of_exec
      ((system secrets).run (start clock nextId) earlier).shared conditions task
      request
    cases effect with
    | none same grown nothing keeps => exact same
    | insert new adds keeps unused grown fresh next free request =>
        rw [inserted_of_reading reading] at adds
        cases adds
    | delete id deletes nothing left same =>
        rw [revoked_of_reading reading] at deletes
        cases deletes

theorem ensured_of_run {task : ℕ} {subject name token : String}
    {expiresAt : Option ℤ} {earlier : List (Move Call Conditions)}
    {move : Move Call Conditions}
    (after : ((system secrets).run (start clock nextId)
        (earlier ++ [move])).tasks[task]? =
      some (.ensure subject name token expiresAt, .done (.ensured (.ok ()))))
    (before : ((system secrets).run (start clock nextId)
        earlier).tasks[task]? ≠
      some (.ensure subject name token expiresAt, .done (.ensured (.ok ())))) :
    ∃ row ∈ ((system secrets).run (start clock nextId)
        (earlier ++ [move])).shared.rows,
      row.subject = subject ∧
        secrets.hashToken token = .ok row.tokenHash := by
  have course := ensure_course (System.follows (earlier ++ [move]) after)
  rcases System.returns_of_move earlier move after before with
    atOnce | asked
  · have started : (ensureToken secrets subject name token expiresAt).Follows
        ([] : List Turn) (.done (.ensured (.ok ()))) := atOnce.symm
    rcases ensure_course started with found | added
    · obtain ⟨_, _, _, _, impossible, _⟩ := found.2 rfl
      cases impossible
    · obtain ⟨_, _, _, _, _, _, _, _, impossible, _⟩ := added
      simp at impossible
  · obtain ⟨conditions, request, _, is, grown⟩ := asked
    rw [system_exec] at is grown
    have last : (((system secrets).run (start clock nextId)
        (earlier ++ [move])).turns task).getLast? = some ⟨task,
          ((system secrets).run (start clock nextId) earlier).shared, request,
          (exec conditions ((system secrets).run (start clock nextId)
            earlier).shared request).1⟩ := by
      rw [Pool.turns, grown, List.filter_cons_of_pos (by simp),
        List.reverse_cons, List.getLast?_concat]
    have effect := effect_of_exec
      ((system secrets).run (start clock nextId) earlier).shared conditions task
      request
    suffices kept : ∃ row ∈ (exec conditions ((system secrets).run
        (start clock nextId) earlier).shared request).2.kept,
        row.subject = subject ∧
          secrets.hashToken token = .ok row.tokenHash by
      obtain ⟨_, member, mine, hashed⟩ := kept
      obtain ⟨row, there, rfl⟩ := List.mem_map.mp member
      exact ⟨row, is ▸ there, mine, hashed⟩
    rcases course with found | added
    · obtain ⟨hash, turn, existing, hashed, ends, asks, selects, mine⟩ :=
        found.2 rfl
      obtain rfl := Option.some.inj (last.symm.trans ends)
      obtain ⟨there, same⟩ := selected_of_exec selects
      obtain rfl : request = .select hash := asks
      obtain rfl := Request.select.inj same
      refine ⟨existing.kept, ?_, mine, hashed⟩
      obtain ⟨noInsert, noDelete⟩ := changes_of_selected selects
      cases effect with
      | none same grown nothing keeps =>
          rw [same]
          exact List.mem_map_of_mem there
      | insert new adds keeps unused grown fresh next free request =>
          rw [noInsert] at adds
          cases adds
      | delete id deletes nothing left same =>
          rw [noDelete] at deletes
          cases deletes
    · obtain ⟨hash, createdAt, early, asker, place, row, hashed, _, turns, _⟩ :=
        added
      rw [turns, List.getLast?_concat] at last
      have turn := Option.some.inj last
      rw [← turn] at effect
      cases effect with
      | none same grown nothing keeps => cases nothing
      | insert new adds keeps unused grown fresh next free request =>
          cases request
          rw [grown]
          exact ⟨new, List.mem_append_right _ (List.mem_singleton_self _), rfl,
            hashed⟩
      | delete id deletes nothing left same => cases nothing

end Run

/-- In every run of calls on tokens, those that are accepted are allocated, not
revoked and live when they are read, each to one subject at a time. -/
theorem tokens_sound (secrets : Secrets) (clock nextId : ℤ)
    (moves : List (Move Call Conditions)) :
    Sound secrets clock nextId moves :=
  ⟨authentic_of_run, single_of_run, validation_of_run,
    fun _ => ensured_of_run⟩

end MiryadCore.Auth
