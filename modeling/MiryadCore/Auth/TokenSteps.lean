import MiryadCore.Auth.Tokens

/-!
# The turns of the calls on tokens

What a turn does to the rows, and what a call has done when it has come to some
point.
-/

namespace MiryadCore.Auth

/-- The row without what a validation may write. -/
def Token.kept (row : Token) : Token :=
  { row with lastUsedAt := none }

def Tokens.kept (tokens : Tokens) : List Token :=
  tokens.rows.map Token.kept

/-- The row that a turn inserts. -/
def inserted : Turn → Option Token
  | ⟨_, _, .insert _ _ _ _ _, .ok row⟩ => some row
  | _ => none

/-- The row that a turn reads. -/
def selected : Turn → Option Token
  | ⟨_, _, .select _, .ok found⟩ => found
  | _ => none

/-- The row that a turn deletes, if it is there, by its key. -/
def revoked : Turn → Option ℤ
  | ⟨_, _, .delete id, .ok _⟩ => some id
  | _ => none

theorem selected_eq_some {turn : Turn} {record : Token}
    (reads : selected turn = some record) :
    ∃ task before hash,
      turn = ⟨task, before, .select hash, .ok (some record)⟩ := by
  obtain ⟨task, before, request, answer⟩ := turn
  cases request with
  | select hash =>
      cases answer with
      | error error => cases reads
      | ok found =>
          obtain rfl : found = some record := reads
          exact ⟨task, before, hash, rfl⟩
  | random => cases reads
  | now => cases reads
  | insert subject name hash createdAt expiresAt => cases reads
  | touch id lastUsedAt => cases reads
  | delete id => cases reads

/-- What the rows become. -/
inductive Effect (before after : Tokens) (turn : Turn) : Prop
  | none (same : after.kept = before.kept) (grown : before.nextId ≤ after.nextId)
      (nothing : inserted turn = .none) (keeps : revoked turn = .none)
  | insert (row : Token) (adds : inserted turn = some row)
      (keeps : revoked turn = .none) (unused : row.lastUsedAt = .none)
      (grown : after.kept = before.kept ++ [row])
      (new : before.nextId ≤ row.id) (next : after.nextId = row.id + 1)
      (fresh : row.tokenHash ∉ before.kept.map Token.tokenHash)
      (request : turn.request = .insert row.subject row.name row.tokenHash
        row.createdAt row.expiresAt)
  | delete (id : ℤ) (deletes : revoked turn = some id)
      (nothing : inserted turn = .none)
      (left : after.kept = before.kept.filter fun row => row.id ≠ id)
      (same : after.nextId = before.nextId)

theorem Tokens.touch_kept (tokens : Tokens) (id lastUsedAt : ℤ) :
    (tokens.touch id lastUsedAt).2.kept = tokens.kept ∧
      (tokens.touch id lastUsedAt).2.nextId = tokens.nextId := by
  unfold Tokens.touch
  split
  next =>
    refine ⟨?_, rfl⟩
    simp only [Tokens.kept, List.map_map]
    apply List.map_congr_left
    intro row _
    rw [Function.comp_apply]
    split
    next => rfl
    next => rfl
  next => exact ⟨rfl, rfl⟩

theorem Tokens.delete_kept (tokens : Tokens) (id : ℤ) :
    (tokens.delete id).2.kept =
      tokens.kept.filter fun row => row.id ≠ id := by
  simp only [Tokens.delete, Tokens.kept, List.filter_map]
  rfl

theorem nextval_ok {next id : ℤ} {gap : ℕ}
    (drawn : Users.nextval next gap = .ok id) : next ≤ id := by
  unfold Users.nextval at drawn
  split at drawn
  next => cases drawn
  next =>
    obtain rfl := Except.ok.inj drawn
    omega

theorem effect_of_insert (tokens : Tokens) (conditions : Conditions)
    (task : ℕ) (subject name hash : String) (createdAt : ℤ)
    (expiresAt : Option ℤ) :
    Effect tokens (exec conditions tokens
        (.insert subject name hash createdAt expiresAt)).2
      ⟨task, tokens, .insert subject name hash createdAt expiresAt,
        (exec conditions tokens
          (.insert subject name hash createdAt expiresAt)).1⟩ := by
  cases fault : conditions.fault with
  | some error =>
      simp only [exec, Tokens.perform, fault]
      exact .none rfl le_rfl rfl rfl
  | none =>
      cases drawn : Users.nextval tokens.nextId conditions.gap with
      | error error =>
          simp only [exec, Tokens.perform, fault, Tokens.insert, drawn]
          exact .none rfl le_rfl rfl rfl
      | ok id =>
          have new := nextval_ok drawn
          by_cases taken :
              (tokens.rows.any fun row => row.tokenHash = hash) = true
          · simp only [exec, Tokens.perform, fault, Tokens.insert, drawn,
              if_pos taken]
            exact .none rfl (by dsimp only; omega) rfl rfl
          · simp only [exec, Tokens.perform, fault, Tokens.insert, drawn,
              if_neg taken]
            refine .insert _ rfl rfl rfl ?_ new rfl ?_ rfl
            · simp [Tokens.kept, Token.kept]
            · simpa [Tokens.kept, Token.kept] using taken

theorem effect_of_exec (tokens : Tokens) (conditions : Conditions) (task : ℕ)
    (request : Request) :
    Effect tokens (exec conditions tokens request).2
      ⟨task, tokens, request, (exec conditions tokens request).1⟩ := by
  cases request with
  | random => exact .none rfl le_rfl rfl rfl
  | now => exact .none rfl le_rfl rfl rfl
  | select hash =>
      cases fault : conditions.fault with
      | some error =>
          simp only [exec, Tokens.perform, fault]
          exact .none rfl le_rfl rfl rfl
      | none =>
          simp only [exec, Tokens.perform, fault]
          exact .none rfl le_rfl rfl rfl
  | insert subject name hash createdAt expiresAt =>
      exact effect_of_insert tokens conditions task subject name hash createdAt
        expiresAt
  | touch id lastUsedAt =>
      cases fault : conditions.fault with
      | some error =>
          simp only [exec, Tokens.perform, fault]
          exact .none rfl le_rfl rfl rfl
      | none =>
          obtain ⟨kept, next⟩ := tokens.touch_kept id lastUsedAt
          simp only [exec, Tokens.perform, fault]
          exact .none kept next.ge rfl rfl
  | delete id =>
      cases fault : conditions.fault with
      | some error =>
          simp only [exec, Tokens.perform, fault]
          exact .none rfl le_rfl rfl rfl
      | none =>
          simp only [exec, Tokens.perform, fault]
          exact .delete id rfl rfl (tokens.delete_kept id) rfl

/-- A row that is read is there. -/
theorem selected_of_exec {tokens : Tokens} {conditions : Conditions} {task : ℕ}
    {request : Request} {record : Token}
    (reads : selected ⟨task, tokens, request,
      (exec conditions tokens request).1⟩ = some record) :
    record ∈ tokens.rows ∧ request = .select record.tokenHash := by
  obtain ⟨_, _, hash, same⟩ := selected_eq_some reads
  cases request with
  | select asked =>
      cases fault : conditions.fault with
      | some error => simp [exec, Tokens.perform, fault, selected] at reads
      | none =>
          simp only [exec, Tokens.perform, fault, selected] at reads
          have member := List.mem_of_find?_eq_some reads
          have hashed := List.find?_some reads
          rw [decide_eq_true_eq] at hashed
          exact ⟨member, by rw [hashed]⟩
  | random => cases same
  | now => cases same
  | insert subject name hash createdAt expiresAt => cases same
  | touch id lastUsedAt => cases same
  | delete id => cases same

theorem Tokens.perform_clock (tokens : Tokens) (conditions : Conditions)
    (request : Request) :
    (tokens.perform conditions request).2.clock = tokens.clock := by
  cases request with
  | random => rfl
  | now => rfl
  | select hash =>
      cases fault : conditions.fault with
      | some error => simp only [Tokens.perform, fault]
      | none => simp only [Tokens.perform, fault]
  | insert subject name hash createdAt expiresAt =>
      cases fault : conditions.fault with
      | some error => simp only [Tokens.perform, fault]
      | none =>
          simp only [Tokens.perform, fault, Tokens.insert]
          split
          next => rfl
          next =>
            split
            next => rfl
            next => rfl
  | touch id lastUsedAt =>
      cases fault : conditions.fault with
      | some error => simp only [Tokens.perform, fault]
      | none =>
          simp only [Tokens.perform, fault, Tokens.touch]
          split
          next => rfl
          next => rfl
  | delete id =>
      cases fault : conditions.fault with
      | some error => simp only [Tokens.perform, fault]
      | none => simp only [Tokens.perform, fault, Tokens.delete]

theorem exec_clock (conditions : Conditions) (tokens : Tokens)
    (request : Request) :
    tokens.clock ≤ (exec conditions tokens request).2.clock := by
  show tokens.clock ≤
    (tokens.perform conditions request).2.clock + conditions.elapsed
  rw [tokens.perform_clock]
  omega

section Course

variable {secrets : Secrets} {turns : List Turn} {left : Code}

/-- The call that allocated a row has returned, or its task has. -/
def Allocates (call : Call) (left : Code) (token : String) (row : Token) :
    Prop :=
  (call = .issue row.subject row.name row.expiresAt ∧
    left = .done (.issued (.ok { id := row.id, token }))) ∨
  (call = .ensure row.subject row.name token row.expiresAt ∧
    left = .done (.ensured (.ok ())))

theorem issue_course {subject name : String} {expiresAt : Option ℤ}
    (follows : (issueToken secrets subject name expiresAt).Follows turns left)
    {turn : Turn} (member : turn ∈ turns) {row : Token}
    (adds : inserted turn = some row) :
    ∃ token hash createdAt, secrets.hashToken token = .ok hash ∧
      turn.request = .insert subject name hash createdAt expiresAt ∧
      left = .done (.issued (.ok { id := row.id, token })) := by
  rcases follows.of_call with start | first
  · rw [start.1] at member
    cases member
  obtain ⟨_, _, bytes, more, rfl, drawn⟩ := first
  rcases List.mem_cons.mp member with here | member
  · subst here
    cases adds
  dsimp only at drawn
  cases hashed : secrets.hashToken (generateToken secrets bytes) with
  | error error =>
      rw [hashed] at drawn
      rw [drawn.of_done.1] at member
      cases member
  | ok hash =>
      rw [hashed] at drawn
      rcases drawn.of_call with start | second
      · rw [start.1] at member
        cases member
      obtain ⟨_, _, createdAt, more, rfl, dated⟩ := second
      rcases List.mem_cons.mp member with here | member
      · subst here
        cases adds
      rcases dated.of_call with start | third
      · rw [start.1] at member
        cases member
      obtain ⟨_, _, answer, more, rfl, ended⟩ := third
      cases answer with
      | error error =>
          rw [ended.of_done.1] at member
          rw [List.mem_singleton.mp member] at adds
          cases adds
      | ok row' =>
          rw [ended.of_done.1] at member
          rw [List.mem_singleton.mp member] at adds ⊢
          obtain rfl := Option.some.inj adds
          exact ⟨_, hash, createdAt, hashed, rfl, ended.of_done.2⟩

theorem ensure_course {subject name token : String} {expiresAt : Option ℤ}
    (follows : (ensureToken secrets subject name token expiresAt).Follows turns
      left) :
    (∀ turn ∈ turns, inserted turn = none) ∧
      (left = .done (.ensured (.ok ())) →
        ∃ hash turn existing, secrets.hashToken token = .ok hash ∧
          turns.getLast? = some turn ∧ turn.request = .select hash ∧
          selected turn = some existing ∧ existing.subject = subject) ∨
    ∃ hash createdAt early task before row,
      secrets.hashToken token = .ok hash ∧
        (∀ turn ∈ early, inserted turn = none) ∧
        turns = early ++ [⟨task, before,
          .insert subject name hash createdAt expiresAt, .ok row⟩] ∧
        left = .done (.ensured (.ok ())) := by
  unfold ensureToken at follows
  cases hashed : secrets.hashToken token with
  | error error =>
      rw [hashed] at follows
      left
      rw [follows.of_done.1, follows.of_done.2]
      refine ⟨by simp, ?_⟩
      intro impossible
      cases impossible
  | ok hash =>
      rw [hashed] at follows
      rcases follows.of_call with start | first
      · left
        rw [start.1, start.2]
        refine ⟨by simp, ?_⟩
        intro impossible
        cases impossible
      obtain ⟨task, before, found, more, rfl, read⟩ := first
      have skipped : inserted ⟨task, before, .select hash, found⟩ = none := rfl
      cases found with
      | error error =>
          left
          rw [read.of_done.1, read.of_done.2]
          refine ⟨by simpa using skipped, ?_⟩
          intro impossible
          cases impossible
      | ok found =>
          cases found with
          | some existing =>
              left
              dsimp only at read
              split at read
              next =>
                rw [read.of_done.1, read.of_done.2]
                refine ⟨by simpa using skipped, ?_⟩
                intro impossible
                cases impossible
              next same =>
                rw [read.of_done.1]
                refine ⟨by simpa using skipped, ?_⟩
                intro _
                exact ⟨hash, _, existing, rfl, rfl, rfl, rfl, not_not.mp same⟩
          | none =>
              rcases read.of_call with start | second
              · left
                rw [start.1, start.2]
                refine ⟨by simpa using skipped, ?_⟩
                intro impossible
                cases impossible
              obtain ⟨other, there, createdAt, more, rfl, dated⟩ := second
              have dating : inserted ⟨other, there, .now, createdAt⟩ = none :=
                rfl
              rcases dated.of_call with start | third
              · left
                rw [start.1, start.2]
                refine ⟨by simp [skipped, dating], ?_⟩
                intro impossible
                cases impossible
              obtain ⟨last, reached, answer, more, rfl, ended⟩ := third
              cases answer with
              | error error =>
                  have failed : inserted ⟨last, reached,
                      .insert subject name hash createdAt expiresAt,
                      .error error⟩ = none := rfl
                  left
                  rw [ended.of_done.1, ended.of_done.2]
                  refine ⟨by simp [skipped, dating, failed], ?_⟩
                  intro impossible
                  cases impossible
              | ok row =>
                  right
                  rw [ended.of_done.1, ended.of_done.2]
                  refine ⟨hash, createdAt, [_, _], last, reached, row, rfl, ?_,
                    rfl, rfl⟩
                  simp [skipped, dating]

/-- A request that a validation makes. -/
def Reading : Request → Prop
  | .now => True
  | .select _ => True
  | .touch _ _ => True
  | _ => False

theorem useToken_course {record : Token}
    (follows : (useToken record).Follows turns left) :
    (∀ turn ∈ turns, Reading turn.request ∧ selected turn = none) ∧
      ∀ principal, left = .done (.validated (.ok principal)) →
        principal.subject = record.subject ∧
          principal.source = .apiToken record.id := by
  rcases follows.of_call with start | first
  · rw [start.1, start.2]
    exact ⟨by simp, by simp⟩
  obtain ⟨_, _, lastUsedAt, more, rfl, dated⟩ := first
  rcases dated.of_call with start | second
  · rw [start.1, start.2]
    exact ⟨by simp [Reading, selected], by simp⟩
  obtain ⟨_, _, updated, more, rfl, ended⟩ := second
  split at ended
  next =>
    rw [ended.of_done.1, ended.of_done.2]
    exact ⟨by simp [Reading, selected], by simp⟩
  next =>
    rw [ended.of_done.1, ended.of_done.2]
    exact ⟨by simp [Reading, selected], by simp⟩
  next =>
    rw [ended.of_done.1, ended.of_done.2]
    refine ⟨by simp [Reading, selected], ?_⟩
    intro principal same
    cases same
    exact ⟨rfl, rfl⟩

/-- A validation reads its row at its first turn, and its expiry after. -/
theorem validate_course {token : String}
    (follows : (validateToken secrets token).Follows turns left) :
    (∀ turn ∈ turns, Reading turn.request) ∧
      ∀ principal, left = .done (.validated (.ok principal)) →
        ∃ hash task before record more,
          secrets.hashToken token = .ok hash ∧
          turns = ⟨task, before, .select hash, .ok (some record)⟩ :: more ∧
          principal.subject = record.subject ∧
          principal.source = .apiToken record.id ∧
          (∀ turn ∈ more, selected turn = none) ∧
          ∀ expiry, record.expiresAt = some expiry →
            ∃ reader there now, (⟨reader, there, .now, now⟩ : Turn) ∈ more ∧
              now < expiry := by
  unfold validateToken at follows
  cases hashed : secrets.hashToken token with
  | error error =>
      rw [hashed] at follows
      rw [follows.of_done.1, follows.of_done.2]
      exact ⟨by simp, by simp⟩
  | ok hash =>
      rw [hashed] at follows
      rcases follows.of_call with start | first
      · rw [start.1, start.2]
        exact ⟨by simp, by simp⟩
      obtain ⟨task, before, found, more, rfl, read⟩ := first
      cases found with
      | error error =>
          rw [read.of_done.1, read.of_done.2]
          exact ⟨by simp [Reading], by simp⟩
      | ok found =>
          cases found with
          | none =>
              rw [read.of_done.1, read.of_done.2]
              exact ⟨by simp [Reading], by simp⟩
          | some record =>
              dsimp only at read
              cases expires : record.expiresAt with
              | none =>
                  rw [expires] at read
                  obtain ⟨readings, ends⟩ := useToken_course read
                  refine ⟨?_, ?_⟩
                  · intro turn member
                    rcases List.mem_cons.mp member with here | later
                    · rw [here]
                      trivial
                    · exact (readings turn later).1
                  · intro principal accepted
                    obtain ⟨subject, source⟩ := ends principal accepted
                    refine ⟨hash, task, before, record, more, rfl, rfl,
                      subject, source, fun turn member =>
                        (readings turn member).2, ?_⟩
                    intro expiry impossible
                    rw [expires] at impossible
                    cases impossible
              | some expiresAt =>
                  rw [expires] at read
                  rcases read.of_call with start | second
                  · rw [start.1, start.2]
                    exact ⟨by simp [Reading], by simp⟩
                  obtain ⟨reader, there, now, more, rfl, checked⟩ := second
                  split at checked
                  next =>
                    rw [checked.of_done.1, checked.of_done.2]
                    exact ⟨by simp [Reading], by simp⟩
                  next live =>
                    obtain ⟨readings, ends⟩ := useToken_course checked
                    refine ⟨?_, ?_⟩
                    · intro turn member
                      rcases List.mem_cons.mp member with here | later
                      · rw [here]
                        trivial
                      · rcases List.mem_cons.mp later with here | later
                        · rw [here]
                          trivial
                        · exact (readings turn later).1
                    · intro principal accepted
                      obtain ⟨subject, source⟩ := ends principal accepted
                      refine ⟨hash, task, before, record, _, rfl, rfl,
                        subject, source, ?_, ?_⟩
                      · intro turn member
                        rcases List.mem_cons.mp member with here | later
                        · rw [here]
                          rfl
                        · exact (readings turn later).2
                      intro expiry same
                      rw [expires] at same
                      obtain rfl := Option.some.inj same
                      exact ⟨reader, there, now, List.mem_cons_self, Int.not_le.mp live⟩

theorem inserted_of_reading {turn : Turn} (reads : Reading turn.request) :
    inserted turn = none := by
  obtain ⟨task, before, request, answer⟩ := turn
  cases request with
  | insert subject name hash createdAt expiresAt => exact reads.elim
  | random => rfl
  | now => rfl
  | select hash => rfl
  | touch id lastUsedAt => rfl
  | delete id => rfl

theorem revoked_of_reading {turn : Turn} (reads : Reading turn.request) :
    revoked turn = none := by
  obtain ⟨task, before, request, answer⟩ := turn
  cases request with
  | delete id => exact reads.elim
  | random => rfl
  | now => rfl
  | select hash => rfl
  | touch id lastUsedAt => rfl
  | insert subject name hash createdAt expiresAt => rfl

theorem revoke_course {id : ℤ}
    (follows : (revokeToken id).Follows turns left) :
    ∀ turn ∈ turns, inserted turn = none := by
  rcases follows.of_call with start | first
  · rw [start.1]
    simp
  obtain ⟨task, before, deleted, more, rfl, ended⟩ := first
  have nothing : inserted ⟨task, before, .delete id, deleted⟩ = none := rfl
  cases deleted with
  | error error =>
      rw [ended.of_done.1]
      simpa using nothing
  | ok affected =>
      rw [ended.of_done.1]
      simpa using nothing

/-- A row is inserted by a call that has returned. -/
theorem allocates_of_inserted {call : Call}
    (follows : (program secrets call).Follows turns left) {turn : Turn}
    (member : turn ∈ turns) {row : Token} (adds : inserted turn = some row)
    (request : turn.request = .insert row.subject row.name row.tokenHash
      row.createdAt row.expiresAt) :
    ∃ token, secrets.hashToken token = .ok row.tokenHash ∧
      Allocates call left token row := by
  cases call with
  | issue subject name expiresAt =>
      obtain ⟨token, hash, createdAt, hashed, asked, returned⟩ :=
        issue_course follows member adds
      rw [asked] at request
      cases request
      exact ⟨token, hashed, Or.inl ⟨rfl, returned⟩⟩
  | ensure subject name token expiresAt =>
      rcases ensure_course follows with nothing | added
      · rw [nothing.1 turn member] at adds
        cases adds
      · obtain ⟨hash, createdAt, early, task, before, row', hashed, skipped,
          rfl, returned⟩ := added
        rcases List.mem_append.mp member with earlier | last
        · rw [skipped turn earlier] at adds
          cases adds
        · obtain rfl := List.mem_singleton.mp last
          cases request
          exact ⟨token, hashed, Or.inr ⟨rfl, returned⟩⟩
  | validate token =>
      rw [inserted_of_reading ((validate_course follows).1 turn member)] at adds
      cases adds
  | revoke id =>
      rw [revoke_course follows turn member] at adds
      cases adds

end Course

end MiryadCore.Auth
