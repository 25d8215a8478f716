import MiryadCore.Chat.LinkInvariant

/-!
# Calls on link codes beside each other

In every order of their statements, a code is consumed once at most, before it
expires, and links to the subject that was given it; a call that is refused
changes nothing.  The cap on the live codes of a subject is counted in one
statement and used in another, so it holds as long as the insertions that
another one has overtaken find room.
-/

namespace MiryadCore.Chat

open Interactive

/-- The code presented is that of a row, which has not expired. -/
structure Accepted (sha : Sha256) (consumer : Consumer) (row : LinkCode)
    (trace : Trace) : Prop where
  hash : row.codeHash = hashCode sha consumer.code
  live : consumer.now < row.expiresAt
  inserted : Inserted row trace

/-- The commit of a transaction that erases a code, and makes its link or
finds it there. -/
structure Redeems (consumer : Consumer) (row : LinkCode) (tx : ℕ)
    (passage : Passage) : Prop where
  commits : passage.commits = some tx
  erased : { tx, change := .erased row.codeHash } ∈ passage.before.writes
  only : ∀ change, { tx, change } ∈ passage.before.writes →
    change = .erased row.codeHash ∨ change = .linked (consumer.link row)

def Begun (task tx : ℕ) (trace : Trace) : Prop :=
  ∃ passage ∈ trace, passage.task = task ∧ passage.begins = some tx

/-- The code that a task has drawn, which no insertion has. -/
structure Drawn (sha : Sha256) (task : ℕ) (code : String) (trace : Trace) :
    Prop where
  draws : ∃ passage ∈ trace, passage.task = task ∧ passage.draws = some code
  new : ∀ passage ∈ trace, ∀ row, passage.adds = some row →
    row.codeHash ≠ hashCode sha code

/-- The live codes of the subject are among `rest`, unless one was added since
the task has looked; `kept` are those that stay. -/
structure Thinned (task : ℕ) (issuer : Issuer) (rest kept : List String)
    (s : Directory) (trace : Trace) : Prop where
  few : kept.length < MAX_LIVE_CODES
  clocked : ∃ passage ∈ trace, passage.instant = some issuer.now
  rest : overtaken task issuer.caller.subject trace = false →
    ∀ row ∈ s.live issuer.caller.subject issuer.now, row.codeHash ∈ rest

/-- A refusal, as opposed to a failure of the issuing of a code. -/
def Answer.Refused : Answer → Prop
  | .issued (.error error) => ∀ text, error ≠ .store text
  | .consumed (.error _) => True
  | .unlinked (.ok done) => done = false
  | .unlinked (.error _) => True
  | .purged (.error _) => True
  | _ => False

namespace Stage

/-- The call is refused, or may still be. -/
def Harmless : Stage → Prop
  | .limiting _ | .reading _ | .recording _ | .opening _ _ | .owning _ _ _
  | .erasing _ _ _ _ | .linking _ _ _ | .committing _ _ _ | .dropping _ _ _
  | .unlinking _ _ | .sweeping _ => True
  | .concluded _ answer => answer.Refused
  | _ => False

/-- What the tables and the trace are at a stage. -/
def Holds (sha : Sha256) (task : ℕ) (s : Directory) (trace : Trace) :
    Stage → Prop
  | .thinning issuer first pending kept =>
      Thinned task issuer (first :: pending ++ kept) kept s trace
  | .drawing issuer kept _ => Thinned task issuer kept kept s trace
  | .inserting issuer kept _ bytes =>
      Thinned task issuer kept kept s trace ∧
        Drawn sha task (randomCode bytes) trace
  | .opening consumer row => Accepted sha consumer row trace
  | .owning consumer row tx =>
      Accepted sha consumer row trace ∧ Begun task tx trace ∧
        ∀ change, { tx, change } ∉ s.writes
  | .erasing consumer row tx _ =>
      Accepted sha consumer row trace ∧ Begun task tx trace ∧
        ∀ change, { tx, change } ∉ s.writes
  | .linking consumer row tx =>
      Accepted sha consumer row trace ∧ Begun task tx trace ∧
        { tx, change := .erased row.codeHash } ∈ s.writes ∧
        row.codeHash ∈ s.codes.map LinkCode.codeHash ∧
        ∀ change, { tx, change } ∈ s.writes → change = .erased row.codeHash
  | .committing consumer row tx =>
      Accepted sha consumer row trace ∧ Begun task tx trace ∧
        { tx, change := .erased row.codeHash } ∈ s.writes ∧
        row.codeHash ∈ s.codes.map LinkCode.codeHash ∧
        ∀ change, { tx, change } ∈ s.writes →
          change = .erased row.codeHash ∨ change = .linked (consumer.link row)
  | .clearing consumer row =>
      ∃ passage ∈ trace, passage.task = task ∧ ∃ tx,
        Accepted sha consumer row trace ∧ Redeems consumer row tx passage
  | .dropping _ tx _ => Begun task tx trace
  | .concluded call (.issued (.ok issued)) =>
      ∃ passage ∈ trace, passage.task = task ∧
        ∃ (issuer : Issuer) (row : LinkCode), call = issuer.call ∧
          passage.adds = some row ∧ row.codeHash = hashCode sha issued.code ∧
          row.subject = issuer.caller.subject ∧ row.expiresAt = issued.expiresAt
  | .concluded call (.consumed (.ok subject)) =>
      ∃ passage ∈ trace, passage.task = task ∧
        ∃ (consumer : Consumer) (row : LinkCode) (tx : ℕ),
          call = consumer.call ∧ subject = row.subject ∧
          Accepted sha consumer row trace ∧ Redeems consumer row tx passage
  | _ => True

end Stage

/-- What the passages of a task tell of its stage. -/
structure History (sha : Sha256) (task : ℕ) (stage : Stage) (trace : Trace) :
    Prop where
  adds : ∀ passage ∈ trace, passage.task = task → ∀ row,
    passage.adds = some row → ∃ (issuer : Issuer) (bytes : Vector UInt8 12),
      stage = .concluded issuer.call (.issued (.ok
        { code := randomCode bytes, expiresAt := row.expiresAt })) ∧
      row = issuer.row sha bytes
  commits : ∀ passage ∈ trace, passage.task = task → ∀ tx,
    passage.commits = some tx → ∃ (consumer : Consumer) (row : LinkCode),
      (stage = .clearing consumer row ∨
        stage = .concluded consumer.call (.consumed (.ok row.subject))) ∧
      Accepted sha consumer row trace ∧ Redeems consumer row tx passage
  harmless : stage.Harmless → ∀ passage ∈ trace, passage.task = task →
    passage.Keeps

structure Own (sha : Sha256) (task : ℕ) (stage : Stage) (s : Directory)
    (trace : Trace) : Prop where
  history : History sha task stage trace
  holds : stage.Holds sha task s trace

/-- The codes that are inserted have been drawn. -/
def AllDrawn (sha : Sha256) (trace : Trace) : Prop :=
  ∀ passage ∈ trace, ∀ row, passage.adds = some row → ∃ bytes,
    row.codeHash = hashCode sha (randomCode bytes) ∧
      ∃ past ∈ trace, past.draws = some (randomCode bytes)

section Later

variable {sha : Sha256} {task : ℕ} {trace : Trace} {passage : Passage}

theorem Accepted.later {consumer : Consumer} {row : LinkCode}
    (accepted : Accepted sha consumer row trace) :
    Accepted sha consumer row (passage :: trace) :=
  ⟨accepted.hash, accepted.live, accepted.inserted.later⟩

theorem Begun.later {tx : ℕ} (begun : Begun task tx trace) :
    Begun task tx (passage :: trace) := by
  obtain ⟨past, member, mine, begins⟩ := begun
  exact ⟨past, List.mem_cons_of_mem passage member, mine, begins⟩

theorem AllDrawn.later (drawn : AllDrawn sha trace)
    (adds : passage.adds = none) : AllDrawn sha (passage :: trace) := by
  intro past member row told
  obtain ⟨bytes, hash, other, there, draws⟩ :=
    drawn past (mem_of_told adds member told) row told
  exact ⟨bytes, hash, other, List.mem_cons_of_mem passage there, draws⟩

theorem History.frame {stage : Stage} (history : History sha task stage trace)
    (other : passage.task ≠ task) : History sha task stage (passage :: trace) := by
  refine ⟨?_, ?_, ?_⟩
  · intro past member mine row adds
    rcases List.mem_cons.mp member with same | earlier
    · exact absurd (same ▸ mine) other
    · exact history.adds past earlier mine row adds
  · intro past member mine tx commits
    rcases List.mem_cons.mp member with same | earlier
    · exact absurd (same ▸ mine) other
    · obtain ⟨consumer, row, staged, accepted, redeems⟩ :=
        history.commits past earlier mine tx commits
      exact ⟨consumer, row, staged, accepted.later, redeems⟩
  · intro harmless past member mine
    rcases List.mem_cons.mp member with same | earlier
    · exact absurd (same ▸ mine) other
    · exact history.harmless harmless past earlier mine

/-- A stage before the insertion or the commit. -/
def Stage.Before : Stage → Prop
  | .clearing _ _ => False
  | .concluded _ _ => False
  | _ => True

/-- The history of a task that neither inserts nor commits. -/
theorem History.advance {stage next : Stage}
    (history : History sha task stage trace) (before : stage.Before)
    (adds : passage.adds = none) (commits : passage.commits = none)
    (harmless : next.Harmless → stage.Harmless ∧ passage.Keeps) :
    History sha task next (passage :: trace) := by
  refine ⟨?_, ?_, ?_⟩
  · intro past member mine row told
    obtain ⟨issuer, bytes, staged, _⟩ :=
      history.adds past (mem_of_told adds member told) mine row told
    rw [staged] at before
    exact before.elim
  · intro past member mine tx told
    obtain ⟨consumer, row, staged, _⟩ :=
      history.commits past (mem_of_told commits member told) mine tx told
    rcases staged with staged | staged
    · rw [staged] at before
      exact before.elim
    · rw [staged] at before
      exact before.elim
  · intro refused past member mine
    obtain ⟨still, keeps⟩ := harmless refused
    rcases List.mem_cons.mp member with same | earlier
    · exact same ▸ keeps
    · exact history.harmless still past earlier mine

end Later

namespace Effect

variable {s after : Directory} {passage : Passage}

theorem codes_cases (effect : Effect s passage after) {row : LinkCode}
    (member : row ∈ after.codes) :
    row ∈ s.codes ∨ passage.adds = some row := by
  cases effect with
  | same _ codes _ _ _ => exact .inl (codes ▸ member)
  | begins _ _ _ codes _ _ _ => exact .inl (codes ▸ member)
  | erases _ _ _ _ _ _ codes _ _ _ => exact .inl (codes ▸ member)
  | links _ _ _ _ _ codes _ _ _ => exact .inl (codes ▸ member)
  | unlinks _ _ _ codes _ _ _ => exact .inl (codes ▸ member)
  | drops keep _ _ codes _ _ _ _ =>
      rw [codes] at member
      exact .inl (List.mem_of_mem_filter member)
  | adds new adds _ _ _ _ codes _ _ _ =>
      rw [codes] at member
      rcases List.mem_append.mp member with old | latest
      · exact .inl old
      · exact .inr (List.mem_singleton.mp latest ▸ adds)
  | commits tx _ _ _ _ after_eq =>
      rw [after_eq] at member
      exact .inl (List.mem_of_mem_filter member)
  | rolls tx _ _ after_eq =>
      rw [after_eq] at member
      exact .inl member

/-- The changes of the other transactions stay. -/
theorem writes_iff (effect : Effect s passage after) {tx : ℕ}
    (other : passage.request.tx ≠ some tx) (change : Change) :
    { tx, change } ∈ after.writes ↔ { tx, change } ∈ s.writes := by
  have written : ∀ {mine : ℕ} {new : Change},
      passage.request.tx = some mine →
      ({ tx, change } ∈ { tx := mine, change := new } :: s.writes ↔
        { tx, change } ∈ s.writes) := by
    intro mine new told
    rw [List.mem_cons, or_iff_right]
    intro same
    cases same
    exact other told
  have ended : ∀ {mine : ℕ}, passage.request.tx = some mine →
      ({ tx, change } ∈ (s.rollback mine).writes ↔
        { tx, change } ∈ s.writes) := by
    intro mine told
    unfold Directory.rollback
    rw [List.mem_filter]
    refine and_iff_left (decide_eq_true ?_)
    intro same
    dsimp only at same
    rw [same] at other
    exact other told
  cases effect with
  | same _ _ _ writes _ => rw [writes]
  | begins _ _ _ _ _ writes _ => rw [writes]
  | unlinks _ _ _ _ _ writes _ => rw [writes]
  | drops _ _ _ _ _ _ writes _ => rw [writes]
  | adds _ _ _ _ _ _ _ _ writes _ => rw [writes]
  | erases mine codeHash _ request _ _ _ _ writes _ =>
      rw [writes]
      exact written (by rw [request]; rfl)
  | links mine link _ request _ _ _ writes _ =>
      rw [writes]
      exact written (by rw [request]; rfl)
  | commits mine _ _ _ request after_eq =>
      rw [after_eq]
      exact ended (by rw [request]; rfl)
  | rolls mine _ request after_eq =>
      rw [after_eq]
      exact ended request

/-- A code that another transaction has erased stays until its end. -/
theorem stored (effect : Effect s passage after)
    (free : ready s passage.request = true)
    (locks : (s.writes.map fun write => write.change.key).Nodup) {tx : ℕ}
    {codeHash : String} (other : passage.request.tx ≠ some tx)
    (erased : { tx, change := .erased codeHash } ∈ s.writes)
    (there : codeHash ∈ s.codes.map LinkCode.codeHash) :
    codeHash ∈ after.codes.map LinkCode.codeHash := by
  cases effect with
  | same _ codes _ _ _ => rwa [codes]
  | begins _ _ _ codes _ _ _ => rwa [codes]
  | erases _ _ _ _ _ _ codes _ _ _ => rwa [codes]
  | links _ _ _ _ _ codes _ _ _ => rwa [codes]
  | unlinks _ _ _ codes _ _ _ => rwa [codes]
  | rolls mine _ _ after_eq => rwa [after_eq]
  | adds _ _ _ _ _ _ codes _ _ _ =>
      rw [codes, List.map_append]
      exact List.mem_append_left _ there
  | drops keep _ _ codes dropped _ _ _ =>
      rw [codes]
      obtain ⟨row, member, same⟩ := List.mem_map.mp there
      refine List.mem_map.mpr ⟨row, List.mem_filter.mpr ⟨member, ?_⟩, same⟩
      by_contra removed
      have clear := dropped free row member (Bool.eq_false_iff.mpr removed)
      rw [same] at clear
      have busy : s.erasing none codeHash = true :=
        List.any_eq_true.mpr ⟨_, erased, by simp⟩
      rw [busy] at clear
      cases clear
  | commits mine _ _ _ request after_eq =>
      rw [after_eq]
      obtain ⟨row, member, same⟩ := List.mem_map.mp there
      refine List.mem_map.mpr ⟨row, List.mem_filter.mpr ⟨member, ?_⟩, same⟩
      apply decide_eq_true
      intro mineErased
      rw [same] at mineErased
      have one := List.inj_on_of_nodup_map locks erased mineErased rfl
      cases one
      exact other (by rw [request]; rfl)

end Effect

section Frame

variable {sha : Sha256} {task : ℕ} {s after : Directory} {trace : Trace}
  {passage : Passage}

theorem overtaken_of_later {subject : String} (other : passage.task ≠ task)
    (clear : overtaken task subject (passage :: trace) = false) :
    overtaken task subject trace = false ∧
      ∀ row, passage.adds = some row → row.subject ≠ subject := by
  unfold overtaken at clear
  rw [if_neg (fun both => other both.1)] at clear
  split at clear
  next => cases clear
  next added =>
    refine ⟨clear, ?_⟩
    intro row adds same
    rw [adds] at added
    exact added (decide_eq_true same)

theorem overtaken_of_mine {subject : String} (lists : passage.lists = false)
    (adds : passage.adds = none) :
    overtaken task subject (passage :: trace) = overtaken task subject trace := by
  rw [overtaken, if_neg (by simp [lists]), adds]
  rfl

theorem Directory.mem_live {subject : String} {now : Instant} {row : LinkCode} :
    row ∈ s.live subject now ↔
      row ∈ s.codes ∧ row.subject = subject ∧ now < row.expiresAt := by
  unfold Directory.live
  rw [List.mem_filter, decide_eq_true_iff]

theorem Thinned.frame {issuer : Issuer} {rest kept : List String}
    (thinned : Thinned task issuer rest kept s trace)
    (effect : Effect s passage after) (other : passage.task ≠ task) :
    Thinned task issuer rest kept after (passage :: trace) := by
  obtain ⟨few, ⟨past, member, instant⟩, rest⟩ := thinned
  refine ⟨few, ⟨past, List.mem_cons_of_mem passage member, instant⟩, ?_⟩
  intro clear row live
  obtain ⟨before, foreign⟩ := overtaken_of_later other clear
  obtain ⟨there, mine, unexpired⟩ := Directory.mem_live.mp live
  rcases effect.codes_cases there with old | added
  · exact rest before row (Directory.mem_live.mpr ⟨old, mine, unexpired⟩)
  · exact absurd mine (foreign row added)

theorem Drawn.frame {code : String} (drawn : Drawn sha task code trace)
    (new : ∀ row, passage.adds = some row →
      row.codeHash ≠ hashCode sha code) :
    Drawn sha task code (passage :: trace) := by
  obtain ⟨⟨past, member, mine, draws⟩, earlier⟩ := drawn
  refine ⟨⟨past, List.mem_cons_of_mem passage member, mine, draws⟩, ?_⟩
  intro other there row adds
  rcases List.mem_cons.mp there with same | before
  · rw [same] at adds
    exact new row adds
  · exact earlier other before row adds

/-- What holds at a stage still does when another task has moved, which has
another transaction and another code. -/
theorem Stage.Holds.frame {stage : Stage}
    (holds : stage.Holds sha task s trace) (effect : Effect s passage after)
    (free : ready s passage.request = true)
    (locks : (s.writes.map fun write => write.change.key).Nodup)
    (other : passage.task ≠ task)
    (apart : ∀ tx, Begun task tx trace → passage.request.tx ≠ some tx)
    (new : ∀ code row, Drawn sha task code trace → passage.adds = some row →
      row.codeHash ≠ hashCode sha code) :
    stage.Holds sha task after (passage :: trace) := by
  cases stage with
  | thinning issuer first pending kept => exact Thinned.frame holds effect other
  | drawing issuer kept left => exact Thinned.frame holds effect other
  | inserting issuer kept left bytes =>
      obtain ⟨thinned, drawn⟩ := holds
      exact ⟨thinned.frame effect other,
        drawn.frame fun row adds => new _ row drawn adds⟩
  | opening consumer row => exact Accepted.later holds
  | owning consumer row tx =>
      obtain ⟨accepted, begun, clean⟩ := holds
      refine ⟨accepted.later, begun.later, ?_⟩
      intro change
      rw [effect.writes_iff (apart tx begun)]
      exact clean change
  | erasing consumer row tx linked =>
      obtain ⟨accepted, begun, clean⟩ := holds
      refine ⟨accepted.later, begun.later, ?_⟩
      intro change
      rw [effect.writes_iff (apart tx begun)]
      exact clean change
  | linking consumer row tx =>
      obtain ⟨accepted, begun, erased, there, only⟩ := holds
      have foreign := apart tx begun
      refine ⟨accepted.later, begun.later, (effect.writes_iff foreign _).mpr erased,
        effect.stored free locks foreign erased there, ?_⟩
      intro change written
      exact only change ((effect.writes_iff foreign change).mp written)
  | committing consumer row tx =>
      obtain ⟨accepted, begun, erased, there, only⟩ := holds
      have foreign := apart tx begun
      refine ⟨accepted.later, begun.later, (effect.writes_iff foreign _).mpr erased,
        effect.stored free locks foreign erased there, ?_⟩
      intro change written
      exact only change ((effect.writes_iff foreign change).mp written)
  | clearing consumer row =>
      obtain ⟨past, member, mine, tx, accepted, redeems⟩ := holds
      exact ⟨past, List.mem_cons_of_mem passage member, mine, tx,
        accepted.later, redeems⟩
  | dropping consumer tx error => exact Begun.later holds
  | concluded call answer =>
      match answer with
      | .issued (.ok issued) =>
          obtain ⟨past, member, rest⟩ := holds
          exact ⟨past, List.mem_cons_of_mem passage member, rest⟩
      | .consumed (.ok subject) =>
          obtain ⟨past, member, mine, consumer, row, tx, called, told, accepted,
            redeems⟩ := holds
          exact ⟨past, List.mem_cons_of_mem passage member, mine, consumer, row,
            tx, called, told, accepted.later, redeems⟩
      | .issued (.error _) => trivial
      | .consumed (.error _) => trivial
      | .unlinked _ => trivial
      | .purged _ => trivial
  | _ => trivial

end Frame

section Reach

variable {sha : Sha256} {task : ℕ} {s : Directory} {trace : Trace}

/-- The transaction of a request is that of its task. -/
theorem begun_of_allowed {stage : Stage} {request : Request} {tx : ℕ}
    (allowed : stage.allows sha request) (told : request.tx = some tx)
    (holds : stage.Holds sha task s trace) : Begun task tx trace := by
  cases request with
  | statement statement =>
      cases statement with
      | eraseCode mine codeHash =>
          cases told
          cases stage with
          | erasing consumer row mine linked => exact allowed.1 ▸ holds.2.1
          | _ => exact allowed.elim
      | insertLink mine link =>
          cases told
          cases stage with
          | linking consumer row mine => exact allowed.1 ▸ holds.2.1
          | _ => exact allowed.elim
      | commit mine =>
          cases told
          cases stage with
          | committing consumer row mine =>
              exact (show _ = _ from allowed) ▸ holds.2.1
          | _ => exact allowed.elim
      | rollback mine =>
          cases told
          cases stage with
          | dropping consumer mine error =>
              exact (show _ = _ from allowed) ▸ holds
          | _ => exact allowed.elim
      | _ => cases told
  | _ => cases told

/-- The task knows what it should after the request, whatever it is answered. -/
def Reaches (sha : Sha256) (task : ℕ) (s : Directory) (trace : Trace)
    (stage : Stage) (request : Request) : Prop :=
  ∀ conditions,
    Fresh trace ⟨task, s, request, (exec conditions s request).1⟩ →
    Own sha task (stage.next sha request (exec conditions s request).1)
      (exec conditions s request).2
      (⟨task, s, request, (exec conditions s request).1⟩ :: trace)

theorem reaches_statement {stage : Stage} {statement : Statement}
    (failed : ∀ text after,
      Own sha task (stage.next sha (.statement statement) (.error text)) after
        (⟨task, s, .statement statement, .error text⟩ :: trace))
    (performed : ∀ reply after, s.perform statement = .ok (reply, after) →
      Own sha task (stage.next sha (.statement statement) (.ok reply)) after
        (⟨task, s, .statement statement, .ok reply⟩ :: trace)) :
    Reaches sha task s trace stage (.statement statement) := by
  intro conditions _
  rcases exec_cases conditions s statement with
    ⟨text, same⟩ | ⟨text, same⟩ | ⟨reply, after, performs, same⟩
  · rw [same]
    exact failed text _
  · rw [same]
    exact failed text _
  · rw [same]
    exact performed reply after performs

theorem own_of_error {stage : Stage} {statement : Statement} {call : Call}
    {answer : Answer} {after : Directory} {text : String}
    (own : Own sha task stage s trace) (before : stage.Before)
    (harmless : answer.Refused → stage.Harmless)
    (holds : ∀ trace, (Stage.concluded call answer).Holds sha task after trace) :
    Own sha task (.concluded call answer) after
      (⟨task, s, .statement statement, .error text⟩ :: trace) := by
  have plain := plain_of_error task s statement text
  refine ⟨own.history.advance before plain.adds plain.commits ?_, holds _⟩
  intro refused
  exact ⟨harmless refused, keeps_of_error task s statement text⟩

theorem reaches_purging {issuer : Issuer} {now : Instant}
    (own : Own sha task (.purging issuer) s trace) :
    Reaches sha task s trace (.purging issuer)
      (.statement (.purgeExpired now)) := by
  apply reaches_statement
  · intro text after
    exact own_of_error own trivial (fun refused => (refused text rfl).elim)
      fun _ => trivial
  · intro reply after performs
    exact ⟨own.history.advance trivial rfl rfl fun harmless => harmless.elim,
      trivial⟩

theorem holds_thin {issuer : Issuer} {pending kept : List String}
    (thinned : Thinned task issuer (pending ++ kept) kept s trace) :
    (Stage.thin issuer kept pending).Holds sha task s trace := by
  cases pending with
  | nil => exact thinned
  | cons first pending => exact thinned

theorem not_harmless_thin {issuer : Issuer} {kept pending : List String} :
    ¬(Stage.thin issuer kept pending).Harmless := by
  cases pending <;> exact id

/-- The rows that are looked for are all the live ones, and those that stay
leave room for one. -/
theorem reaches_listing {issuer : Issuer}
    (own : Own sha task (.listing issuer) s trace) :
    Reaches sha task s trace (.listing issuer)
      (.statement (.liveCodes issuer.caller.subject issuer.now)) := by
  apply reaches_statement
  · intro text after
    exact own_of_error own trivial (fun refused => (refused text rfl).elim)
      fun _ => trivial
  · intro rows after performs
    cases performs
    refine ⟨own.history.advance trivial rfl rfl fun harmless =>
      (not_harmless_thin harmless).elim, ?_⟩
    apply holds_thin
    refine ⟨?_, ⟨_, List.mem_cons_self, rfl⟩, ?_⟩
    · rw [List.length_drop]
      unfold MAX_LIVE_CODES
      omega
    · intro _ row live
      rw [List.take_append_drop]
      refine List.mem_map_of_mem ?_
      rw [List.mem_insertionSort]
      exact live

theorem reaches_thinning {issuer : Issuer} {first : String}
    {pending kept : List String}
    (own : Own sha task (.thinning issuer first pending kept) s trace) :
    Reaches sha task s trace (.thinning issuer first pending kept)
      (.statement (.deleteCode first)) := by
  apply reaches_statement
  · intro text after
    exact own_of_error own trivial (fun refused => (refused text rfl).elim)
      fun _ => trivial
  · intro reply after performs
    cases performs
    refine ⟨own.history.advance trivial rfl rfl fun harmless =>
      (not_harmless_thin harmless).elim, ?_⟩
    apply holds_thin
    obtain ⟨few, ⟨past, member, instant⟩, rest⟩ := own.holds
    refine ⟨few, ⟨past, List.mem_cons_of_mem _ member, instant⟩, ?_⟩
    intro clear row live
    rw [overtaken_of_mine rfl rfl] at clear
    obtain ⟨there, mine, unexpired⟩ := Directory.mem_live.mp live
    obtain ⟨old, different⟩ := List.mem_filter.mp there
    have among := rest clear row (Directory.mem_live.mpr ⟨old, mine, unexpired⟩)
    exact List.mem_of_ne_of_mem (of_decide_eq_true different) among

theorem Thinned.mine {issuer : Issuer} {rest kept : List String}
    {passage : Passage} (thinned : Thinned task issuer rest kept s trace)
    (lists : passage.lists = false) (adds : passage.adds = none) :
    Thinned task issuer rest kept s (passage :: trace) := by
  obtain ⟨few, ⟨past, member, instant⟩, rest⟩ := thinned
  refine ⟨few, ⟨past, List.mem_cons_of_mem _ member, instant⟩, ?_⟩
  intro clear
  rw [overtaken_of_mine lists adds] at clear
  exact rest clear

theorem reaches_drawing {issuer : Issuer} {kept : List String} {left : ℕ}
    (all : AllDrawn sha trace)
    (own : Own sha task (.drawing issuer kept left) s trace) :
    Reaches sha task s trace (.drawing issuer kept left) .random := by
  intro conditions fresh
  cases faulty : conditions.fault with
  | some text =>
      have runs : exec conditions s .random = (.error text, s) := by
        simp only [exec, faulty]
      rw [runs]
      exact ⟨own.history.advance trivial rfl rfl fun refused =>
        (refused text rfl).elim, trivial⟩
  | none =>
      have runs : exec conditions s .random = (.ok conditions.bytes, s) := by
        simp only [exec, faulty]
      rw [runs] at fresh ⊢
      refine ⟨own.history.advance trivial rfl rfl fun harmless => harmless.elim,
        ?_⟩
      refine ⟨Thinned.mine own.holds rfl rfl, ⟨_, List.mem_cons_self, rfl, rfl⟩,
        ?_⟩
      intro passage member row adds same
      obtain ⟨bytes, hash, past, there, draws⟩ :=
        all passage (mem_of_told rfl member adds) row adds
      rw [hash] at same
      apply fresh _ rfl past there
      rw [draws, randomCode_of_hashCode same]

/-- The row that is inserted is the first with its hash. -/
theorem reaches_inserting {issuer : Issuer} {kept : List String} {left : ℕ}
    {bytes : Vector UInt8 12}
    (own : Own sha task (.inserting issuer kept left bytes) s trace) :
    Reaches sha task s trace (.inserting issuer kept left bytes)
      (.statement (.insertCode (issuer.row sha bytes))) := by
  apply reaches_statement
  · intro text after
    exact own_of_error own trivial (fun refused => (refused text rfl).elim)
      fun _ => trivial
  · intro done after performs
    by_cases added : done > 0
    · have goes : Stage.next sha (.inserting issuer kept left bytes)
          (.statement (.insertCode (issuer.row sha bytes))) (.ok done) =
          .concluded issuer.call (.issued (.ok ⟨randomCode bytes, expiry issuer.now⟩)) :=
        if_pos added
      have adds : Passage.adds ⟨task, s,
          .statement (.insertCode (issuer.row sha bytes)), .ok done⟩ =
          some (issuer.row sha bytes) := if_pos added
      rw [goes]
      refine ⟨⟨?_, ?_, fun refused => refused.elim⟩, ?_⟩
      · intro past member mine row told
        rcases List.mem_cons.mp member with same | earlier
        · rw [same, adds] at told
          cases told
          exact ⟨issuer, bytes, rfl, rfl⟩
        · obtain ⟨_, _, staged, _⟩ :=
            own.history.adds past earlier mine row told
          cases staged
      · intro past member mine tx told
        obtain ⟨_, _, staged, _⟩ :=
          own.history.commits past (mem_of_told rfl member told) mine tx told
        rcases staged with staged | staged <;> cases staged
      · exact ⟨_, List.mem_cons_self, rfl, issuer, issuer.row sha bytes, rfl,
          adds, rfl, rfl, rfl⟩
    · have goes : Stage.next sha (.inserting issuer kept left bytes)
          (.statement (.insertCode (issuer.row sha bytes))) (.ok done) =
          Stage.draw issuer kept left := if_neg added
      have adds : Passage.adds ⟨task, s,
          .statement (.insertCode (issuer.row sha bytes)), .ok done⟩ = none :=
        if_neg added
      have same : after = s := by
        simp only [Directory.perform] at performs
        split at performs
        next =>
          cases performs
          rfl
        next =>
          cases performs
          exact absurd Nat.one_pos added
      rw [goes, same]
      cases left with
      | zero =>
          exact ⟨own.history.advance trivial adds rfl fun refused =>
            (refused _ rfl).elim, trivial⟩
      | succ left =>
          exact ⟨own.history.advance trivial adds rfl fun harmless =>
            harmless.elim, own.holds.1.mine rfl adds⟩

theorem own_of_keeps {stage next : Stage} {request : Request}
    {answer : request.Reply} {after : Directory}
    (own : Own sha task stage s trace) (before : stage.Before)
    (harmless : stage.Harmless) (keeps : ¬request.Changes)
    (plain : Passage.adds ⟨task, s, request, answer⟩ = none ∧
      Passage.commits ⟨task, s, request, answer⟩ = none)
    (holds : next.Holds sha task after
      (⟨task, s, request, answer⟩ :: trace)) :
    Own sha task next after (⟨task, s, request, answer⟩ :: trace) :=
  ⟨own.history.advance before plain.1 plain.2 fun _ =>
    ⟨harmless, keeps_of_not_changes keeps⟩, holds⟩

theorem reaches_limiting {consumer : Consumer} {mxid : String} {now : Instant}
    (own : Own sha task (.limiting consumer) s trace) :
    Reaches sha task s trace (.limiting consumer) (.rateLimited mxid now) := by
  intro conditions _
  refine own_of_keeps own trivial trivial id ⟨rfl, rfl⟩ ?_
  change (if _ then _ else _ : Stage).Holds sha task _ _
  split <;> trivial

theorem mem_of_findCode {rows : List LinkCode} {target : String}
    {row : LinkCode} (found : findCode rows target = some row) :
    row ∈ rows ∧ row.codeHash = target := by
  induction rows using List.reverseRecOn with
  | nil => cases found
  | append_singleton rows last induction =>
      unfold findCode at found induction
      rw [List.foldl_append] at found
      simp only [List.foldl_cons, List.foldl_nil] at found
      split at found
      next same =>
        cases found
        exact ⟨List.mem_append_right rows List.mem_cons_self, same⟩
      next =>
        obtain ⟨member, same⟩ := induction found
        exact ⟨List.mem_append_left _ member, same⟩

theorem reaches_reading {consumer : Consumer} (good : Good s trace)
    (own : Own sha task (.reading consumer) s trace) :
    Reaches sha task s trace (.reading consumer) (.statement .codes) := by
  apply reaches_statement
  · intro text after
    exact own_of_error own trivial (fun _ => trivial) fun _ => trivial
  · intro rows after performs
    cases performs
    refine own_of_keeps own trivial trivial id ⟨rfl, rfl⟩ ?_
    change (Stage.found consumer _).Holds sha task _ _
    cases found : findCode s.codes (hashCode sha consumer.code) with
    | none => trivial
    | some row =>
        unfold Stage.found
        dsimp only
        split
        next => trivial
        next live =>
          obtain ⟨member, hash⟩ := mem_of_findCode found
          exact ⟨hash, not_le.mp live, (good.codes member).later⟩

theorem reaches_recording {consumer : Consumer} {mxid : String} {now : Instant}
    (own : Own sha task (.recording consumer) s trace) :
    Reaches sha task s trace (.recording consumer) (.recordFailure mxid now) :=
  fun _ _ => own_of_keeps own trivial trivial id ⟨rfl, rfl⟩ trivial

theorem reaches_opening {consumer : Consumer} {row : LinkCode}
    (good : Good s trace) (own : Own sha task (.opening consumer row) s trace) :
    Reaches sha task s trace (.opening consumer row) (.statement .begin) := by
  apply reaches_statement
  · intro text after
    exact own_of_error own trivial (fun _ => trivial) fun _ => trivial
  · intro tx after performs
    cases performs
    refine own_of_keeps own trivial trivial id ⟨rfl, rfl⟩ ?_
    refine ⟨Accepted.later own.holds, ⟨_, List.mem_cons_self, rfl, rfl⟩, ?_⟩
    intro change written
    exact absurd (good.older written) (Nat.lt_irrefl _)

theorem reaches_owning {consumer : Consumer} {row : LinkCode} {tx : ℕ}
    {mxid : String} (own : Own sha task (.owning consumer row tx) s trace) :
    Reaches sha task s trace (.owning consumer row tx)
      (.statement (.owner tx mxid)) := by
  obtain ⟨accepted, begun, clean⟩ := own.holds
  apply reaches_statement
  · intro text after
    exact own_of_keeps own trivial trivial id ⟨rfl, rfl⟩ begun.later
  · intro owner after performs
    cases performs
    refine own_of_keeps own trivial trivial id ⟨rfl, rfl⟩ ?_
    change (if _ then _ else _ : Stage).Holds sha task _ _
    split
    next => exact begun.later
    next => exact ⟨accepted.later, begun.later, clean⟩

theorem reaches_erasing {consumer : Consumer} {row : LinkCode} {tx : ℕ}
    {linked : Bool} (own : Own sha task (.erasing consumer row tx linked) s trace) :
    Reaches sha task s trace (.erasing consumer row tx linked)
      (.statement (.eraseCode tx row.codeHash)) := by
  obtain ⟨accepted, begun, clean⟩ := own.holds
  apply reaches_statement
  · intro text after
    exact own_of_keeps own trivial trivial id ⟨rfl, rfl⟩ begun.later
  · intro consumed after performs
    refine own_of_keeps own trivial trivial id ⟨rfl, rfl⟩ ?_
    change (if consumed = 0 then _ else if _ then _ else _ : Stage).Holds sha
      task _ _
    simp only [Directory.perform] at performs
    split at performs
    next erasable =>
      cases performs
      have only : ∀ change, { tx, change } ∈
          (s.write tx (.erased row.codeHash)).writes →
          change = .erased row.codeHash := by
        intro change written
        rcases List.mem_cons.mp written with same | old
        · cases same
          rfl
        · exact absurd old (clean change)
      rw [if_neg Nat.one_ne_zero]
      split
      next =>
        exact ⟨accepted.later, begun.later, List.mem_cons_self, erasable.1,
          fun change written => .inl (only change written)⟩
      next =>
        exact ⟨accepted.later, begun.later, List.mem_cons_self, erasable.1, only⟩
    next =>
      cases performs
      exact begun.later

theorem reaches_linking {consumer : Consumer} {row : LinkCode} {tx : ℕ}
    (own : Own sha task (.linking consumer row tx) s trace) :
    Reaches sha task s trace (.linking consumer row tx)
      (.statement (.insertLink tx (consumer.link row))) := by
  obtain ⟨accepted, begun, erased, stored, only⟩ := own.holds
  apply reaches_statement
  · intro text after
    exact own_of_keeps own trivial trivial id ⟨rfl, rfl⟩ begun.later
  · intro reply after performs
    refine own_of_keeps own trivial trivial id ⟨rfl, rfl⟩ ?_
    simp only [Directory.perform] at performs
    split at performs
    next => cases performs
    next =>
      cases performs
      refine ⟨accepted.later, begun.later, List.mem_cons_of_mem _ erased, stored,
        ?_⟩
      intro change written
      rcases List.mem_cons.mp written with same | old
      · cases same
        exact .inr rfl
      · exact .inl (only change old)

/-- The commit erases the code and makes the link. -/
theorem reaches_committing {consumer : Consumer} {row : LinkCode} {tx : ℕ}
    (own : Own sha task (.committing consumer row tx) s trace) :
    Reaches sha task s trace (.committing consumer row tx)
      (.statement (.commit tx)) := by
  obtain ⟨accepted, begun, erased, stored, only⟩ := own.holds
  apply reaches_statement
  · intro text after
    exact own_of_error own trivial (fun _ => trivial) fun _ => trivial
  · intro reply after performs
    have redeems : Redeems consumer row tx
        ⟨task, s, .statement (.commit tx), .ok reply⟩ := ⟨rfl, erased, only⟩
    refine ⟨⟨?_, ?_, fun harmless => harmless.elim⟩, ?_⟩
    · intro past member mine other told
      obtain ⟨_, _, staged, _⟩ :=
        own.history.adds past (mem_of_told rfl member told) mine other told
      cases staged
    · intro past member mine other told
      rcases List.mem_cons.mp member with same | earlier
      · subst same
        cases told
        exact ⟨consumer, row, .inl rfl, accepted.later, redeems⟩
      · obtain ⟨_, _, staged, _⟩ :=
          own.history.commits past earlier mine other told
        rcases staged with staged | staged <;> cases staged
    · exact ⟨_, List.mem_cons_self, rfl, tx, accepted.later, redeems⟩

theorem reaches_clearing {consumer : Consumer} {row : LinkCode} {mxid : String}
    (own : Own sha task (.clearing consumer row) s trace) :
    Reaches sha task s trace (.clearing consumer row) (.clearAttempts mxid) := by
  intro conditions _
  obtain ⟨spent, there, mine, tx, accepted, redeems⟩ := own.holds
  refine ⟨⟨?_, ?_, fun refused => refused.elim⟩, ?_⟩
  · intro past member mine other told
    obtain ⟨_, _, staged, _⟩ :=
      own.history.adds past (mem_of_told rfl member told) mine other told
    cases staged
  · intro past member mine other told
    obtain ⟨before, accepts, staged, accepted, redeems⟩ :=
      own.history.commits past (mem_of_told rfl member told) mine other told
    rcases staged with staged | staged
    · cases staged
      exact ⟨consumer, row, .inr rfl, accepted.later, redeems⟩
    · cases staged
  · exact ⟨spent, List.mem_cons_of_mem _ there, mine, consumer, row, tx, rfl, rfl,
      accepted.later, redeems⟩

theorem reaches_dropping {consumer : Consumer} {tx : ℕ}
    {error : Option LymailleError}
    (own : Own sha task (.dropping consumer tx error) s trace) :
    Reaches sha task s trace (.dropping consumer tx error)
      (.statement (.rollback tx)) := by
  have holds : ∀ after trace,
      (Stage.refuse consumer error).Holds sha task after trace := by
    intro after trace
    cases error <;> trivial
  apply reaches_statement
  · intro text after
    exact own_of_keeps own trivial trivial id ⟨rfl, rfl⟩ (holds _ _)
  · intro reply after performs
    exact own_of_keeps own trivial trivial id ⟨rfl, rfl⟩ (holds _ _)

/-- A deletion that finds no link keeps them all. -/
theorem reaches_unlinking {caller : CallerPrincipal} {mxid key subject : String}
    (own : Own sha task (.unlinking caller mxid) s trace) :
    Reaches sha task s trace (.unlinking caller mxid)
      (.statement (.deleteLink key subject)) := by
  apply reaches_statement
  · intro text after
    exact own_of_error own trivial (fun _ => trivial) fun _ => trivial
  · intro done after performs
    refine ⟨own.history.advance trivial rfl rfl ?_, trivial⟩
    intro refused
    refine ⟨trivial, ?_⟩
    intro conditions told
    have none_done : decide (0 < done) = false := refused
    have empty : done = 0 := by
      simpa using none_done
    dsimp only at told ⊢
    rcases exec_cases conditions s (.deleteLink key subject) with
      ⟨text, same⟩ | ⟨text, same⟩ | ⟨reply, other, again, same⟩
    · rw [same] at told
      cases told
    · rw [same] at told
      cases told
    · rw [same] at told ⊢
      cases told
      cases again
      refine ⟨rfl, ?_⟩
      apply List.filter_eq_self.mpr
      intro link member
      have absent := List.filter_eq_nil_iff.mp
        (List.length_eq_zero_iff.mp empty) link member
      apply decide_eq_true
      intro both
      exact absent (decide_eq_true both)

theorem reaches_sweeping {now instant : Instant}
    (own : Own sha task (.sweeping now) s trace) :
    Reaches sha task s trace (.sweeping now)
      (.statement (.purgeExpired instant)) := by
  apply reaches_statement
  · intro text after
    exact own_of_error own trivial (fun _ => trivial) fun _ => trivial
  · intro done after performs
    exact ⟨own.history.advance trivial rfl rfl fun refused => refused.elim,
      trivial⟩

theorem reaches_of_allowed {stage : Stage} {request : Request}
    (good : Good s trace) (all : AllDrawn sha trace)
    (own : Own sha task stage s trace) (allowed : stage.allows sha request) :
    Reaches sha task s trace stage request := by
  unfold Stage.allows at allowed
  split at allowed
  next => exact reaches_purging own
  next =>
    obtain ⟨subject_eq, now_eq⟩ := allowed
    subst subject_eq
    subst now_eq
    exact reaches_listing own
  next =>
    subst allowed
    exact reaches_thinning own
  next => exact reaches_drawing all own
  next =>
    subst allowed
    exact reaches_inserting own
  next => exact reaches_limiting own
  next => exact reaches_reading good own
  next => exact reaches_recording own
  next => exact reaches_opening good own
  next =>
    subst allowed
    exact reaches_owning own
  next =>
    obtain ⟨tx_eq, hash_eq⟩ := allowed
    subst tx_eq
    subst hash_eq
    exact reaches_erasing own
  next =>
    obtain ⟨tx_eq, link_eq⟩ := allowed
    subst tx_eq
    subst link_eq
    exact reaches_linking own
  next =>
    subst allowed
    exact reaches_committing own
  next => exact reaches_clearing own
  next =>
    subst allowed
    exact reaches_dropping own
  next => exact reaches_unlinking own
  next => exact reaches_sweeping own
  next => exact allowed.elim

end Reach

section Keep

variable {sha : Sha256} {task : ℕ} {s after : Directory} {trace : Trace}

theorem request_of_adds {passage : Passage} {row : LinkCode}
    (adds : passage.adds = some row) :
    passage.request = .statement (.insertCode row) := by
  unfold Passage.adds at adds
  split at adds
  next =>
    split at adds
    next =>
      cases adds
      rfl
    next => cases adds
  next => cases adds

theorem code_of_draws {passage : Passage} {code : String}
    (draws : passage.draws = some code) : ∃ bytes, code = randomCode bytes := by
  unfold Passage.draws at draws
  split at draws
  next bytes =>
    cases draws
    exact ⟨bytes, rfl⟩
  next => cases draws

theorem inserting_of_adds {stage : Stage} {passage : Passage} {row : LinkCode}
    (allowed : stage.allows sha passage.request)
    (adds : passage.adds = some row) :
    ∃ issuer kept left bytes,
      stage = .inserting issuer kept left bytes ∧ row = issuer.row sha bytes := by
  rw [request_of_adds adds] at allowed
  cases stage with
  | inserting issuer kept left bytes =>
      exact ⟨issuer, kept, left, bytes, rfl, allowed⟩
  | _ => exact allowed.elim

theorem live_of_thinned (good : Good s trace) {issuer : Issuer}
    {kept : List String} (thinned : Thinned task issuer kept kept s trace)
    (clear : overtaken task issuer.caller.subject trace = false)
    {now : Instant} (clock : Clock now trace) :
    (s.live issuer.caller.subject now).length < MAX_LIVE_CODES := by
  obtain ⟨few, ⟨past, member, instant⟩, rest⟩ := thinned
  have later : issuer.now ≤ now := clock past member _ instant
  have unique : ((s.live issuer.caller.subject now).map
      LinkCode.codeHash).Nodup :=
    good.unique.sublist (List.filter_sublist.map _)
  have among : (s.live issuer.caller.subject now).map LinkCode.codeHash ⊆
      kept := by
    intro codeHash there
    obtain ⟨row, live, same⟩ := List.mem_map.mp there
    obtain ⟨stored, mine, unexpired⟩ := Directory.mem_live.mp live
    rw [← same]
    exact rest clear row
      (Directory.mem_live.mpr ⟨stored, mine, lt_of_le_of_lt later unexpired⟩)
  have below := (List.subperm_of_subset unique among).length_le
  rw [List.length_map] at below
  omega

theorem live_insert {row : LinkCode} (codes : after.codes = s.codes ++ [row])
    (subject : String) (now : Instant) :
    (after.live subject now).length = (s.live subject now).length +
      if row.subject = subject ∧ now < row.expiresAt then 1 else 0 := by
  unfold Directory.live
  rw [codes, List.filter_append, List.length_append, List.filter_singleton]
  by_cases fits : row.subject = subject ∧ now < row.expiresAt
  · simp [fits]
  · simp [fits]

/-- An insertion leaves the cap, when it finds room if it was overtaken. -/
theorem capped_insert (good : Good s trace) {passage : Passage}
    {issuer : Issuer} {kept : List String} {bytes : Vector UInt8 12}
    (capped : Capped s trace)
    (thinned : Thinned passage.task issuer kept kept s trace)
    (room : Room trace passage) (before : passage.before = s)
    (adds : passage.adds = some (issuer.row sha bytes))
    (codes : after.codes = s.codes ++ [issuer.row sha bytes]) :
    Capped after (passage :: trace) := by
  intro subject now clock
  have below := capped subject now clock.earlier
  rw [live_insert codes]
  split
  next fits =>
    obtain ⟨same, unexpired⟩ := fits
    subst same
    have few : (s.live issuer.caller.subject now).length < MAX_LIVE_CODES := by
      cases concluded : overtaken passage.task issuer.caller.subject trace with
      | true =>
          rw [← before]
          exact room _ adds concluded now clock.earlier unexpired
      | false => exact live_of_thinned good thinned concluded clock.earlier
    exact few
  next => exact below

theorem begun_lt (good : Good s trace) {tx : ℕ} (begun : Begun task tx trace) :
    tx < s.transactions := by
  obtain ⟨past, member, _, begins⟩ := begun
  exact good.begun member begins

theorem unlocked_of_erase {tx : ℕ} {codeHash : String}
    (free : ready s (.statement (.eraseCode tx codeHash)) = true)
    (new : { tx, change := .erased codeHash } ∉ s.writes) :
    ∀ write ∈ s.writes,
      write.change.key ≠ (Change.erased codeHash).key := by
  intro write member same
  obtain ⟨other, change⟩ := write
  cases change with
  | linked link => cases same
  | erased there =>
      cases same
      by_cases mine : other = tx
      · subst mine
        exact new member
      · have busy : s.erasing (some tx) codeHash = true :=
          List.any_eq_true.mpr ⟨_, member, by simpa using mine⟩
        simp [ready, busy] at free

theorem unlocked_of_link {tx : ℕ} {link : MatrixLink}
    (free : ready s (.statement (.insertLink tx link)) = true)
    (new : link.mxid ∉ (s.inserted tx ++ s.links).map MatrixLink.mxid) :
    ∀ write ∈ s.writes, write.change.key ≠ (Change.linked link).key := by
  intro write member same
  obtain ⟨other, change⟩ := write
  cases change with
  | erased codeHash => cases same
  | linked there =>
      have mxid_eq : there.mxid = link.mxid := Sum.inr.inj same
      by_cases mine : other = tx
      · subst mine
        apply new
        rw [List.map_append, ← mxid_eq]
        exact List.mem_append_left _
          (List.mem_map_of_mem (Directory.mem_inserted.mpr member))
      · have busy : s.linking tx link.mxid = true :=
          List.any_eq_true.mpr ⟨_, member, by simp [mxid_eq, mine]⟩
        simp [ready, busy] at free

/-- What the tables and the trace keep at each request. -/
theorem keep {stage : Stage} {request : Request} (conditions : Conditions)
    (good : Good s trace) (all : AllDrawn sha trace)
    (own : Own sha task stage s trace) (allowed : stage.allows sha request)
    (free : ready s request = true) :
    Good (exec conditions s request).2
        (⟨task, s, request, (exec conditions s request).1⟩ :: trace) ∧
      AllDrawn sha
        (⟨task, s, request, (exec conditions s request).1⟩ :: trace) := by
  have effect := effect_of_exec task conditions s request
  cases effect with
  | same plain codes links writes transactions =>
      exact ⟨good.shrink plain (codes ▸ List.Sublist.refl _)
        (links ▸ List.Sublist.refl _) (writes ▸ List.Sublist.refl _)
        transactions, all.later plain.adds⟩
  | drops keep plain _ codes _ links writes transactions =>
      exact ⟨good.shrink plain (codes ▸ List.filter_sublist)
        (links ▸ List.Sublist.refl _) (writes ▸ List.Sublist.refl _)
        transactions, all.later plain.adds⟩
  | unlinks keep plain _ codes links writes transactions =>
      exact ⟨good.shrink plain (codes ▸ List.Sublist.refl _)
        (links ▸ List.filter_sublist) (writes ▸ List.Sublist.refl _)
        transactions, all.later plain.adds⟩
  | rolls tx plain _ after_eq =>
      rw [after_eq]
      exact ⟨good.shrink plain (List.Sublist.refl _) (List.Sublist.refl _)
        List.filter_sublist rfl, all.later plain.adds⟩
  | begins adds commits begins codes links writes transactions =>
      exact ⟨good.begin adds commits begins codes links writes transactions,
        all.later adds⟩
  | adds row adds commits begins _ _ codes links writes transactions =>
      obtain ⟨issuer, kept, left, bytes, staged, same⟩ :=
        inserting_of_adds allowed adds
      subst staged
      subst same
      obtain ⟨thinned, ⟨past, member, mine, draws⟩, new⟩ := own.holds
      refine ⟨good.insert adds commits begins new codes links writes transactions
        ?_, ?_⟩
      · intro room
        exact capped_insert good (good.capped room.2) thinned room.1 rfl adds codes
      · intro other there row told
        rcases List.mem_cons.mp there with same | earlier
        · rw [same, adds] at told
          cases told
          exact ⟨bytes, rfl, past, List.mem_cons_of_mem _ member, draws⟩
        · obtain ⟨drawn, hash, source, before, drew⟩ := all other earlier row told
          exact ⟨drawn, hash, source, List.mem_cons_of_mem _ before, drew⟩
  | erases tx codeHash plain request_eq _ new codes links writes transactions =>
      dsimp only at request_eq
      subst request_eq
      have begun := begun_of_allowed allowed rfl own.holds
      refine ⟨good.write plain (begun_lt good begun) (unlocked_of_erase free new)
        ?_ codes links writes transactions, all.later plain.adds⟩
      intro link same
      cases same
  | links tx link plain request_eq new codes links writes transactions =>
      dsimp only at request_eq
      subst request_eq
      have begun := begun_of_allowed allowed rfl own.holds
      refine ⟨good.write plain (begun_lt good begun) (unlocked_of_link free new)
        ?_ codes links writes transactions, all.later plain.adds⟩
      intro other same
      cases same
      intro there
      apply new
      rw [List.map_append]
      exact List.mem_append_right _ there
  | commits tx adds commits begins request_eq after_eq =>
      dsimp only at request_eq
      subst request_eq
      rw [after_eq]
      refine ⟨good.commit adds commits begins rfl ?_, all.later adds⟩
      intro codeHash wrote
      cases stage with
      | committing consumer row mine =>
          obtain ⟨_, _, _, stored, only⟩ := own.holds
          rw [show tx = mine from allowed] at wrote
          rcases only _ wrote with same | same
          · cases same
            exact stored
          · cases same
      | _ => exact allowed.elim

end Keep

/-- What holds in every pool of calls whose codes are all different. -/
theorem link_outline (sha : Sha256) :
    Outline (system sha) (protocol sha) (fun _ => True)
      (fun _ => (none : Option Unit))
      (fun s trace => Throughout Fresh trace → Good s trace ∧ AllDrawn sha trace)
      (fun task stage s trace => Throughout Fresh trace →
        Own sha task stage s trace) where
  obeys := follows_program sha
  begins call task s trace _ _ past _ := by
    have none_mine : ∀ passage ∈ trace, passage.task ≠ task := by
      intro passage member mine
      exact absurd mine (Nat.ne_of_lt (past passage member))
    refine ⟨⟨?_, ?_, ?_⟩, ?_⟩
    · intro passage member mine
      exact absurd mine (none_mine passage member)
    · intro passage member mine
      exact absurd mine (none_mine passage member)
    · intro _ passage member mine
      exact absurd mine (none_mine passage member)
    · cases call <;> trivial
  bare _ _ := rfl
  keeps turn conditions fresh := by
    obtain ⟨good, all⟩ := turn.inv fresh.2
    exact keep conditions good all (turn.own fresh.2) turn.allowed turn.ready
  reaches turn conditions fresh := by
    obtain ⟨good, all⟩ := turn.inv fresh.2
    exact reaches_of_allowed good all (turn.own fresh.2) turn.allowed conditions
      fresh.1
  renews _ _ _ has := by cases has
  frames {task stage s trace request} turn conditions other otherStage
      different own _ fresh := by
    obtain ⟨good, all⟩ := turn.inv fresh.2
    have mine := turn.own fresh.2
    have theirs := own fresh.2
    have effect := effect_of_exec task conditions s request
    refine ⟨theirs.history.frame different.symm, ?_⟩
    apply theirs.holds.frame effect turn.ready good.locks different.symm
    · intro tx begun told
      obtain ⟨past, member, theirTask, begins⟩ := begun
      obtain ⟨latest, there, myTask, again⟩ :=
        begun_of_allowed turn.allowed told mine.holds
      apply different
      rw [← theirTask, ← myTask]
      exact good.begunOnce member there begins again
    · intro code row drawn adds same
      have allowed : stage.allows sha request := turn.allowed
      obtain ⟨issuer, kept, left, bytes, staged, isRow⟩ :=
        inserting_of_adds allowed adds
      subst staged
      subst isRow
      obtain ⟨_, ⟨past, member, myTask, draws⟩, _⟩ := mine.holds
      obtain ⟨earlier, there, theirTask, drew⟩ := drawn.draws
      obtain ⟨others, isCode⟩ := code_of_draws drew
      subst isCode
      rw [← randomCode_of_hashCode same] at drew
      apply different
      rw [← theirTask, ← myTask]
      exact task_of_draws fresh.2 there member drew draws
  spawned _ _ _ _ spawns _ _ := by cases spawns
  passes _ _ _ _ spawns _ := by cases spawns

end MiryadCore.Chat
