import MiryadCore.Chat.LinkProtocol

/-!
# What the statements on link codes do

A statement changes the codes, the links or the open transactions in one of a
few ways, which its reply tells.
-/

namespace MiryadCore.Chat

open Interactive

/-- A request, as it took place. -/
abbrev Passage := Occurrence Request Request.Reply Directory

abbrev Trace := List Passage

namespace Passage

/-- The row that an insertion has added. -/
def adds : Passage → Option LinkCode
  | ⟨_, _, .statement (.insertCode row), .ok done⟩ =>
      if done > 0 then some row else none
  | _ => none

/-- The transaction that a commit has ended. -/
def commits : Passage → Option ℕ
  | ⟨_, _, .statement (.commit tx), .ok _⟩ => some tx
  | _ => none

/-- The transaction that is begun. -/
def begins : Passage → Option ℕ
  | ⟨_, _, .statement .begin, .ok tx⟩ => some tx
  | _ => none

/-- The code that is drawn. -/
def draws : Passage → Option String
  | ⟨_, _, .random, .ok bytes⟩ => some (randomCode bytes)
  | _ => none

/-- The instant that a request carries. -/
def instant : Passage → Option Instant
  | ⟨_, _, .statement (.purgeExpired now), _⟩ => some now
  | ⟨_, _, .statement (.liveCodes _ now), _⟩ => some now
  | ⟨_, _, .statement (.insertLink _ link), _⟩ => some link.createdAt
  | ⟨_, _, .rateLimited _ now, _⟩ => some now
  | ⟨_, _, .recordFailure _ now, _⟩ => some now
  | _ => none

/-- A call looks for the live codes of its subject. -/
def lists : Passage → Bool
  | ⟨_, _, .statement (.liveCodes _ _), _⟩ => true
  | _ => false

/-- The codes and the links are the same afterwards. -/
def Keeps (passage : Passage) : Prop :=
  ∀ conditions,
    (exec conditions passage.before passage.request).1 = passage.answer →
    (exec conditions passage.before passage.request).2.codes =
        passage.before.codes ∧
      (exec conditions passage.before passage.request).2.links =
        passage.before.links

end Passage

/-- The transaction that a request writes to or ends. -/
def Request.tx : Request → Option ℕ
  | .statement (.eraseCode tx _) => some tx
  | .statement (.insertLink tx _) => some tx
  | .statement (.commit tx) => some tx
  | .statement (.rollback tx) => some tx
  | _ => none

/-- The statements that may change the codes or the links. -/
def Request.Changes : Request → Prop
  | .statement (.purgeExpired _) => True
  | .statement (.deleteCode _) => True
  | .statement (.insertCode _) => True
  | .statement (.commit _) => True
  | .statement (.deleteLink _ _) => True
  | _ => False

/-- Nothing is added, committed or begun. -/
structure Passage.Plain (passage : Passage) : Prop where
  adds : passage.adds = none
  commits : passage.commits = none
  begins : passage.begins = none

/-- What a request does to the tables, as its reply tells. -/
inductive Effect (s : Directory) (passage : Passage) (after : Directory) :
    Prop where
  | same (plain : passage.Plain) (codes : after.codes = s.codes)
      (links : after.links = s.links) (writes : after.writes = s.writes)
      (transactions : after.transactions = s.transactions)
  | drops (keep : LinkCode → Bool) (plain : passage.Plain)
      (changes : passage.request.Changes)
      (codes : after.codes = s.codes.filter keep)
      (free : ready s passage.request = true → ∀ row ∈ s.codes,
        keep row = false → s.erasing none row.codeHash = false)
      (links : after.links = s.links) (writes : after.writes = s.writes)
      (transactions : after.transactions = s.transactions)
  | adds (row : LinkCode) (adds : passage.adds = some row)
      (commits : passage.commits = none) (begins : passage.begins = none)
      (request : passage.request = .statement (.insertCode row))
      (new : row.codeHash ∉ s.codes.map LinkCode.codeHash)
      (codes : after.codes = s.codes ++ [row])
      (links : after.links = s.links) (writes : after.writes = s.writes)
      (transactions : after.transactions = s.transactions)
  | begins (adds : passage.adds = none) (commits : passage.commits = none)
      (begins : passage.begins = some s.transactions)
      (codes : after.codes = s.codes) (links : after.links = s.links)
      (writes : after.writes = s.writes)
      (transactions : after.transactions = s.transactions + 1)
  | erases (tx : ℕ) (codeHash : String) (plain : passage.Plain)
      (request : passage.request = .statement (.eraseCode tx codeHash))
      (stored : codeHash ∈ s.codes.map LinkCode.codeHash)
      (new : { tx, change := .erased codeHash } ∉ s.writes)
      (codes : after.codes = s.codes) (links : after.links = s.links)
      (writes : after.writes =
        { tx, change := .erased codeHash } :: s.writes)
      (transactions : after.transactions = s.transactions)
  | links (tx : ℕ) (link : MatrixLink) (plain : passage.Plain)
      (request : passage.request = .statement (.insertLink tx link))
      (new : link.mxid ∉ (s.inserted tx ++ s.links).map MatrixLink.mxid)
      (codes : after.codes = s.codes) (links : after.links = s.links)
      (writes : after.writes = { tx, change := .linked link } :: s.writes)
      (transactions : after.transactions = s.transactions)
  | commits (tx : ℕ) (adds : passage.adds = none)
      (commits : passage.commits = some tx) (begins : passage.begins = none)
      (request : passage.request = .statement (.commit tx))
      (after_eq : after = s.commit tx)
  | rolls (tx : ℕ) (plain : passage.Plain)
      (request : passage.request.tx = some tx)
      (after_eq : after = s.rollback tx)
  | unlinks (keep : MatrixLink → Bool) (plain : passage.Plain)
      (changes : passage.request.Changes)
      (codes : after.codes = s.codes)
      (links : after.links = s.links.filter keep)
      (writes : after.writes = s.writes)
      (transactions : after.transactions = s.transactions)

theorem exec_cases (conditions : Conditions) (s : Directory)
    (statement : Statement) :
    (∃ text, exec conditions s (.statement statement) =
      (.error text, s.fail statement)) ∨
    (∃ text, exec conditions s (.statement statement) = (.error text, s)) ∨
    ∃ reply after, s.perform statement = .ok (reply, after) ∧
      exec conditions s (.statement statement) = (.ok reply, after) := by
  cases fault : conditions.fault with
  | some text => exact .inl ⟨text, by simp only [exec, fault]⟩
  | none =>
      right
      cases performs : s.perform statement with
      | error text => exact .inl ⟨text, by simp only [exec, fault, performs]⟩
      | ok answered =>
          exact .inr ⟨answered.1, answered.2, rfl,
            by simp only [exec, fault, performs]⟩

theorem plain_of_error (task : ℕ) (s : Directory) (statement : Statement)
    (text : String) :
    Passage.Plain ⟨task, s, .statement statement, .error text⟩ := by
  cases statement <;> exact ⟨rfl, rfl, rfl⟩

theorem effect_of_fail (task : ℕ) (s : Directory) (statement : Statement)
    (text : String) :
    Effect s ⟨task, s, .statement statement, .error text⟩
      (s.fail statement) := by
  have plain := plain_of_error task s statement text
  cases statement with
  | commit tx => exact .rolls tx plain rfl rfl
  | rollback tx => exact .rolls tx plain rfl rfl
  | _ => exact .same plain rfl rfl rfl rfl

theorem effect_of_perform (task : ℕ) (s : Directory) (statement : Statement)
    {reply : statement.Reply} {after : Directory}
    (performs : s.perform statement = .ok (reply, after)) :
    Effect s ⟨task, s, .statement statement, .ok reply⟩ after := by
  cases statement with
  | purgeExpired now =>
      cases performs
      refine .drops (fun row => now < row.expiresAt) ⟨rfl, rfl, rfl⟩ trivial rfl
        ?_ rfl rfl rfl
      intro free row member expired
      have clear := List.all_eq_true.mp free row member
      rw [expired, Bool.false_or] at clear
      simpa using clear
  | deleteCode codeHash =>
      cases performs
      refine .drops (fun row => row.codeHash ≠ codeHash) ⟨rfl, rfl, rfl⟩ trivial
        rfl ?_ rfl rfl rfl
      intro free row member named
      have same : row.codeHash = codeHash := by simpa using named
      rw [same]
      simpa [ready] using free
  | insertCode row =>
      simp only [Directory.perform] at performs
      split at performs
      next =>
        cases performs
        exact .same ⟨rfl, rfl, rfl⟩ rfl rfl rfl rfl
      next new =>
        cases performs
        exact .adds row rfl rfl rfl rfl new rfl rfl rfl rfl
  | begin =>
      cases performs
      exact .begins rfl rfl rfl rfl rfl rfl rfl
  | eraseCode tx codeHash =>
      simp only [Directory.perform] at performs
      split at performs
      next erasable =>
        cases performs
        exact .erases tx codeHash ⟨rfl, rfl, rfl⟩ rfl erasable.1 erasable.2 rfl
          rfl rfl rfl
      next =>
        cases performs
        exact .same ⟨rfl, rfl, rfl⟩ rfl rfl rfl rfl
  | insertLink tx link =>
      simp only [Directory.perform] at performs
      split at performs
      next => cases performs
      next new =>
        cases performs
        exact .links tx link ⟨rfl, rfl, rfl⟩ rfl new rfl rfl rfl rfl
  | commit tx =>
      cases performs
      exact .commits tx rfl rfl rfl rfl rfl
  | rollback tx =>
      cases performs
      exact .rolls tx ⟨rfl, rfl, rfl⟩ rfl rfl
  | deleteLink mxid subject =>
      cases performs
      exact .unlinks _ ⟨rfl, rfl, rfl⟩ trivial rfl rfl rfl rfl
  | _ =>
      cases performs
      exact .same ⟨rfl, rfl, rfl⟩ rfl rfl rfl rfl

/-- Every request has one of these effects. -/
theorem effect_of_exec (task : ℕ) (conditions : Conditions) (s : Directory)
    (request : Request) :
    Effect s ⟨task, s, request, (exec conditions s request).1⟩
      (exec conditions s request).2 := by
  cases request with
  | statement statement =>
      rcases exec_cases conditions s statement with
        ⟨text, same⟩ | ⟨text, same⟩ | ⟨reply, after, performs, same⟩
      · rw [same]
        exact effect_of_fail task s statement text
      · rw [same]
        exact .same (plain_of_error task s statement text) rfl rfl rfl rfl
      · rw [same]
        exact effect_of_perform task s statement performs
  | random =>
      have plain : ∀ answer, Passage.Plain ⟨task, s, .random, answer⟩ := by
        intro answer
        cases answer <;> exact ⟨rfl, rfl, rfl⟩
      simp only [exec]
      cases conditions.fault with
      | some text => exact .same (plain _) rfl rfl rfl rfl
      | none => exact .same (plain _) rfl rfl rfl rfl
  | _ => exact .same ⟨rfl, rfl, rfl⟩ rfl rfl rfl rfl

theorem keeps_of_error (task : ℕ) (s : Directory) (statement : Statement)
    (text : String) :
    Passage.Keeps ⟨task, s, .statement statement, .error text⟩ := by
  intro conditions told
  rcases exec_cases conditions s statement with
    ⟨other, same⟩ | ⟨other, same⟩ | ⟨reply, after, performs, same⟩
  · dsimp only
    rw [same]
    cases statement <;> exact ⟨rfl, rfl⟩
  · dsimp only
    rw [same]
    exact ⟨rfl, rfl⟩
  · dsimp only at told
    rw [same] at told
    cases told

theorem keeps_of_not_changes {passage : Passage}
    (harmless : ¬passage.request.Changes) : passage.Keeps := by
  obtain ⟨task, s, request, answer⟩ := passage
  intro conditions _
  have effect := effect_of_exec task conditions s request
  dsimp only at harmless ⊢
  cases effect with
  | same _ codes links _ _ => exact ⟨codes, links⟩
  | begins _ _ _ codes links _ _ => exact ⟨codes, links⟩
  | erases _ _ _ _ _ _ codes links _ _ => exact ⟨codes, links⟩
  | links _ _ _ _ _ codes links _ _ => exact ⟨codes, links⟩
  | rolls tx _ _ after_eq => exact after_eq ▸ ⟨rfl, rfl⟩
  | drops _ _ changes _ _ _ _ _ => exact absurd changes harmless
  | adds row _ _ _ request _ _ _ _ _ =>
      dsimp only at request
      subst request
      exact absurd trivial harmless
  | commits tx _ _ _ request _ =>
      dsimp only at request
      subst request
      exact absurd trivial harmless
  | unlinks _ _ changes _ _ _ _ => exact absurd changes harmless

end MiryadCore.Chat
