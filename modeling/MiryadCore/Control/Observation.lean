import MiryadCore.Control.Script

/-!
# Queries that only look

A query that runs alone may leave the state as it is.  Its answer is then told
by the state, and the queries that follow it start from that state again.
-/

namespace MiryadCore

variable {op : Type} {reply : op → Type} {env env' state ε α β : Type}

namespace Script

variable {exec : Service op reply env state}

theorem run_conditions (f : env' → env) (envs : ℕ → env') (script : Script op reply α)
    (s : state) :
    script.run (fun e => exec (f e)) envs s =
      script.run exec (fun n => f (envs n)) s := by
  induction script generalizing envs s with
  | done value => rfl
  | call request next induction => exact induction _ _ _

variable {script : Script op reply α} {s : state}

/-- A request of a script that runs alone. -/
theorem Meets.alone {request : op} {next : reply request → Script op reply α}
    {post : α → state → Prop}
    (goes : ∀ e, (next (exec e s request).1).Meets exec Eq (fun _ _ => True)
      post (exec e s request).2) :
    (Script.call request next).Meets exec Eq (fun _ _ => True) post s := by
  intro s' same e
  subst same
  exact ⟨trivial, goes e⟩

/-- What all requests of a script keep, the script keeps. -/
theorem Only.run {allowed : op → Prop} (only : script.Only allowed)
    {keeps : state → state → Prop} (refl : ∀ s, keeps s s)
    (trans : ∀ {a b c}, keeps a b → keeps b c → keeps a c)
    (step : ∀ e s request, allowed request → keeps s (exec e s request).2)
    (envs : ℕ → env) : keeps s (script.run exec envs s).2 := by
  induction script generalizing envs s with
  | done value => exact refl s
  | call request next induction =>
      exact trans (step (envs 0) s request only.1) (induction _ (only.2 _) _)

/-- What follows a script starts where its requests lead. -/
theorem Only.run_bind {allowed : op → Prop} {next : α → Script op reply β}
    (only : script.Only allowed) {invariant : state → Prop} (envs : ℕ → env)
    (step : ∀ n s request, allowed request → invariant s →
      invariant (exec (envs n) s request).2) (holds : invariant s) :
    ∃ (value : α) (asked : ℕ) (s' : state), invariant s' ∧
      (script.bind next).run exec envs s =
        (next value).run exec (fun n => envs (n + asked)) s' := by
  induction script generalizing envs s with
  | done value => exact ⟨value, 0, s, holds, rfl⟩
  | call request rest induction =>
      obtain ⟨value, asked, s', after, same⟩ :=
        induction (exec (envs 0) s request).1 (only.2 _)
          (fun n => envs (n + 1)) (fun n => step (n + 1))
          (step 0 s request only.1 holds)
      exact ⟨value, asked + 1, s', after, same⟩

end Script

namespace Query

variable {exec : Script.Service op reply env state}
  {query : Query op reply ε α} {next : α → Query op reply ε β}
  {middle post post' : α → Prop} {err err' : ε → Prop} {s : state}

/-- What follows a query starts where its requests lead, unless it failed. -/
theorem Only.run_bind {allowed : op → Prop} (only : Only allowed query)
    {invariant : state → Prop} (envs : ℕ → env)
    (step : ∀ n s request, allowed request → invariant s →
      invariant (exec (envs n) s request).2) (holds : invariant s) :
    ∃ (result : Except ε α) (asked : ℕ) (s' : state), invariant s' ∧
      Script.run exec envs (query >>= next : Query op reply ε β) s =
        match result with
        | .ok value =>
            Script.run exec (fun n => envs (n + asked)) (next value) s'
        | .error error => (.error error, s') := by
  obtain ⟨result, asked, s', after, same⟩ :=
    Script.Only.run_bind only envs step holds
  refine ⟨result, asked, s', after, same.trans ?_⟩
  cases result with
  | ok value => rfl
  | error error => rfl

/-- Alone, the query leaves the state as it is and ends in one of these
ways. -/
abbrev Observes (exec : Script.Service op reply env state)
    (query : Query op reply ε α) (s : state) (post : α → Prop)
    (err : ε → Prop) : Prop :=
  Meets exec Eq (fun _ _ => True) query
    (fun value s' => s' = s ∧ post value)
    (fun error s' => s' = s ∧ err error) s

theorem Observes.mono (observes : Observes exec query s post err)
    (weaker : ∀ value, post value → post' value)
    (weakerErr : ∀ error, err error → err' error) :
    Observes exec query s post' err' := by
  apply Meets.mono observes
  · intro value s' after
    exact ⟨after.1, weaker value after.2⟩
  · intro error s' after
    exact ⟨after.1, weakerErr error after.2⟩

theorem Observes.pure {value : α} (holds : post value) :
    Observes exec (Pure.pure value) s post err := by
  apply Meets.pure
  intro s' same
  exact ⟨same.symm, holds⟩

theorem Observes.fail {error : ε} (holds : err error) :
    Observes exec (Query.fail error) s post err := by
  apply Meets.fail
  intro s' same
  exact ⟨same.symm, holds⟩

theorem Observes.bind {final : β → Prop}
    (observes : Observes exec query s middle err)
    (rest : ∀ value, middle value → Observes exec (next value) s final err) :
    Observes exec (query >>= next) s final err := by
  apply Meets.bind fun _ => rfl
  apply Meets.mono observes
  · intro value s' after
    obtain ⟨rfl, holds⟩ := after
    exact rest value holds
  · intro error s' after later same
    exact same ▸ after

/-- What follows may change the state. -/
theorem Observes.then {final : β → state → Prop} {fails : ε → state → Prop}
    (observes : Observes exec query s middle err)
    (refused : ∀ error, err error → fails error s)
    (rest : ∀ value, middle value →
      Meets exec Eq (fun _ _ => True) (next value) final fails s) :
    Meets exec Eq (fun _ _ => True) (query >>= next) final fails s := by
  apply Meets.bind fun _ => rfl
  apply Meets.mono observes
  · intro value s' after
    obtain ⟨rfl, holds⟩ := after
    exact rest value holds
  · intro error s' after later same
    obtain ⟨rfl, holds⟩ := after
    exact same ▸ refused error holds

/-- A request that changes nothing, whether it fails or not. -/
theorem Observes.askWith {ε' : Type} {reply : op → Type}
    {exec : Script.Service op (fun request => Except ε' (reply request)) env
      state} {request : op} {translate : ε' → ε} {value : reply request}
    (replies : ∀ e, exec e s request = (.ok value, s) ∨
      ∃ error, exec e s request = (.error error, s) ∧
        err (translate error)) :
    Observes exec (Query.askWith translate request) s
      (fun answer => answer = value) err := by
  intro s' same e
  subst same
  refine ⟨trivial, ?_⟩
  intro later same
  rcases replies e with replied | refused
  · rw [replied] at same ⊢
    exact ⟨same.symm, rfl⟩
  · obtain ⟨error, refused, holds⟩ := refused
    rw [refused] at same ⊢
    exact ⟨same.symm, holds⟩

/-- A query that looks at a part of the state looks at the whole. -/
theorem Observes.lift {op' : Type} {reply' : op' → Type}
    {state' env' ε' : Type} {exec' : Script.Service op' reply' env' state'}
    {request : op → op'} {answer : ∀ r, reply' (request r) → reply r}
    {translate : ε → ε'} (part : state' → state)
    (frame : state' → state' → Prop) (conditions : env' → env)
    (trans : ∀ {a b c}, frame a b → frame b c → frame a c)
    (refl : ∀ s, frame s s)
    (whole : ∀ {s s'}, frame s s' → part s' = part s → s' = s)
    (answers : ∀ e s r, answer r (exec' e s (request r)).1 =
        (exec (conditions e) (part s) r).1 ∧
      part (exec' e s (request r)).2 = (exec (conditions e) (part s) r).2 ∧
      frame s (exec' e s (request r)).2) {s : state'}
    (observes : Observes (fun e => exec (conditions e)) query (part s) post
      err) :
    Observes exec' (Query.lift request answer translate query) s post
      (fun error => ∃ cause, error = translate cause ∧ err cause) := by
  apply Meets.mono (Meets.lift part frame conditions trans answers refl
    observes)
  · intro value s' after
    obtain ⟨framed, same, holds⟩ := after
    exact ⟨whole framed same, holds⟩
  · intro error s' after
    obtain ⟨framed, cause, translated, same, holds⟩ := after
    exact ⟨whole framed same, cause, translated, holds⟩

/-- The answer of a query that only looks, under any conditions. -/
theorem Observes.run (observes : Observes exec query s post err)
    (envs : ℕ → env) :
    (Script.run exec envs query s).2 = s ∧
      ((∃ value, (Script.run exec envs query s).1 = .ok value ∧ post value) ∨
        ∃ error, (Script.run exec envs query s).1 = .error error ∧
          err error) := by
  have ends := Script.Meets.run (fun _ => rfl) envs observes
  cases result : (Script.run exec envs query s).1 with
  | ok value =>
      rw [result] at ends
      exact ⟨ends.1, Or.inl ⟨value, rfl, ends.2⟩⟩
  | error error =>
      rw [result] at ends
      exact ⟨ends.1, Or.inr ⟨error, rfl, ends.2⟩⟩

end Query

end MiryadCore
