import Mathlib.Data.List.Basic

/-!
# Scripts of requests, run alone or beside others

A script asks requests of a shared service, one at a time, and goes on with
each reply.  `Meets` gives it a postcondition that survives what other scripts
do between two requests, which `rely` describes; `guar` describes what each of
its own requests does to the state.  A script that runs alone is the case
where `rely` is equality.
-/

namespace MiryadCore

/-- A computation that may ask for replies before it is done. -/
inductive Script (op : Type) (reply : op → Type) (α : Type) : Type where
  | done (value : α)
  | call (request : op) (next : reply request → Script op reply α)

namespace Script

variable {op : Type} {reply : op → Type} {env state α β : Type}

def bind : Script op reply α → (α → Script op reply β) → Script op reply β
  | .done value, next => next value
  | .call request rest, next =>
      .call request fun answer => (rest answer).bind next

instance : Monad (Script op reply) where
  pure := .done
  bind := bind

/-- A request alone. -/
def ask (request : op) : Script op reply (reply request) :=
  .call request .done

/-- The service: what it replies in a state, under conditions that it alone
decides. -/
abbrev Service (op : Type) (reply : op → Type) (env state : Type) : Type :=
  env → state → (request : op) → reply request × state

/-- The script alone with the service, under the conditions `envs`. -/
def run (exec : Service op reply env state) :
    (ℕ → env) → Script op reply α → state → α × state
  | _, .done value, s => (value, s)
  | envs, .call request next, s =>
      run exec (fun n => envs (n + 1)) (next (exec (envs 0) s request).1)
        (exec (envs 0) s request).2

/-- Whatever happens in between, each request keeps to the guarantee and the
script ends with its postcondition. -/
def Meets (exec : Service op reply env state)
    (rely guar : state → state → Prop) :
    Script op reply α → (α → state → Prop) → state → Prop
  | .done value, post, s => ∀ s', rely s s' → post value s'
  | .call request next, post, s => ∀ s', rely s s' → ∀ conditions,
      guar s' (exec conditions s' request).2 ∧
        (next (exec conditions s' request).1).Meets exec rely guar post
          (exec conditions s' request).2

variable {exec : Service op reply env state}
  {rely guar : state → state → Prop} {script : Script op reply α}
  {post post' : α → state → Prop} {s s' : state}

theorem meets_any (script : Script op reply α) (s : state) :
    script.Meets exec rely (fun _ _ => True) (fun _ _ => True) s := by
  induction script generalizing s with
  | done value => exact fun _ _ => trivial
  | call request next induction =>
      exact fun _ _ conditions => ⟨trivial, induction _ _⟩

theorem Meets.mono (meets : script.Meets exec rely guar post s)
    (weaker : ∀ value s, post value s → post' value s) :
    script.Meets exec rely guar post' s := by
  induction script generalizing s with
  | done value =>
      intro s' between
      exact weaker value s' (meets s' between)
  | call request next induction =>
      intro s' between conditions
      obtain ⟨keeps, rest⟩ := meets s' between conditions
      exact ⟨keeps, induction _ rest⟩

/-- A script may wait. -/
theorem Meets.stable (trans : ∀ {a b c}, rely a b → rely b c → rely a c)
    (meets : script.Meets exec rely guar post s) (between : rely s s') :
    script.Meets exec rely guar post s' := by
  cases script with
  | done value =>
      intro later more
      exact meets later (trans between more)
  | call request next =>
      intro later more conditions
      exact meets later (trans between more) conditions

theorem Meets.bind (refl : ∀ s, rely s s)
    {next : α → Script op reply β} {final : β → state → Prop}
    (meets : script.Meets exec rely guar
      (fun value s => (next value).Meets exec rely guar final s) s) :
    (script.bind next).Meets exec rely guar final s := by
  induction script generalizing s with
  | done value => exact meets s (refl s)
  | call request rest induction =>
      intro s' between conditions
      obtain ⟨keeps, after⟩ := meets s' between conditions
      exact ⟨keeps, induction _ after⟩

theorem Meets.run (refl : ∀ s, rely s s) (envs : ℕ → env)
    (meets : script.Meets exec rely guar post s) :
    post (script.run exec envs s).1 (script.run exec envs s).2 := by
  induction script generalizing envs s with
  | done value => exact meets s (refl s)
  | call request next induction =>
      exact induction _ _ (meets s (refl s) (envs 0)).2

/-- A script on a part of a larger service. -/
def lift {op' : Type} {reply' : op' → Type} (request : op → op')
    (answer : ∀ r, reply' (request r) → reply r) :
    Script op reply α → Script op' reply' α
  | .done value => .done value
  | .call r next =>
      .call (request r) fun a => lift request answer (next (answer r a))

theorem run_map (envs : ℕ → env) (f : α → β) (script : Script op reply α)
    (s : state) :
    (script.bind fun value => .done (f value)).run exec envs s =
      (f (script.run exec envs s).1, (script.run exec envs s).2) := by
  induction script generalizing envs s with
  | done value => rfl
  | call request rest induction => exact induction _ _ _

theorem run_bind (e : env) (next : α → Script op reply β) :
    (script.bind next).run exec (fun _ => e) s =
      (next (script.run exec (fun _ => e) s).1).run exec (fun _ => e)
        (script.run exec (fun _ => e) s).2 := by
  induction script generalizing s with
  | done value => rfl
  | call request rest induction => exact induction _

/-- Whatever it is answered, the script makes only such requests. -/
def Only (allowed : op → Prop) : Script op reply α → Prop
  | .done _ => True
  | .call request next =>
      allowed request ∧ ∀ answer, (next answer).Only allowed

theorem Only.bind {allowed : op → Prop} {next : α → Script op reply β}
    (first : script.Only allowed) (rest : ∀ value, (next value).Only allowed) :
    (script.bind next).Only allowed := by
  induction script with
  | done value => exact rest value
  | call request after induction =>
      exact ⟨first.1, fun answer => induction answer (first.2 answer)⟩

theorem Only.mono {allowed weaker : op → Prop} (only : script.Only allowed)
    (weakens : ∀ request, allowed request → weaker request) :
    script.Only weaker := by
  induction script with
  | done value => trivial
  | call request after induction =>
      exact ⟨weakens request only.1,
        fun answer => induction answer (only.2 answer)⟩

theorem only_of_all {allowed : op → Prop} (all : ∀ request, allowed request)
    (script : Script op reply α) : script.Only allowed := by
  induction script with
  | done value => trivial
  | call request after induction => exact ⟨all request, induction⟩

/-- A part of a service is asked what the script asks of it. -/
theorem Only.lift {op' : Type} {reply' : op' → Type} {inner : op → Prop}
    {allowed : op' → Prop} {request : op → op'}
    (answer : ∀ r, reply' (request r) → reply r) (only : script.Only inner)
    (inside : ∀ r, inner r → allowed (request r)) :
    (lift request answer script).Only allowed := by
  induction script with
  | done value => trivial
  | call r next induction =>
      exact ⟨inside r only.1, fun a => induction _ (only.2 _)⟩

theorem only_lift {op' : Type} {reply' : op' → Type} {allowed : op' → Prop}
    {request : op → op'} (answer : ∀ r, reply' (request r) → reply r)
    (inside : ∀ r, allowed (request r)) (script : Script op reply α) :
    (lift request answer script).Only allowed :=
  (only_of_all (fun _ => trivial) script).lift answer fun r _ => inside r

end Script

/-- A script that may fail. -/
def Query (op : Type) (reply : op → Type) (ε α : Type) : Type :=
  Script op reply (Except ε α)

namespace Query

variable {op : Type} {reply : op → Type} {env state ε α β : Type}

def fail (error : ε) : Query op reply ε α :=
  Script.done (.error error)

def bind (query : Query op reply ε α) (next : α → Query op reply ε β) :
    Query op reply ε β :=
  Script.bind query fun result =>
    match result with
    | .ok value => next value
    | .error error => fail error

instance : Monad (Query op reply ε) where
  pure value := Script.done (.ok value)
  bind := bind

/-- The result of a query, error or not, as a value. -/
def attempt (query : Query op reply ε α) :
    Query op reply ε (Except ε α) :=
  Script.bind query fun result => Script.done (.ok result)

/-- The `?` on a result that needs no request. -/
def ofExcept (result : Except ε α) : Query op reply ε α :=
  Script.done result

/-- `map_err`. -/
def mapError {ε' : Type} (translate : ε → ε') (query : Query op reply ε α) :
    Query op reply ε' α :=
  Script.bind query fun result => Script.done (result.mapError translate)

/-- A request whose reply may be an error. -/
def ask {reply : op → Type} (request : op) :
    Query op (fun request => Except ε (reply request)) ε (reply request) :=
  Script.call request Script.done

/-- A request whose error is translated. -/
def askWith {ε' : Type} {reply : op → Type} (translate : ε → ε')
    (request : op) :
    Query op (fun request => Except ε (reply request)) ε' (reply request) :=
  Script.call request fun answer => Script.done (answer.mapError translate)

/-- A query to a part of a larger service, with its errors translated. -/
def lift {op' : Type} {reply : op → Type} {reply' : op' → Type} {ε' : Type}
    (request : op → op')
    (answer : ∀ r, reply' (request r) → reply r) (translate : ε → ε') :
    Query op reply ε α → Query op' reply' ε' α
  | .done result => Script.done (result.mapError translate)
  | .call r next =>
      Script.call (request r) fun a =>
        lift request answer translate (next (answer r a))

variable {exec : Script.Service op reply env state}
  {rely guar : state → state → Prop} {query : Query op reply ε α}
  {post : α → state → Prop} {err : ε → state → Prop} {s s' : state}

/-- The postconditions of a query: `post` on success, `err` on failure. -/
def Meets (exec : Script.Service op reply env state)
    (rely guar : state → state → Prop) (query : Query op reply ε α)
    (post : α → state → Prop) (err : ε → state → Prop) (s : state) : Prop :=
  Script.Meets exec rely guar query
    (fun result s =>
      match result with
      | .ok value => post value s
      | .error error => err error s) s

theorem Meets.stable (trans : ∀ {a b c}, rely a b → rely b c → rely a c)
    (meets : Meets exec rely guar query post err s) (between : rely s s') :
    Meets exec rely guar query post err s' :=
  Script.Meets.stable trans meets between

theorem Meets.pure {value : α} (meets : ∀ s', rely s s' → post value s') :
    Meets exec rely guar (Pure.pure value) post err s :=
  meets

theorem Meets.fail {error : ε} (meets : ∀ s', rely s s' → err error s') :
    Meets exec rely guar (Query.fail error) post err s :=
  meets

theorem Meets.bind (refl : ∀ s, rely s s)
    {next : α → Query op reply ε β} {final : β → state → Prop}
    (meets : Meets exec rely guar query
      (fun value s => Meets exec rely guar (next value) final err s)
      (fun error s => ∀ s', rely s s' → err error s') s) :
    Meets exec rely guar (query >>= next) final err s := by
  apply Script.Meets.bind refl
  apply Script.Meets.mono meets
  intro result s after
  cases result with
  | ok value => exact after
  | error error => exact after

theorem Meets.attempt (refl : ∀ s, rely s s)
    {final : Except ε α → state → Prop}
    (meets : Meets exec rely guar query
      (fun value s => ∀ s', rely s s' → final (.ok value) s')
      (fun error s => ∀ s', rely s s' → final (.error error) s') s) :
    Meets exec rely guar query.attempt final err s := by
  apply Script.Meets.bind refl
  apply Script.Meets.mono meets
  intro result s after
  cases result with
  | ok value => exact after
  | error error => exact after

/-- A request alone. -/
theorem Meets.request {reply : op → Type}
    {exec : Script.Service op (fun request => Except ε (reply request)) env
      state} {request : op} {final : reply request → state → Prop}
    (keeps : ∀ s', rely s s' → ∀ conditions,
      guar s' (exec conditions s' request).2)
    (replied : ∀ s', rely s s' → ∀ conditions value after,
      exec conditions s' request = (.ok value, after) →
        ∀ later, rely after later → final value later)
    (refused : ∀ s', rely s s' → ∀ conditions error after,
      exec conditions s' request = (.error error, after) →
        ∀ later, rely after later → err error later) :
    Meets exec rely guar (ask request) final err s := by
  intro s' between conditions
  refine ⟨keeps s' between conditions, ?_⟩
  cases result : exec conditions s' request with
  | mk answer after =>
      cases answer with
      | ok value => exact replied s' between conditions value after result
      | error error => exact refused s' between conditions error after result

/-- A request, then the rest: each kind of reply has its own continuation. -/
theorem Meets.ask_bind {reply : op → Type}
    {exec : Script.Service op (fun request => Except ε (reply request)) env
      state} {request : op}
    {next : reply request → Query op (fun request => Except ε (reply request))
      ε β} {final : β → state → Prop}
    (keeps : ∀ s', rely s s' → ∀ conditions,
      guar s' (exec conditions s' request).2)
    (replied : ∀ s', rely s s' → ∀ conditions value after,
      exec conditions s' request = (.ok value, after) →
        Meets exec rely guar (next value) final err after)
    (refused : ∀ s', rely s s' → ∀ conditions error after,
      exec conditions s' request = (.error error, after) →
        ∀ later, rely after later → err error later) :
    Meets exec rely guar (ask request >>= next) final err s := by
  intro s' between conditions
  refine ⟨keeps s' between conditions, ?_⟩
  cases result : exec conditions s' request with
  | mk answer after =>
      cases answer with
      | ok value => exact replied s' between conditions value after result
      | error error => exact refused s' between conditions error after result

theorem Meets.mono {post' : α → state → Prop} {err' : ε → state → Prop}
    (meets : Meets exec rely guar query post err s)
    (weaker : ∀ value s, post value s → post' value s)
    (weakerErr : ∀ error s, err error s → err' error s) :
    Meets exec rely guar query post' err' s := by
  apply Script.Meets.mono meets
  intro result s after
  cases result with
  | ok value => exact weaker value s after
  | error error => exact weakerErr error s after

/-- A query alone with a part of the state keeps the rest of it. -/
theorem Meets.lift {op' : Type} {reply' : op' → Type} {state' env' ε' : Type}
    {exec' : Script.Service op' reply' env' state'}
    {request : op → op'} {answer : ∀ r, reply' (request r) → reply r}
    {translate : ε → ε'} (part : state' → state)
    (frame : state' → state' → Prop) (conditions : env' → env)
    (trans : ∀ {a b c}, frame a b → frame b c → frame a c)
    (answers : ∀ e s r, answer r (exec' e s (request r)).1 =
        (exec (conditions e) (part s) r).1 ∧
      part (exec' e s (request r)).2 = (exec (conditions e) (part s) r).2 ∧
      frame s (exec' e s (request r)).2)
    (refl : ∀ s, frame s s) {s : state'}
    (meets : Meets (fun e => exec (conditions e)) Eq (fun _ _ => True) query
      post err (part s)) :
    Meets exec' Eq (fun _ _ => True) (Query.lift request answer translate query)
      (fun value s' => frame s s' ∧ post value (part s'))
      (fun error s' => frame s s' ∧
        ∃ cause, error = translate cause ∧ err cause (part s')) s := by
  have lifted : ∀ (script : Query op reply ε α) (s : state'),
      Meets (fun e => exec (conditions e)) Eq (fun _ _ => True) script post
        err (part s) →
      Meets exec' Eq (fun _ _ => True)
        (Query.lift request answer translate script)
        (fun value s' => frame s s' ∧ post value (part s'))
        (fun error s' => frame s s' ∧
          ∃ cause, error = translate cause ∧ err cause (part s')) s := by
    intro script
    induction script with
    | done result =>
        intro s meets s' same
        subst same
        have holds := meets (part s) rfl
        cases result with
        | ok value => exact ⟨refl s, holds⟩
        | error error => exact ⟨refl s, error, rfl, holds⟩
    | call r next induction =>
        intro s meets s' same e
        subst same
        refine ⟨trivial, ?_⟩
        obtain ⟨same, moved, framed⟩ := answers e s r
        obtain ⟨_, rest⟩ := meets (part s) rfl e
        rw [← same, ← moved] at rest
        apply Meets.mono (induction _ _ rest)
        · intro value s' after
          exact ⟨trans framed after.1, after.2⟩
        · intro error s' after
          exact ⟨trans framed after.1, after.2⟩
  exact lifted query s meets

/-- Whatever it is answered, the query makes only such requests. -/
def Only (allowed : op → Prop) (query : Query op reply ε α) : Prop :=
  Script.Only allowed query

section Only

variable {allowed : op → Prop}

theorem Only.done (result : Except ε α) :
    Only allowed (ofExcept result : Query op reply ε α) :=
  trivial

theorem Only.pure (value : α) :
    Only allowed (Pure.pure value : Query op reply ε α) :=
  trivial

theorem Only.bind {next : α → Query op reply ε β} (first : Only allowed query)
    (rest : ∀ value, Only allowed (next value)) :
    Only allowed (query >>= next : Query op reply ε β) := by
  apply Script.Only.bind first
  intro result
  cases result with
  | ok value => exact rest value
  | error error => trivial

theorem Only.attempt (only : Only allowed query) :
    Only allowed query.attempt :=
  Script.Only.bind only fun _ => trivial

theorem Only.mapError {ε' : Type} {translate : ε → ε'}
    (only : Only allowed query) : Only allowed (query.mapError translate) :=
  Script.Only.bind only fun _ => trivial

/-- A part of a service is asked what the query asks of it. -/
theorem Only.lift {op' : Type} {reply' : op' → Type} {ε' : Type}
    {inner : op → Prop} {allowed : op' → Prop} {request : op → op'}
    {answer : ∀ r, reply' (request r) → reply r} {translate : ε → ε'}
    (only : Only inner query)
    (inside : ∀ r, inner r → allowed (request r)) :
    Only allowed (Query.lift request answer translate query) := by
  have all : ∀ script : Query op reply ε α, Script.Only inner script →
      Script.Only allowed (Query.lift request answer translate script) := by
    intro script
    induction script with
    | done result => exact fun _ => trivial
    | call r next induction =>
        exact fun only => ⟨inside r only.1, fun a => induction _ (only.2 _)⟩
  exact all query only

end Only

/-- Whatever it is answered, the query makes only such requests, and fails only
with such errors. -/
def Within (allowed : op → Prop) (err : ε → Prop) : Query op reply ε α → Prop
  | .done (.ok _) => True
  | .done (.error error) => err error
  | .call request next =>
      allowed request ∧ ∀ answer, Within allowed err (next answer)

section Within

variable {allowed : op → Prop} {err : ε → Prop}

theorem Within.pure (value : α) :
    Within allowed err (Pure.pure value : Query op reply ε α) :=
  trivial

theorem Within.fail {error : ε} (fails : err error) :
    Within allowed err (Query.fail error : Query op reply ε α) :=
  fails

theorem Within.ofExcept {result : Except ε α}
    (fails : ∀ error, result = .error error → err error) :
    Within allowed err (ofExcept result : Query op reply ε α) := by
  cases result with
  | ok value => trivial
  | error error => exact fails error rfl

theorem Within.call {request : op} {next : reply request → Query op reply ε α}
    (asks : allowed request)
    (rest : ∀ answer, Within allowed err (next answer)) :
    Within allowed err (Script.call request next : Query op reply ε α) :=
  ⟨asks, rest⟩

theorem Within.bind {next : α → Query op reply ε β}
    (first : Within allowed err query)
    (rest : ∀ value, Within allowed err (next value)) :
    Within allowed err (query >>= next : Query op reply ε β) := by
  have all : ∀ script : Query op reply ε α, Within allowed err script →
      Within allowed err (script.bind next) := by
    intro script
    induction script with
    | done result =>
        intro ends
        cases result with
        | ok value => exact rest value
        | error error => exact ends
    | call request after induction =>
        exact fun first => ⟨first.1, fun answer =>
          induction answer (first.2 answer)⟩
  exact all query first

theorem Within.only (within : Within allowed err query) :
    Only allowed query := by
  have all : ∀ script : Query op reply ε α, Within allowed err script →
      Script.Only allowed script := by
    intro script
    induction script with
    | done result => exact fun _ => trivial
    | call request after induction =>
        exact fun within => ⟨within.1, fun answer =>
          induction answer (within.2 answer)⟩
  exact all query within

end Within

/-- The query alone, when the conditions do not change. -/
def run (exec : Script.Service op reply env state) (e : env)
    (query : Query op reply ε α) (s : state) : Except ε α × state :=
  Script.run exec (fun _ => e) query s

section Steady

variable {e : env} {next : α → Query op reply ε β}

theorem Meets.run_steady (refl : ∀ s, rely s s) (e : env)
    (meets : Meets exec rely guar query post err s) :
    match query.run exec e s with
    | (.ok value, s') => post value s'
    | (.error error, s') => err error s' := by
  have ends := Script.Meets.run refl (fun _ => e) meets
  unfold run
  cases result : Script.run exec (fun _ => e) query s with
  | mk answer after =>
      rw [result] at ends
      cases answer with
      | ok value => exact ends
      | error error => exact ends

theorem run_bind (e : env) (query : Query op reply ε α)
    (next : α → Query op reply ε β) (s : state) :
    (query >>= next).run exec e s =
      match query.run exec e s with
      | (.ok value, s') => (next value).run exec e s'
      | (.error error, s') => (.error error, s') := by
  apply (Script.run_bind e _).trans
  unfold run
  cases Script.run exec (fun _ => e) query s with
  | mk answer after =>
      cases answer with
      | ok value => rfl
      | error error => rfl

theorem run_bind_ok {value : α}
    (ends : query.run exec e s = (.ok value, s')) :
    (query >>= next).run exec e s = (next value).run exec e s' := by
  rw [run_bind, ends]

theorem run_bind_error {error : ε}
    (ends : query.run exec e s = (.error error, s')) :
    (query >>= next).run exec e s = (.error error, s') := by
  rw [run_bind, ends]

theorem run_attempt (e : env) (query : Query op reply ε α) (s : state) :
    query.attempt.run exec e s =
      (.ok (query.run exec e s).1, (query.run exec e s).2) :=
  Script.run_bind e _

theorem run_mapError {ε' : Type} (translate : ε → ε') (e : env)
    (query : Query op reply ε α) (s : state) :
    (query.mapError translate).run exec e s =
      ((query.run exec e s).1.mapError translate, (query.run exec e s).2) :=
  Script.run_bind e _

/-- A query to a part of the state does there what it does alone. -/
theorem run_lift {op' : Type} {reply' : op' → Type} {state' env' ε' : Type}
    {exec' : Script.Service op' reply' env' state'}
    {request : op → op'} {answer : ∀ r, reply' (request r) → reply r}
    {translate : ε → ε'} (part : state' → state)
    (put : state' → state → state') (conditions : env' → env)
    (part_put : ∀ s t, part (put s t) = t)
    (put_put : ∀ s t t', put (put s t) t' = put s t')
    (put_part : ∀ s, put s (part s) = s)
    (answers : ∀ e s r, answer r (exec' e s (request r)).1 =
        (exec (conditions e) (part s) r).1 ∧
      (exec' e s (request r)).2 = put s (exec (conditions e) (part s) r).2)
    (query : Query op reply ε α) (e : env') (s : state') :
    (lift request answer translate query).run exec' e s =
      ((query.run exec (conditions e) (part s)).1.mapError translate,
        put s (query.run exec (conditions e) (part s)).2) := by
  have lifted : ∀ (script : Query op reply ε α) (s : state'),
      (lift request answer translate script).run exec' e s =
        ((script.run exec (conditions e) (part s)).1.mapError translate,
          put s (script.run exec (conditions e) (part s)).2) := by
    intro script
    induction script with
    | done result =>
        intro s
        exact Prod.ext rfl (put_part s).symm
    | call r next induction =>
        intro s
        obtain ⟨same, moved⟩ := answers e s r
        have rest := induction (answer r (exec' e s (request r)).1)
          (exec' e s (request r)).2
        rw [same, moved, part_put, put_put] at rest
        simp only [run, lift, Script.run, same, moved] at rest ⊢
        exact rest
  exact lifted query s

end Steady

end Query

end MiryadCore
