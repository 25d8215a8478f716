import MiryadCore.Auth.Handshake
import Mathlib.Data.List.TakeWhile

/-!
# Whom a session cookie authenticates

The cookies that a client presents may be any texts, as long as those that open
were sealed for an earlier visit.  An exchange then uses what one login
generated, and a session is that of an earlier exchange.
-/

namespace MiryadCore.Auth.Handshake

variable {auth : MiryadAuthState}

def Visit.cookie : Visit → Option (List UInt8)
  | .login => none
  | .callback _ cookie => cookie
  | .logout => none
  | .route cookie => cookie

/-- The values of all the cookies that a visit presents. -/
def Visit.presented (visit : Visit) : List String :=
  match visit.cookie.bind toStr with
  | none => []
  | some header => Auth.presented header

/-- A presented text that opens under a name was sealed under it, with what it
opens to, for an earlier visit. -/
def Unforged (visits : Visits auth) : Prop :=
  ∀ earlier visit conditions later,
    visits = earlier ++ (visit, conditions) :: later →
    ∀ text ∈ visit.presented, ∀ name value,
      auth.codecs.decrypt name text = some value →
      ∃ past ∈ history auth earlier, .sealed name value ∈ past.events

/-- No `csrf` and no `nonce` has a colon. -/
def Plain (visits : Visits auth) : Prop :=
  ∀ entry ∈ visits, ':' ∉ entry.2.authorization.csrf.toList ∧
    ':' ∉ entry.2.authorization.nonce.toList

section Visits

variable {conditions : Conditions auth} {visit : Visit}
  {params : CallbackParams} {cookie : Option (List UInt8)} {event : Event}

theorem pendingPieces_eq {csrf nonce : String} (pkceVerifier : String)
    (plainCsrf : ':' ∉ csrf.toList) (plainNonce : ':' ∉ nonce.toList) :
    pendingPieces (csrf ++ ":" ++ nonce ++ ":" ++ pkceVerifier) =
      some (csrf, nonce, pkceVerifier) := by
  have text : (csrf ++ ":" ++ nonce ++ ":" ++ pkceVerifier).toList =
      csrf.toList ++ ':' :: (nonce.toList ++ ':' :: pkceVerifier.toList) := by
    simp
  rw [pendingPieces, text, splitOnce_append plainCsrf]
  simp [splitOnce_append plainNonce]

/-- What a callback has found before its exchange. -/
structure Opened (auth : MiryadAuthState) (params : CallbackParams)
    (cookie : Option (List UInt8)) (value nonce pkceVerifier : String) :
    Prop where
  found : findSealedCookie auth.codecs (cookie.bind toStr)
    PENDING_COOKIE_NAME = .ok value
  pieces : pendingPieces value = some (params.state, nonce, pkceVerifier)

theorem handlerCallback_found {value : String}
    (opened : findSealedCookie auth.codecs (cookie.bind toStr)
      PENDING_COOKIE_NAME = .ok value) :
    handlerCallback auth conditions params cookie =
      match pendingPieces value with
      | none => Logged.fail .invalidCallback
      | some (expectedCsrf, nonce, pkceVerifier) =>
          if params.state ≠ expectedCsrf then Logged.fail .csrfMismatch
          else concludeCallback auth conditions params.code nonce
            pkceVerifier := by
  rw [handlerCallback, opened]
  rfl

/-- A callback ends before its exchange, or goes on from there. -/
theorem handlerCallback_cases (conditions : Conditions auth)
    (params : CallbackParams) (cookie : Option (List UInt8)) :
    (∃ error, handlerCallback auth conditions params cookie =
      Logged.fail error) ∨
    ∃ value nonce pkceVerifier,
      Opened auth params cookie value nonce pkceVerifier ∧
      handlerCallback auth conditions params cookie =
        concludeCallback auth conditions params.code nonce pkceVerifier := by
  cases opened : findSealedCookie auth.codecs (cookie.bind toStr)
      PENDING_COOKIE_NAME with
  | error error =>
      left
      refine ⟨.invalidCallback, ?_⟩
      rw [handlerCallback, opened]
      rfl
  | ok value =>
      rw [handlerCallback_found opened]
      cases pieces : pendingPieces value with
      | none => exact Or.inl ⟨_, rfl⟩
      | some triple =>
          obtain ⟨csrf, nonce, pkceVerifier⟩ := triple
          by_cases same : params.state = csrf
          · subst same
            right
            refine ⟨value, nonce, pkceVerifier, ⟨opened, pieces⟩, ?_⟩
            exact if_neg (not_not.mpr rfl)
          · left
            exact ⟨_, if_pos same⟩

/-- The exchange is logged, then the session that is sealed. -/
theorem concludeCallback_cases (conditions : Conditions auth)
    (code nonce pkceVerifier : String) :
    (concludeCallback auth conditions code nonce pkceVerifier).log =
        [.exchanged code nonce pkceVerifier
          (conditions.exchangeCode code nonce pkceVerifier)] ∧
      (∃ error, (concludeCallback auth conditions code nonce
        pkceVerifier).outcome = .error error) ∨
    ∃ login, conditions.exchangeCode code nonce pkceVerifier = .ok login ∧
      concludeCallback auth conditions code nonce pkceVerifier =
        ⟨found auth.postLoginRedirect
          [buildSetCookie auth.codecs conditions.sealNonce conditions.now
            login.identity auth.secureCookies,
            PENDING_COOKIE_NAME ++ "=; HttpOnly" ++
              secureAttr auth.secureCookies ++
              "; SameSite=Lax; Path=/; Max-Age=0"],
          [.exchanged code nonce pkceVerifier (.ok login),
            .sealed SESSION_COOKIE_NAME
              (auth.codecs.payload login.identity)]⟩ := by
  unfold concludeCallback
  cases conditions.exchangeCode code nonce pkceVerifier with
  | error error => exact Or.inl ⟨rfl, error, rfl⟩
  | ok login =>
      simp only [Logged.bind_eq, Logged.bind, Logged.emit, Logged.lift]
      cases conditions.resolveUser login.identity.subject
          login.identity.email with
      | error error => exact Or.inl ⟨rfl, _, rfl⟩
      | ok userId =>
          simp only [Except.mapError]
          cases conditions.syncGroupMemberships userId login.groups with
          | error error => exact Or.inl ⟨rfl, _, rfl⟩
          | ok synced => exact Or.inr ⟨login, rfl, rfl⟩

/-- What a login seals. -/
def pendingValue (authorization : Authorization) : String :=
  authorization.csrf ++ ":" ++ authorization.nonce ++ ":" ++
    authorization.pkceVerifier

theorem handlerLogin_log (conditions : Conditions auth) :
    (handlerLogin auth conditions).log =
      [.generated conditions.authorization,
        .sealed PENDING_COOKIE_NAME
          (pendingValue conditions.authorization)] :=
  rfl

/-- What a visit has sealed: what a login generated, or the identity of an
exchange. -/
inductive Sealing (visit : Visit) (conditions : Conditions auth)
    (name value : String) : Prop where
  | pending (login : visit = .login) (named : name = PENDING_COOKIE_NAME)
      (valued : value = pendingValue conditions.authorization)
  | session {params : CallbackParams} {cookie : Option (List UInt8)}
      {code nonce pkceVerifier : String} {login : OidcLoginResult}
      (callback : visit = .callback (.ok params) cookie)
      (named : name = SESSION_COOKIE_NAME)
      (valued : value = auth.codecs.payload login.identity)
      (exchanged : .exchanged code nonce pkceVerifier (.ok login) ∈
        (serve auth visit conditions).events)

theorem sealing_of_served {name value : String}
    (logged : .sealed name value ∈ (serve auth visit conditions).events) :
    Sealing visit conditions name value := by
  cases visit with
  | login =>
      have events : .sealed name value ∈ (handlerLogin auth conditions).log :=
        logged
      rw [handlerLogin_log] at events
      simp only [List.mem_cons, reduceCtorEq, Event.sealed.injEq,
        List.not_mem_nil, or_false, false_or] at events
      obtain ⟨rfl, rfl⟩ := events
      exact .pending rfl rfl rfl
  | callback query cookie =>
      cases query with
      | error text => cases logged
      | ok params =>
          have events : .sealed name value ∈
              (handlerCallback auth conditions params cookie).log := logged
          rcases handlerCallback_cases conditions params cookie with
            refused | opened
          · obtain ⟨error, ends⟩ := refused
            rw [ends] at events
            cases events
          · obtain ⟨_, nonce, pkceVerifier, _, ends⟩ := opened
            rw [ends] at events
            rcases concludeCallback_cases conditions params.code nonce
              pkceVerifier with failed | concluded
            · rw [failed.1] at events
              simp at events
            · obtain ⟨login, _, concludes⟩ := concluded
              rw [concludes] at events
              simp only [List.mem_cons, reduceCtorEq, Event.sealed.injEq,
                List.not_mem_nil, or_false, false_or] at events
              obtain ⟨rfl, rfl⟩ := events
              apply Sealing.session rfl rfl rfl
              show .exchanged params.code nonce pkceVerifier (.ok login) ∈
                (handlerCallback auth conditions params cookie).log
              rw [ends, concludes]
              exact List.mem_cons_self
  | logout => cases logged
  | route cookie => cases logged

theorem events_callback : (serve auth (.callback (.ok params) cookie)
    conditions).events =
      (handlerCallback auth conditions params cookie).log :=
  rfl

/-- What a visit exchanges is of a pending cookie with its state. -/
theorem opened_of_exchanged {code nonce pkceVerifier : String}
    {result : Except AuthError OidcLoginResult}
    (logged : .exchanged code nonce pkceVerifier result ∈
      (serve auth visit conditions).events) :
    ∃ params cookie value, visit = .callback (.ok params) cookie ∧
      params.code = code ∧
      Opened auth params cookie value nonce pkceVerifier ∧
      serve auth visit conditions =
        { visit, now := conditions.now
          events := (concludeCallback auth conditions code nonce
            pkceVerifier).log
          answer := respond auth (concludeCallback auth conditions code nonce
            pkceVerifier) } := by
  cases visit with
  | login =>
      have events : .exchanged code nonce pkceVerifier result ∈
          (handlerLogin auth conditions).log := logged
      rw [handlerLogin_log] at events
      simp at events
  | callback query cookie =>
      cases query with
      | error text => cases logged
      | ok params =>
          have events : .exchanged code nonce pkceVerifier result ∈
              (handlerCallback auth conditions params cookie).log := logged
          rcases handlerCallback_cases conditions params cookie with
            refused | opened
          · obtain ⟨error, ends⟩ := refused
            rw [ends] at events
            cases events
          · obtain ⟨value, nonce', verifier', opens, ends⟩ := opened
            have same : params.code = code ∧ nonce' = nonce ∧
                verifier' = pkceVerifier := by
              rw [ends] at events
              rcases concludeCallback_cases conditions params.code nonce'
                verifier' with failed | concluded
              · rw [failed.1, List.mem_singleton, Event.exchanged.injEq]
                  at events
                exact ⟨events.1.symm, events.2.1.symm, events.2.2.1.symm⟩
              · obtain ⟨login, _, concludes⟩ := concluded
                rw [concludes] at events
                simp only [List.mem_cons, Event.exchanged.injEq, reduceCtorEq,
                  List.not_mem_nil, or_false] at events
                exact ⟨events.1.symm, events.2.1.symm, events.2.2.1.symm⟩
            obtain ⟨rfl, rfl, rfl⟩ := same
            refine ⟨params, cookie, value, rfl, rfl, opens, ?_⟩
            rw [serve, ends]
  | logout => cases logged
  | route cookie => cases logged

theorem presented_of_found (visit : Visit) {name clear : String}
    (found : findSealedCookie auth.codecs (visit.cookie.bind toStr) name =
      .ok clear) :
    ∃ text ∈ visit.presented, auth.codecs.decrypt name text = some clear := by
  obtain ⟨header, read, text, member, opens⟩ := presented_of_find found
  refine ⟨text, ?_, opens⟩
  rw [Visit.presented, read]
  exact member

end Visits

/-- A handler that answers at all redirects. -/
def Redirects (code : Code Response) : Prop :=
  ∀ response, code.outcome = .ok response → response.status = 302

theorem redirects_found (location : String) (setCookies : List String)
    (log : List Event) : Redirects ⟨found location setCookies, log⟩ := by
  intro response built
  dsimp only at built
  unfold found at built
  split at built
  next =>
    obtain rfl := Except.ok.inj built
    rfl
  next => cases built

theorem redirects_conclude (conditions : Conditions auth)
    (code nonce pkceVerifier : String) :
    Redirects (concludeCallback auth conditions code nonce pkceVerifier) := by
  rcases concludeCallback_cases conditions code nonce pkceVerifier with
    failed | concluded
  · obtain ⟨_, error, ends⟩ := failed
    intro response answered
    rw [ends] at answered
    cases answered
  · obtain ⟨login, _, concludes⟩ := concluded
    rw [concludes]
    exact redirects_found _ _ _

theorem redirects_callback (conditions : Conditions auth)
    (params : CallbackParams) (cookie : Option (List UInt8)) :
    Redirects (handlerCallback auth conditions params cookie) := by
  rcases handlerCallback_cases conditions params cookie with refused | opened
  · obtain ⟨error, ends⟩ := refused
    rw [ends]
    intro response answered
    cases answered
  · obtain ⟨_, _, _, _, ends⟩ := opened
    rw [ends]
    exact redirects_conclude _ _ _ _

theorem le_status (error : AuthError) : 400 ≤ error.status := by
  cases error <;> simp [AuthError.status]

theorem respond_error {code : Code Response} {error : AuthError}
    (ends : code.outcome = .error error) :
    respond auth code = .response (intoResponse auth.dbText error) := by
  obtain ⟨outcome, log⟩ := code
  obtain rfl := ends
  rfl

theorem setCookies_of_respond {code : Code Response} {response : Response}
    (redirects : Redirects code)
    (answered : respond auth code = .response response)
    (refused : 400 ≤ response.status) : response.setCookies = [] := by
  obtain ⟨outcome, log⟩ := code
  cases outcome with
  | ok answer =>
      obtain rfl := Answer.response.inj answered
      rw [redirects answer rfl] at refused
      exact absurd refused (by decide)
  | error error =>
      obtain rfl := Answer.response.inj answered
      rfl

theorem setCookies_of_served {visit : Visit} {conditions : Conditions auth}
    {response : Response}
    (answered : (serve auth visit conditions).answer = .response response)
    (refused : 400 ≤ response.status) : response.setCookies = [] := by
  cases visit with
  | login =>
      exact setCookies_of_respond (redirects_found _ _ _) answered refused
  | callback query cookie =>
      cases query with
      | error text =>
          obtain rfl := Answer.response.inj answered
          rfl
      | ok params =>
          exact setCookies_of_respond (redirects_callback _ _ _) answered
            refused
  | logout =>
      exact setCookies_of_respond (redirects_found _ _ _) answered refused
  | route cookie =>
      unfold serve at answered
      dsimp only at answered
      split at answered
      next => cases answered
      next =>
        obtain rfl := Answer.response.inj answered
        rfl

theorem session_of_served {visit : Visit} {conditions : Conditions auth}
    {identity : OidcIdentity}
    (answered : (serve auth visit conditions).answer = .session identity) :
    ∃ cookie, visit = .route cookie ∧ extractSession auth.codecs
      conditions.now (cookie.bind toStr) = .ok identity := by
  have never : ∀ code, respond auth code ≠ .session identity := by
    intro code same
    obtain ⟨outcome, log⟩ := code
    cases outcome with
    | ok response => cases same
    | error error => cases same
  cases visit with
  | login => exact (never _ answered).elim
  | callback query cookie =>
      cases query with
      | error text => cases answered
      | ok params => exact (never _ answered).elim
  | logout => exact (never _ answered).elim
  | route cookie =>
      refine ⟨cookie, rfl, ?_⟩
      unfold serve at answered
      dsimp only at answered
      split at answered
      next accepted =>
        obtain rfl := Answer.session.inj answered
        exact accepted
      next => cases answered

/-- The session cookie of a response, whose value is accepted as this identity
for as long as its token lives. -/
def Accepted (codecs : Codecs) (identity : OidcIdentity)
    (response : Response) : Prop :=
  ∃ sealed attributes, ';' ∉ sealed.toList ∧
    SESSION_COOKIE_NAME ++ "=" ++ sealed ++ ";" ++ attributes ∈
      response.setCookies ∧
    ∀ header exp t, PresentedFirst header SESSION_COOKIE_NAME sealed →
      WholeExp codecs identity.idToken exp → t < exp * 1000000000 →
      extractSession codecs (some t) (some header) = .ok identity

/-- What a visit may rely on. -/
structure Sound (earlier : Visits auth) (served : Served) : Prop where
  exchange : ∀ {code nonce pkceVerifier result},
    .exchanged code nonce pkceVerifier result ∈ served.events →
    ∃ params cookie, served.visit = .callback (.ok params) cookie ∧
      params.code = code ∧
      ∃ past ∈ history auth earlier, past.visit = .login ∧
        ∃ url, .generated ⟨url, params.state, nonce, pkceVerifier⟩ ∈
          past.events
  session : ∀ {identity}, served.answer = .session identity →
    (∃ past ∈ history auth earlier, ∃ params cookie,
      past.visit = .callback (.ok params) cookie ∧
      ∃ code nonce pkceVerifier groups,
        .exchanged code nonce pkceVerifier (.ok ⟨identity, groups⟩) ∈
          past.events) ∧
    ∃ t exp, served.now = some t ∧
      WholeExp auth.codecs identity.idToken exp ∧ t < exp * 1000000000
  accepted : ∀ {code nonce pkceVerifier login response},
    .exchanged code nonce pkceVerifier (.ok login) ∈ served.events →
    served.answer = .response response → response.status = 302 →
    Accepted auth.codecs login.identity response
  refused : ∀ {response}, served.answer = .response response →
    400 ≤ response.status → response.setCookies = []

theorem accepted_of_set (conditions : Conditions auth)
    {identity : OidcIdentity} {response : Response}
    (member : buildSetCookie auth.codecs conditions.sealNonce conditions.now
      identity auth.secureCookies ∈ response.setCookies) :
    Accepted auth.codecs identity response := by
  refine ⟨auth.codecs.encrypt conditions.sealNonce SESSION_COOKIE_NAME
    (auth.codecs.payload identity), " HttpOnly" ++
      (secureAttr auth.secureCookies ++
        ("; SameSite=Strict; Path=/; Max-Age=" ++
          toString ((extractExpClaim auth.codecs identity.idToken).getD 0 -
            (conditions.now.map asSecs).getD 0))), ?_, ?_, ?_⟩
  · intro inside
    have letter := auth.codecs.base64 _ _ _ _ inside
    revert letter
    decide
  · rw [buildSetCookie, show "; HttpOnly" = ";" ++ " HttpOnly" from rfl]
      at member
    simp only [String.append_assoc] at member ⊢
    exact member
  · intro header exp t first whole live
    apply extractSession_eq_ok.mpr
    refine ⟨_, t, exp, find_of_presentedFirst first ?_
      (auth.codecs.decrypt_encrypt _ _ _),
      auth.codecs.readPayload_payload identity, rfl, whole, live⟩
    decide

/-- In every run, each visit exchanges with what one login generated, gives
the identity of an earlier exchange while its token lives, and sets no cookie
with an error. -/
theorem sound_of_visits {visits : Visits auth} (unforged : Unforged visits)
    (plain : Plain visits) {earlier later : Visits auth} {visit : Visit}
    {conditions : Conditions auth}
    (split : visits = earlier ++ (visit, conditions) :: later) :
    Sound earlier (serve auth visit conditions) := by
  constructor
  case exchange =>
    intro code nonce pkceVerifier result logged
    obtain ⟨params, cookie, value, rfl, same, opened, _⟩ :=
      opened_of_exchanged logged
    refine ⟨params, cookie, rfl, same, ?_⟩
    obtain ⟨text, member, opens⟩ :=
      presented_of_found (.callback (.ok params) cookie) opened.found
    obtain ⟨past, before, sealed⟩ :=
      unforged _ _ _ _ split text member _ _ opens
    obtain ⟨⟨visited, asked⟩, there, rfl⟩ := List.mem_map.mp before
    refine ⟨_, before, ?_⟩
    cases sealing_of_served sealed with
    | pending login named valued =>
        subst login valued
        have member : (.login, asked) ∈ visits := by
          rw [split]
          exact List.mem_append_left _ there
        obtain ⟨plainCsrf, plainNonce⟩ := plain _ member
        have pieces := opened.pieces
        rw [pendingValue, pendingPieces_eq _ plainCsrf plainNonce] at pieces
        simp only [Option.some.injEq, Prod.mk.injEq] at pieces
        obtain ⟨state, rfl, rfl⟩ := pieces
        refine ⟨rfl, asked.authorization.url, ?_⟩
        rw [← state]
        exact List.mem_cons_self
    | session callback named valued exchanged =>
        exact absurd named (by decide)
  case session =>
    intro identity answered
    obtain ⟨cookie, rfl, accepted⟩ := session_of_served answered
    obtain ⟨clear, t, exp, opened, read, now, whole, live⟩ :=
      extractSession_eq_ok.mp accepted
    refine ⟨?_, t, exp, now, whole, live⟩
    obtain ⟨text, member, opens⟩ :=
      presented_of_found (.route cookie) opened
    obtain ⟨past, before, sealed⟩ :=
      unforged _ _ _ _ split text member _ _ opens
    obtain ⟨⟨visited, asked⟩, there, rfl⟩ := List.mem_map.mp before
    refine ⟨_, before, ?_⟩
    cases sealing_of_served sealed with
    | pending login named valued => exact absurd named (by decide)
    | session callback named valued exchanged =>
        subst valued
        rw [auth.codecs.readPayload_payload] at read
        obtain rfl := Option.some.inj read
        exact ⟨_, _, (serve_visit auth visited asked).trans callback, _, _, _,
          _, exchanged⟩
  case accepted =>
    intro code nonce pkceVerifier login response logged answered redirected
    obtain ⟨params, cookie, value, rfl, same, opened, served⟩ :=
      opened_of_exchanged logged
    rw [served] at logged answered
    rcases concludeCallback_cases conditions code nonce pkceVerifier with
      failed | concluded
    · obtain ⟨_, error, ends⟩ := failed
      dsimp only at answered
      rw [respond_error ends] at answered
      obtain rfl := Answer.response.inj answered
      have refused := le_status error
      rw [show error.status = 302 from redirected] at refused
      exact absurd refused (by decide)
    · obtain ⟨login', exchanged, concludes⟩ := concluded
      rw [concludes] at logged answered
      obtain rfl : login = login' := by
        simpa using logged
      apply accepted_of_set conditions
      unfold found at answered
      split at answered
      next =>
        obtain rfl := Answer.response.inj answered
        exact List.mem_cons_self
      next =>
        obtain rfl := Answer.response.inj answered
        cases redirected
  case refused => exact setCookies_of_served

/-- The digit of a base of sixteen, as a letter. -/
def letter (digit : ℕ) : Char :=
  Char.ofNat (65 + digit % 16)

def lettersOf (char : Char) : List Char :=
  [letter (char.toNat / 1048576), letter (char.toNat / 65536),
    letter (char.toNat / 4096), letter (char.toNat / 256),
    letter (char.toNat / 16), letter char.toNat]

def spell (text : String) : List Char :=
  text.toList.flatMap lettersOf

def unspell : List Char → List Char
  | a :: b :: c :: d :: e :: f :: rest =>
      Char.ofNat ((a.toNat - 65) * 1048576 + (b.toNat - 65) * 65536 +
        (c.toNat - 65) * 4096 + (d.toNat - 65) * 256 + (e.toNat - 65) * 16 +
        (f.toNat - 65)) :: unspell rest
  | _ => []

theorem toNat_letter (digit : ℕ) : (letter digit).toNat = 65 + digit % 16 := by
  have letters : ∀ small : Fin 16,
      (Char.ofNat (65 + small.val)).toNat = 65 + small.val := by
    decide
  exact letters ⟨digit % 16, Nat.mod_lt _ (by decide)⟩

theorem isBase64_letter (digit : ℕ) : isBase64 (letter digit) = true := by
  have letters : ∀ small : Fin 16,
      isBase64 (Char.ofNat (65 + small.val)) = true := by
    decide
  exact letters ⟨digit % 16, Nat.mod_lt _ (by decide)⟩

theorem toNat_lt (char : Char) : char.toNat < 16777216 := by
  have valid : char.toNat.isValidChar := char.valid
  unfold Nat.isValidChar at valid
  omega

theorem unspell_spell (text : String) : unspell (spell text) = text.toList := by
  have all : ∀ chars : List Char,
      unspell (chars.flatMap lettersOf) = chars := by
    intro chars
    induction chars with
    | nil => rfl
    | cons char chars induction =>
        simp only [List.flatMap_cons, lettersOf, List.cons_append,
          List.nil_append, unspell, toNat_letter, induction]
        congr 1
        have bounded := toNat_lt char
        rw [show _ + _ = char.toNat by omega, Char.ofNat_toNat]
  exact all text.toList

theorem spell_inj {text other : String} (same : spell text = spell other) :
    text = other := by
  apply String.toList_inj.mp
  rw [← unspell_spell text, same, unspell_spell]

theorem slash_notMem_spell (text : String) : '/' ∉ spell text := by
  intro member
  obtain ⟨char, _, here⟩ := List.mem_flatMap.mp member
  have letters : ∀ digit, '/' ≠ letter digit := by
    intro digit same
    have codes := congrArg Char.toNat same
    rw [toNat_letter] at codes
    revert codes
    show ¬ 47 = _
    omega
  simp only [lettersOf, List.mem_cons, letters, List.not_mem_nil, or_false]
    at here

theorem isBase64_spell (text : String) :
    ∀ char ∈ spell text, isBase64 char = true := by
  intro char member
  obtain ⟨original, _, here⟩ := List.mem_flatMap.mp member
  simp only [lettersOf, List.mem_cons, List.not_mem_nil, or_false] at here
  rcases here with rfl | rfl | rfl | rfl | rfl | rfl
  all_goals exact isBase64_letter _

def encryptLetters (name value : String) : String :=
  String.ofList (spell name ++ '/' :: spell value)

def decryptLetters (name text : String) : Option String :=
  match splitOnce '/' text.toList with
  | none => none
  | some (under, value) =>
      if under = spell name then some (String.ofList (unspell value)) else none

theorem decryptLetters_eq_some {name value name' value' : String} :
    decryptLetters name (encryptLetters name' value') = some value ↔
      name = name' ∧ value = value' := by
  rw [decryptLetters, encryptLetters, String.toList_ofList,
    splitOnce_append (slash_notMem_spell name')]
  dsimp only
  rw [unspell_spell, String.ofList_toList]
  constructor
  · intro opened
    split at opened
    next same => exact ⟨(spell_inj same).symm, (Option.some.inj opened).symm⟩
    next => cases opened
  · intro same
    rw [same.1, same.2, if_pos rfl]

def spellOption : Option String → List Char
  | none => ['-']
  | some text => '+' :: spell text

def unspellOption : List Char → Option String
  | '+' :: letters => some (String.ofList (unspell letters))
  | _ => none

theorem unspellOption_spellOption (text : Option String) :
    unspellOption (spellOption text) = text := by
  cases text with
  | none => rfl
  | some text =>
      rw [spellOption, unspellOption, unspell_spell, String.ofList_toList]

theorem slash_notMem_spellOption (text : Option String) :
    '/' ∉ spellOption text := by
  cases text with
  | none => decide
  | some text => simp [spellOption, slash_notMem_spell]

def fields (identity : OidcIdentity) : List (List Char) :=
  [spell identity.idToken, spell identity.subject, spellOption identity.email,
    spellOption identity.preferredUsername]

/-- The claims of the token of alice. -/
def expClaim : String := "\x7b\"exp\":2000000000\x7d"

/-- Cookies that are sealed by a spelling of their names and values, and the one
token that is read. -/
def letters : Codecs where
  Nonce := Unit
  encrypt := fun _ => encryptLetters
  decrypt := decryptLetters
  payload := fun identity => String.ofList (['/'].intercalate (fields identity))
  readPayload := fun text =>
    match text.toList.splitOn '/' with
    | [idToken, subject, email, preferredUsername] => some
        { idToken := String.ofList (unspell idToken)
          subject := String.ofList (unspell subject)
          email := unspellOption email
          preferredUsername := unspellOption preferredUsername }
    | _ => none
  decodeSegment := fun segment =>
    if segment = "eyJleHAiOjIwMDAwMDAwMDB9" then some (bytesOf expClaim)
    else none
  readExp := fun bytes =>
    if bytes = bytesOf expClaim then some (some (.finite 2000000000)) else none
  decrypt_encrypt := fun _ _ _ => decryptLetters_eq_some.mpr ⟨rfl, rfl⟩
  base64 := by
    intro _ name value char member
    rw [encryptLetters, String.toList_ofList] at member
    rcases List.mem_append.mp member with under | after
    · exact isBase64_spell name char under
    · rcases List.mem_cons.mp after with rfl | spelled
      · rfl
      · exact isBase64_spell value char spelled
  readPayload_payload := by
    intro identity
    have free : ∀ field ∈ fields identity, '/' ∉ field := by
      simp [fields, slash_notMem_spell, slash_notMem_spellOption]
    rw [String.toList_ofList,
      List.splitOn_intercalate '/' free (by simp [fields])]
    simp [fields, unspell_spell, unspellOption_spellOption]

def lettersAuth : MiryadAuthState where
  codecs := letters
  postLoginRedirect := "/"
  postLogoutRedirect := "/"
  secureCookies := false
  dbText := fun _ => "unavailable"

def alice : OidcIdentity :=
  { idToken := "eyJhbGciOiJSUzI1NiJ9.eyJleHAiOjIwMDAwMDAwMDB9.c2ln"
    subject := "alice", email := none, preferredUsername := some "al" }

/-- The conditions of all the visits. -/
def steady : Conditions lettersAuth where
  authorization := ⟨"https://issuer", "c", "n", "v"⟩
  exchangeCode := fun _ _ _ => .ok { identity := alice, groups := [] }
  resolveUser := fun _ _ => .ok 1
  syncGroupMemberships := fun _ _ => .ok ()
  sealNonce := ()
  now := some 1700000000000000000

/-- Visible, and neither a blank nor a semicolon. -/
def Visible (text : List Char) : Prop :=
  ∀ char ∈ text, 32 < char.toNat ∧ char.toNat < 127 ∧ char ≠ ';'

theorem range_of_isAlphanum {char : Char} (letter : char.isAlphanum = true) :
    48 ≤ char.toNat ∧ char.toNat ≤ 122 := by
  rcases (Bool.or_eq_true _ _).mp letter with cased | digit
  · rcases (Bool.or_eq_true _ _).mp cased with upper | lower
    · have range := of_decide_eq_true upper
      exact ⟨le_trans (by decide) range.1, le_trans range.2 (by decide)⟩
    · have range := (Bool.and_eq_true _ _).mp lower
      exact ⟨le_trans (by decide) (of_decide_eq_true range.1),
        le_trans (of_decide_eq_true range.2) (by decide)⟩
  · have range := (Bool.and_eq_true _ _).mp digit
    exact ⟨le_trans (by decide) (of_decide_eq_true range.1),
      le_trans (of_decide_eq_true range.2) (by decide)⟩

theorem visible_base64 {char : Char} (letter : isBase64 char = true) :
    32 < char.toNat ∧ char.toNat < 127 ∧ char ≠ ';' := by
  have other : char ≠ ';' := by
    rintro rfl
    revert letter
    decide
  simp only [isBase64, Bool.or_eq_true, decide_eq_true_eq] at letter
  rcases letter with ((letter | rfl) | rfl) | rfl
  · have range := range_of_isAlphanum letter
    exact ⟨by omega, by omega, other⟩
  all_goals exact ⟨by decide, by decide, other⟩

theorem isWhitespace_of_visible {char : Char} (low : 32 < char.toNat)
    (high : char.toNat < 127) : Users.isWhitespace char = false := by
  simp [Users.isWhitespace]
  omega

theorem trim_of_visible {text : List Char} (visible : Visible text) :
    Users.trim text = text := by
  have keeps : ∀ chars : List Char, Visible chars →
      chars.dropWhile Users.isWhitespace = chars := by
    intro chars plain
    apply List.dropWhile_eq_self_iff.mpr
    intro filled
    have bounds := plain _ (List.getElem_mem filled)
    rw [isWhitespace_of_visible bounds.1 bounds.2.1]
    exact Bool.false_ne_true
  rw [Users.trim, keeps text visible, keeps text.reverse, List.reverse_reverse]
  exact fun char member => visible char (List.mem_reverse.mp member)

theorem segments_of_visible {text : String} (visible : Visible text.toList)
    (filled : text.toList ≠ []) : segments text = [text.toList] := by
  have whole : ';' ∉ text.toList := fun inside => (visible _ inside).2.2 rfl
  rw [segments, List.splitOn_eq_singleton whole, List.map_singleton,
    trim_of_visible visible]
  simp [filled]

/-- The text of one cookie of the seal. -/
def cookieText (name clear : String) : String :=
  name ++ "=" ++ encryptLetters name clear

section OneCookie

variable {name clear : String}

theorem visible_cookieText (visible : Visible name.toList) :
    Visible (cookieText name clear).toList := by
  intro char member
  simp only [cookieText, String.toList_append, List.append_assoc,
    List.mem_append] at member
  rcases member with named | equals | sealed
  · exact visible char named
  · rw [List.mem_singleton.mp equals]
    decide
  · exact visible_base64 (letters.base64 () name clear char sealed)

theorem read_cookieText (visible : Visible name.toList) :
    toStr (bytesOf (cookieText name clear)) = some (cookieText name clear) := by
  apply toStr_bytesOf
  intro char member
  have bounds := visible_cookieText visible char member
  exact Or.inl ⟨bounds.1.le, bounds.2.1⟩

theorem segments_cookieText (visible : Visible name.toList) :
    segments (cookieText name clear) =
      [name.toList ++ '=' :: (encryptLetters name clear).toList] := by
  have text : (cookieText name clear).toList =
      name.toList ++ '=' :: (encryptLetters name clear).toList := by
    simp [cookieText]
  rw [segments_of_visible (visible_cookieText visible), text]
  rw [text]
  simp

theorem presented_cookieText (visible : Visible name.toList)
    (named : '=' ∉ name.toList) :
    Auth.presented (cookieText name clear) = [encryptLetters name clear] := by
  rw [Auth.presented, segments_cookieText visible]
  simp [splitOnce_append named]

theorem find_cookieText (visible : Visible name.toList)
    (named : '=' ∉ name.toList) :
    findSealedCookie letters (some (cookieText name clear)) name =
      .ok clear := by
  have opens : letters.decrypt name (encryptLetters name clear) = some clear :=
    decryptLetters_eq_some.mpr ⟨rfl, rfl⟩
  rw [findSealedCookie, segments_cookieText visible, List.findSome?_cons,
    cookieValue_eq_some.mpr (splitOnce_append named _)]
  dsimp only
  rw [String.ofList_toList, opens]

end OneCookie

def pendingHeader : Option (List UInt8) :=
  some (bytesOf (cookieText PENDING_COOKIE_NAME
    (pendingValue steady.authorization)))

def sessionHeader : Option (List UInt8) :=
  some (bytesOf (cookieText SESSION_COOKIE_NAME (letters.payload alice)))

/-- A login, and its callback. -/
def twoVisits : Visits lettersAuth :=
  [(.login, steady),
    (.callback (.ok { code := "code", state := "c" }) pendingHeader, steady)]

theorem visible_names : Visible PENDING_COOKIE_NAME.toList ∧
    Visible SESSION_COOKIE_NAME.toList := by
  have all : ([PENDING_COOKIE_NAME, SESSION_COOKIE_NAME].all fun name =>
      name.toList.all fun char =>
        32 < char.toNat ∧ char.toNat < 127 ∧ char ≠ ';') = true := by
    decide
  have visible : ∀ name ∈ [PENDING_COOKIE_NAME, SESSION_COOKIE_NAME],
      Visible name.toList := by
    intro name member char inside
    exact of_decide_eq_true
      (List.all_eq_true.mp (List.all_eq_true.mp all name member) char inside)
  exact ⟨visible _ (by simp), visible _ (by simp)⟩

theorem callback_seals : .sealed SESSION_COOKIE_NAME (letters.payload alice) ∈
    (serve lettersAuth (.callback (.ok { code := "code", state := "c" })
      pendingHeader) steady).events := by
  rw [events_callback]
  have opened : findSealedCookie lettersAuth.codecs (pendingHeader.bind toStr)
      PENDING_COOKIE_NAME = .ok (pendingValue steady.authorization) := by
    rw [pendingHeader, Option.bind_some, read_cookieText visible_names.1]
    exact find_cookieText visible_names.1 (by decide)
  have pieces : pendingPieces (pendingValue steady.authorization) =
      some ("c", "n", "v") :=
    pendingPieces_eq "v" (by decide) (by decide)
  rw [handlerCallback_found opened, pieces]
  exact List.mem_cons_of_mem _ List.mem_cons_self

theorem opens_cookieText {visit : Visit} {name clear text name' value : String}
    (visible : Visible name.toList) (named : '=' ∉ name.toList)
    (given : visit.cookie = some (bytesOf (cookieText name clear)))
    (member : text ∈ visit.presented)
    (opens : letters.decrypt name' text = some value) :
    name' = name ∧ value = clear := by
  rw [Visit.presented, given, Option.bind_some, read_cookieText visible]
    at member
  dsimp only at member
  rw [presented_cookieText visible named, List.mem_singleton] at member
  rw [member] at opens
  exact decryptLetters_eq_some.mp opens

theorem unforged_threeVisits :
    Unforged (twoVisits ++ [(.route sessionHeader, steady)]) := by
  intro earlier visit conditions later split text member name value opens
  rcases earlier with _ | ⟨first, _ | ⟨second, _ | ⟨third, rest⟩⟩⟩
  · simp only [twoVisits, List.nil_append, List.cons_append, List.cons.injEq,
      Prod.mk.injEq] at split
    obtain ⟨⟨rfl, _⟩, _⟩ := split
    cases member
  · simp only [twoVisits, List.nil_append, List.cons_append, List.cons.injEq,
      Prod.mk.injEq] at split
    obtain ⟨rfl, ⟨rfl, _⟩, _⟩ := split
    obtain ⟨rfl, rfl⟩ := opens_cookieText visible_names.1 (by decide) rfl
      member opens
    exact ⟨_, List.mem_cons_self,
      List.mem_cons_of_mem _ List.mem_cons_self⟩
  · simp only [twoVisits, List.nil_append, List.cons_append, List.cons.injEq,
      Prod.mk.injEq] at split
    obtain ⟨rfl, rfl, ⟨rfl, _⟩, _⟩ := split
    obtain ⟨rfl, rfl⟩ := opens_cookieText visible_names.2 (by decide) rfl
      member opens
    exact ⟨_, List.mem_cons_of_mem _ List.mem_cons_self, callback_seals⟩
  · simp [twoVisits] at split

theorem sound_of_threeVisits :
    extractSession letters steady.now (sessionHeader.bind toStr) =
        .ok alice ∧
      Sound twoVisits (serve lettersAuth (.route sessionHeader) steady) := by
  constructor
  · have opened : findSealedCookie letters (sessionHeader.bind toStr)
        SESSION_COOKIE_NAME = .ok (letters.payload alice) := by
      rw [sessionHeader, Option.bind_some, read_cookieText visible_names.2]
      exact find_cookieText visible_names.2 (by decide)
    apply extractSession_eq_ok.mpr
    refine ⟨_, _, 2000000000, opened, letters.readPayload_payload alice, rfl,
      ⟨?_, ?_⟩, ?_⟩
    · rfl
    · decide
    · decide
  · apply sound_of_visits unforged_threeVisits _ rfl
    intro entry member
    simp only [twoVisits, List.cons_append, List.nil_append, List.mem_cons,
      List.not_mem_nil, or_false] at member
    rcases member with rfl | rfl | rfl
    all_goals decide

end MiryadCore.Auth.Handshake
