import MiryadCore.Auth.Tokens
import MiryadCore.Users.Membership
import Mathlib.Data.Rat.Floor

/-!
# The cookies of a session

A sealed cookie carries the identity that a login obtained.  The header is cut
by hand, and the expiry is read again from the token at each use.
-/

namespace MiryadCore.Auth

structure OidcIdentity where
  idToken : String
  subject : String
  email : Option String
  preferredUsername : Option String
  deriving DecidableEq, Repr

/-- A number, as an `f64` has it. -/
inductive F64 where
  | finite (value : ℚ)
  | infinite (negative : Bool)
  | nan
  deriving DecidableEq

/-- The alphabet of a sealed text. -/
def isBase64 (char : Char) : Bool :=
  char.isAlphanum || char = '+' || char = '/' || char = '='

/-- The seal of the cookies under their key, the JSON of a session, and the
Base64 and the JSON of the claims of a token. -/
structure Codecs where
  Nonce : Type
  /-- The text of a value that is sealed under a name. -/
  encrypt : Nonce → String → String → String
  decrypt : String → String → Option String
  payload : OidcIdentity → String
  readPayload : String → Option OidcIdentity
  decodeSegment : String → Option (List UInt8)
  /-- `ExpClaim`, where the claim may be absent. -/
  readExp : List UInt8 → Option (Option F64)
  decrypt_encrypt : ∀ nonce name value,
    decrypt name (encrypt nonce name value) = some value
  base64 : ∀ nonce name value,
    ∀ char ∈ (encrypt nonce name value).toList, isBase64 char = true
  readPayload_payload : ∀ identity,
    readPayload (payload identity) = some identity

def SESSION_COOKIE_NAME : String := "miryad_session"

/-- `HeaderValue::to_str`. -/
def toStr (bytes : List UInt8) : Option String :=
  if bytes.all fun byte => (32 ≤ byte ∧ byte < 127) ∨ byte = 9 then
    some (String.ofList (bytes.map fun byte => Char.ofNat byte.toNat))
  else none

/-- The bytes of an ASCII text. -/
def bytesOf (text : String) : List UInt8 :=
  text.toList.map fun char => UInt8.ofNat char.toNat

/-- `split_once`. -/
def splitOnce (separator : Char) : List Char → Option (List Char × List Char)
  | [] => none
  | head :: tail =>
      if head = separator then some ([], tail)
      else (splitOnce separator tail).map fun (before, after) =>
        (head :: before, after)

/-- The value of a segment, if it is a cookie of this name. -/
def cookieValue (name segment : List Char) : Option (List Char) :=
  ((splitOnce '=' segment).filter fun (cookieName, _) =>
    cookieName = name).map Prod.snd

def segments (header : String) : List (List Char) :=
  ((header.toList.splitOn ';').map Users.trim).filter fun segment =>
    ¬ segment.isEmpty

section Reading

variable (codecs : Codecs)

def findSealedCookie (header : Option String) (name : String) :
    Except AuthError String :=
  match header with
  | none => .error .notAuthenticated
  | some header =>
      match (segments header).findSome? (cookieValue name.toList) with
      | none => .error .notAuthenticated
      | some value =>
          match codecs.decrypt name (String.ofList value) with
          | none => .error .invalidSession
          | some clear => .ok clear

/-- The claim `exp`, as it is read of a token. -/
def expClaim (jwt : String) : Option F64 :=
  match jwt.toList.splitOn '.' with
  | [_, payload, _] => do
      let bytes ← codecs.decodeSegment (String.ofList payload)
      (← codecs.readExp bytes)
  | _ => none

/-- `f64::trunc` -/
def truncate (value : ℚ) : ℤ :=
  value.num.tdiv value.den

/-- The gate of exact seconds. -/
def F64.exactSeconds : F64 → Option ℕ
  | .finite value =>
      if value = truncate value ∧ 0 ≤ value ∧ value < 9007199254740992 then
        some (truncate value).toNat
      else none
  | .infinite _ => none
  | .nan => none

def extractExpClaim (jwt : String) : Option ℕ :=
  (expClaim codecs jwt).bind F64.exactSeconds

/-- The whole seconds of a reading of the clock. -/
def asSecs (now : ℕ) : ℕ :=
  now / 1000000000

def secureAttr (secure : Bool) : String :=
  if secure then "; Secure" else ""

/-- `build_set_cookie`; a clock before the epoch reads nothing. -/
def buildSetCookie (nonce : codecs.Nonce) (now : Option ℕ)
    (identity : OidcIdentity) (secure : Bool) : String :=
  let exp := (extractExpClaim codecs identity.idToken).getD 0
  let maxAge := exp - (now.map asSecs).getD 0
  let encrypted :=
    codecs.encrypt nonce SESSION_COOKIE_NAME (codecs.payload identity)
  SESSION_COOKIE_NAME ++ "=" ++ encrypted ++ "; HttpOnly" ++
    secureAttr secure ++ "; SameSite=Strict; Path=/; Max-Age=" ++
    toString maxAge

def clearCookie (secure : Bool) : String :=
  SESSION_COOKIE_NAME ++ "=; HttpOnly" ++ secureAttr secure ++
    "; SameSite=Strict; Path=/; Max-Age=0"

def extractSession (now : Option ℕ) (cookieHeader : Option String) :
    Except AuthError OidcIdentity := do
  let clear ← findSealedCookie codecs cookieHeader SESSION_COOKIE_NAME
  match codecs.readPayload clear with
  | none => .error .invalidSession
  | some payload =>
      match extractExpClaim codecs payload.idToken, now with
      | some exp, some now =>
          if exp ≤ asSecs now then .error .invalidSession else .ok payload
      | _, _ => .error .invalidSession

end Reading

/-- The characters that `to_str` reads: the visible ones, the blank and the
tabulation. -/
def VisibleAscii (text : String) : Prop :=
  ∀ char ∈ text.toList, (32 ≤ char.toNat ∧ char.toNat < 127) ∨ char.toNat = 9

theorem toStr_bytesOf {text : String} (visible : VisibleAscii text) :
    toStr (bytesOf text) = some text := by
  have all : ((bytesOf text).all fun byte =>
      (32 ≤ byte ∧ byte < 127) ∨ byte = 9) = true := by
    rw [bytesOf, List.all_map, List.all_eq_true]
    intro char member
    have bounds := visible char member
    simp [UInt8.le_iff_toNat_le, UInt8.lt_iff_toNat_lt, ← UInt8.toNat_inj]
    omega
  have back : (bytesOf text).map (fun byte => Char.ofNat byte.toNat) =
      text.toList := by
    rw [bytesOf, List.map_map]
    apply (List.map_congr_left _).trans (List.map_id _)
    intro char member
    have bounds := visible char member
    have small : char.toNat % 256 = char.toNat := Nat.mod_eq_of_lt (by omega)
    simp [small]
  rw [toStr, if_pos all, back, String.ofList_toList]

theorem splitOnce_append {separator : Char} {before : List Char}
    (free : separator ∉ before) (after : List Char) :
    splitOnce separator (before ++ separator :: after) =
      some (before, after) := by
  induction before with
  | nil => simp [splitOnce]
  | cons head tail induction =>
      rw [List.mem_cons, not_or] at free
      rw [List.cons_append, splitOnce, if_neg (Ne.symm free.1),
        induction free.2]
      rfl

theorem cookieValue_eq_some {name segment value : List Char} :
    cookieValue name segment = some value ↔
      splitOnce '=' segment = some (name, value) := by
  unfold cookieValue
  cases splitOnce '=' segment with
  | none => simp
  | some pair =>
      obtain ⟨cookieName, other⟩ := pair
      by_cases same : cookieName = name
      · simp [Option.filter, same]
      · simp [Option.filter, same]

/-- The values of the cookies of a header, whatever their names are. -/
def presented (header : String) : List String :=
  (segments header).filterMap fun segment =>
    (splitOnce '=' segment).map fun (_, value) => String.ofList value

variable {codecs : Codecs} {header name : String}

/-- What is found was presented, and opens under its name. -/
theorem presented_of_find {given : Option String} {clear : String}
    (found : findSealedCookie codecs given name = .ok clear) :
    ∃ header, given = some header ∧ ∃ text ∈ presented header,
      codecs.decrypt name text = some clear := by
  unfold findSealedCookie at found
  cases given with
  | none => cases found
  | some header =>
      refine ⟨header, rfl, ?_⟩
      dsimp only at found
      cases value : (segments header).findSome? (cookieValue name.toList) with
      | none =>
          rw [value] at found
          cases found
      | some value' =>
          rw [value] at found
          dsimp only at found
          cases opened : codecs.decrypt name (String.ofList value') with
          | none =>
              rw [opened] at found
              cases found
          | some clear' =>
              rw [opened] at found
              obtain rfl := Except.ok.inj found
              refine ⟨_, ?_, opened⟩
              obtain ⟨segment, member, valued⟩ :=
                List.exists_of_findSome?_eq_some value
              apply List.mem_filterMap.mpr
              refine ⟨segment, member, ?_⟩
              rw [cookieValue_eq_some.mp valued]
              rfl

/-- The cookie is the first of its name in a header. -/
structure PresentedFirst (header name value : String) : Prop where
  cut : ∃ before segment after,
    header.toList = [';'].intercalate (before ++ segment :: after) ∧
    (∀ other ∈ before ++ segment :: after, ';' ∉ other) ∧
    Users.trim segment = name.toList ++ '=' :: value.toList ∧
    ∀ other ∈ before, cookieValue name.toList (Users.trim other) = none

theorem find_of_presentedFirst {value clear : String}
    (first : PresentedFirst header name value) (named : '=' ∉ name.toList)
    (opens : codecs.decrypt name value = some clear) :
    findSealedCookie codecs (some header) name = .ok clear := by
  obtain ⟨before, segment, after, joined, whole, trimmed, others⟩ := first.cut
  have pieces : header.toList.splitOn ';' = before ++ segment :: after := by
    rw [joined]
    exact List.splitOn_intercalate ';' whole (by simp)
  have here : cookieValue name.toList (Users.trim segment) =
      some value.toList := by
    rw [trimmed]
    exact cookieValue_eq_some.mpr (splitOnce_append named _)
  have found : (segments header).findSome? (cookieValue name.toList) =
      some value.toList := by
    rw [segments, pieces, List.map_append, List.map_cons, List.filter_append,
      List.findSome?_append]
    have skipped : ((before.map Users.trim).filter fun other =>
        ¬ other.isEmpty).findSome? (cookieValue name.toList) = none := by
      rw [List.findSome?_eq_none_iff]
      intro other member
      obtain ⟨original, there, rfl⟩ :=
        List.mem_map.mp (List.mem_of_mem_filter member)
      exact others original there
    rw [skipped, List.filter_cons_of_pos, List.findSome?_cons, here]
    · rfl
    · rw [trimmed]
      simp
  rw [findSealedCookie, found]
  dsimp only
  rw [String.ofList_toList, opens]

/-- The claim `exp` of a token is this whole number of seconds. -/
def WholeExp (codecs : Codecs) (jwt : String) (exp : ℕ) : Prop :=
  expClaim codecs jwt = some (.finite exp) ∧ exp < 2 ^ 53

theorem truncate_natCast (exp : ℕ) : truncate (exp : ℚ) = exp := by
  simp [truncate]

theorem exactSeconds_eq_some {claim : F64} {exp : ℕ} :
    claim.exactSeconds = some exp ↔
      claim = .finite exp ∧ exp < 2 ^ 53 := by
  cases claim with
  | infinite negative => simp [F64.exactSeconds]
  | nan => simp [F64.exactSeconds]
  | finite value =>
      constructor
      · intro gated
        rw [F64.exactSeconds] at gated
        split at gated
        next within =>
          obtain ⟨whole, nonneg, bounded⟩ := within
          have exact : (truncate value).toNat = exp := Option.some.inj gated
          rw [whole] at nonneg bounded
          have positive : 0 ≤ truncate value := by exact_mod_cast nonneg
          have below : truncate value < 9007199254740992 := by
            exact_mod_cast bounded
          have same : truncate value = (exp : ℤ) := by omega
          refine ⟨?_, by omega⟩
          rw [whole, same]
          rfl
        next => cases gated
      · intro same
        obtain ⟨claimed, bounded⟩ := same
        obtain rfl := F64.finite.inj claimed
        have below : (exp : ℚ) < 9007199254740992 := by
          exact_mod_cast bounded
        rw [F64.exactSeconds, truncate_natCast, if_pos]
        · rfl
        · exact ⟨rfl, Nat.cast_nonneg exp, below⟩

theorem extractExpClaim_eq_some {jwt : String} {exp : ℕ} :
    extractExpClaim codecs jwt = some exp ↔ WholeExp codecs jwt exp := by
  rw [extractExpClaim, Option.bind_eq_some_iff]
  constructor
  · intro read
    obtain ⟨claim, claimed, gated⟩ := read
    obtain ⟨rfl, bounded⟩ := exactSeconds_eq_some.mp gated
    exact ⟨claimed, bounded⟩
  · intro whole
    exact ⟨_, whole.1, exactSeconds_eq_some.mpr ⟨rfl, whole.2⟩⟩

theorem asSecs_lt {now exp : ℕ} :
    asSecs now < exp ↔ now < exp * 1000000000 :=
  Nat.div_lt_iff_lt_mul (by decide)

/-- A session is accepted when its payload opens and its token lives. -/
theorem extractSession_eq_ok {now : Option ℕ} {given : Option String}
    {identity : OidcIdentity} :
    extractSession codecs now given = .ok identity ↔
      ∃ clear t exp, findSealedCookie codecs given SESSION_COOKIE_NAME =
          .ok clear ∧ codecs.readPayload clear = some identity ∧
        now = some t ∧ WholeExp codecs identity.idToken exp ∧
        t < exp * 1000000000 := by
  constructor
  · intro accepted
    unfold extractSession at accepted
    cases found : findSealedCookie codecs given SESSION_COOKIE_NAME with
    | error error =>
        rw [found] at accepted
        cases accepted
    | ok clear =>
        rw [found] at accepted
        cases read : codecs.readPayload clear with
        | none =>
            simp only [bind, Except.bind, read] at accepted
            cases accepted
        | some payload =>
            simp only [bind, Except.bind, read] at accepted
            split at accepted
            next exp t claimed =>
              split at accepted
              next => cases accepted
              next live =>
                obtain rfl := Except.ok.inj accepted
                exact ⟨clear, t, exp, rfl, read, rfl,
                  extractExpClaim_eq_some.mp claimed,
                  asSecs_lt.mp (Nat.not_le.mp live)⟩
            next => cases accepted
  · intro holds
    obtain ⟨clear, t, exp, found, read, rfl, whole, live⟩ := holds
    have claimed := extractExpClaim_eq_some.mpr whole
    have later : ¬ exp ≤ asSecs t := Nat.not_le.mpr (asSecs_lt.mpr live)
    simp only [extractSession, found, bind, Except.bind, read, claimed,
      if_neg later]

end MiryadCore.Auth
