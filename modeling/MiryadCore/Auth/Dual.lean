import MiryadCore.Auth.Cookie
import MiryadCore.Auth.TokenSafety

/-!
# The two ways to authenticate a request

A bearer is taken for a token of the API or for a JWT by its shape alone, and
the cookie counts only where there is no bearer.  Service accounts bring their
own tokens.
-/

namespace MiryadCore.Auth

open Rest (AuthPrincipal)
open Users (DbErr)

/-- The first bytes of a text in UTF-8, and the rest; there are none where they
end inside of a character. -/
def splitBytes : ℕ → List Char → Option (List Char × List Char)
  | 0, text => some ([], text)
  | _ + 1, [] => none
  | bytes + 1, char :: text =>
      if char.utf8Size ≤ bytes + 1 then
        (splitBytes (bytes + 1 - char.utf8Size) text).map
          fun (before, after) => (char :: before, after)
      else none

def bearerTokenMaterial (value : String) : Option String :=
  match splitBytes 6 value.toList with
  | some (scheme, ' ' :: material) =>
      if scheme.map Char.toLower = "bearer".toList then
        some (String.ofList material)
      else none
  | _ => none

/-- Exactly two dots. -/
def isJwtShaped (material : String) : Bool :=
  material.toList.count '.' == 2

/-- The headers that the extractor reads. -/
structure Parts where
  authorization : Option (List UInt8)
  cookie : Option (List UInt8)

/-- What the machine and the OIDC client answer to a request. -/
structure Machine where
  now : Option ℕ
  verifyBearer : String → Except AuthError OidcIdentity

/-- The material of a recognised bearer. -/
def Parts.material (parts : Parts) : Option String :=
  (parts.authorization.bind toStr).bind bearerTokenMaterial

/-- How the statements on the accounts and their groups end. -/
structure Accounts where
  existing : String → Except DbErr (Option Users.UserRow)
  resolveUser : String → Option String → Except DbErr Users.UserRow
  syncGroupMemberships : ℤ → List String → Except DbErr Unit

section Calls

variable (secrets : Secrets) (codecs : Codecs)

def verifyBearerJwt (machine : Machine) (jwt : String) :
    Except AuthError AuthPrincipal :=
  (machine.verifyBearer jwt).map fun identity =>
    { subject := identity.subject
      email := identity.email
      preferredUsername := identity.preferredUsername
      source := .bearer identity.idToken }

def sessionPrincipal (identity : OidcIdentity) : AuthPrincipal :=
  { subject := identity.subject
    email := identity.email
    preferredUsername := identity.preferredUsername
    source := .session identity.idToken }

/-- `AuthPrincipal::from_request_parts` -/
def fromRequestParts (parts : Parts) (machine : Machine) : Code :=
  match parts.material with
  | some material =>
      if isJwtShaped material then
        .done (.validated (verifyBearerJwt machine material))
      else validateToken secrets material
  | none =>
      .done (.validated ((extractSession codecs machine.now
        (parts.cookie.bind toStr)).map sessionPrincipal))

def ensureServiceAccount (accounts : Accounts)
    (subject token tokenName : String) (groups : List String)
    (expiresAt : Option ℤ) : Code :=
  match accounts.existing subject with
  | .error error => .done (.ensured (.error (.database error)))
  | .ok _ =>
      match accounts.resolveUser subject none with
      | .error error => .done (.ensured (.error (.database error)))
      | .ok account =>
          match accounts.syncGroupMemberships account.id groups with
          | .error error => .done (.ensured (.error (.database error)))
          | .ok _ => ensureToken secrets subject tokenName token expiresAt

inductive Service where
  | tokens (call : Call)
  | serviceAccount (accounts : Accounts) (subject token tokenName : String)
      (groups : List String) (expiresAt : Option ℤ)
  | extract (parts : Parts) (machine : Machine)

def serviceProgram : Service → Code
  | .tokens call => program secrets call
  | .serviceAccount accounts subject token tokenName groups expiresAt =>
      ensureServiceAccount secrets accounts subject token tokenName groups
        expiresAt
  | .extract parts machine => fromRequestParts secrets codecs parts machine

/-- Services of any kind, one beside the other. -/
def services :
    System Service Request Request.Reply Conditions Tokens Answer where
  program := serviceProgram secrets codecs
  exec := exec
  ready := fun _ _ => true
  spawns := fun _ => none

@[simp]
theorem services_exec : (services secrets codecs).exec = exec :=
  rfl

end Calls

theorem splitBytes_append {scheme : List Char} (after : List Char)
    (ascii : ∀ char ∈ scheme, char.utf8Size = 1) :
    splitBytes scheme.length (scheme ++ after) = some (scheme, after) := by
  induction scheme with
  | nil => simp [splitBytes]
  | cons char scheme induction =>
      have single := ascii char List.mem_cons_self
      rw [List.length_cons, List.cons_append, splitBytes, if_pos (by omega),
        show scheme.length + 1 - char.utf8Size = scheme.length by omega,
        induction fun other member =>
          ascii other (List.mem_cons_of_mem _ member)]
      rfl

/-- A case variant of `Bearer`. -/
def BearerScheme (scheme : String) : Prop :=
  scheme.toList.map Char.toLower = "bearer".toList

/-- The letters of a scheme are ASCII. -/
theorem scheme_letter {scheme : String} (bearer : BearerScheme scheme)
    {char : Char} (member : char ∈ scheme.toList) :
    65 ≤ char.toNat ∧ char.toNat ≤ 122 := by
  have lower : char.toLower ∈ "bearer".toList := by
    rw [← bearer]
    exact List.mem_map_of_mem member
  have bounds : 97 ≤ char.toLower.toNat ∧ char.toLower.toNat ≤ 122 := by
    revert lower
    generalize char.toLower = letter
    intro lower
    have letters : ("bearer".toList.all fun letter =>
        97 ≤ letter.toNat ∧ letter.toNat ≤ 122) = true := by
      decide
    exact of_decide_eq_true (List.all_eq_true.mp letters letter lower)
  unfold Char.toLower at bounds
  split at bounds
  next upper =>
    have low : 65 ≤ char.toNat := UInt32.le_iff_toNat_le.mp upper.1
    have high : char.toNat ≤ 90 := UInt32.le_iff_toNat_le.mp upper.2
    exact ⟨low, by omega⟩
  next => exact ⟨by omega, bounds.2⟩

theorem bearerTokenMaterial_eq {scheme : String} (bearer : BearerScheme scheme)
    (secret : String) :
    bearerTokenMaterial (scheme ++ " " ++ secret) = some secret := by
  have six : scheme.toList.length = 6 := by
    rw [← List.length_map Char.toLower, bearer]
    rfl
  have ascii : ∀ char ∈ scheme.toList, char.utf8Size = 1 := by
    intro char member
    have bounds := scheme_letter bearer member
    apply Char.utf8Size_eq_one_iff.mpr
    apply UInt32.le_iff_toNat_le.mpr
    exact le_trans bounds.2 (by decide)
  have text : (scheme ++ " " ++ secret).toList =
      scheme.toList ++ ' ' :: secret.toList := by
    simp
  have cut := splitBytes_append (' ' :: secret.toList) ascii
  rw [six] at cut
  rw [bearerTokenMaterial, text, cut]
  show (if scheme.toList.map Char.toLower = "bearer".toList then
    some (String.ofList secret.toList) else none) = some secret
  rw [String.ofList_toList]
  exact if_pos bearer

theorem material_eq {scheme secret : String} (bearer : BearerScheme scheme)
    (visible : VisibleAscii secret) (cookie : Option (List UInt8)) :
    Parts.material { authorization := some (bytesOf (scheme ++ " " ++ secret))
                     cookie } = some secret := by
  have whole : VisibleAscii (scheme ++ " " ++ secret) := by
    intro char member
    simp only [String.toList_append, List.append_assoc, List.mem_append]
      at member
    rcases member with letter | blank | later
    · have bounds := scheme_letter bearer letter
      omega
    · rw [List.mem_singleton.mp blank]
      decide
    · exact visible char later
  rw [Parts.material, Option.bind_some, toStr_bytesOf whole, Option.bind_some]
  exact bearerTokenMaterial_eq bearer secret

end MiryadCore.Auth
