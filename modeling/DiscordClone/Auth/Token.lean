import Mathlib.Logic.Function.Basic

/-!
# Tokens

`signToken` of `auth.service.ts` over the JWT library and the configuration, which are parameters.
-/

namespace DiscordClone

/-- `EJwtType`. -/
inductive EJwtType where
  | ACCESS | REFRESH | VERIFY | RESET
  deriving DecidableEq, Repr

/-- `IJwtPayload`. -/
structure IJwtPayload where
  sub : String
  type : EJwtType
  deriving DecidableEq, Repr

/-- `jwtService.sign`, a function of the key, the payload, the expiry setting and the time in whole seconds. A token
carries its payload and the time at which it was issued, so that they can be read off it. -/
structure JwtService where
  sign : String → IJwtPayload → String → Nat → String
  carries : ∀ {key key' expiresIn expiresIn' : String} {p p' : IJwtPayload} {iat iat' : Nat},
    sign key p expiresIn iat = sign key' p' expiresIn' iat' → p = p' ∧ iat = iat'

/-- `configService.get`. -/
abbrev ConfigService := String → String

namespace EJwtType

def envType : EJwtType → String
  | .ACCESS => "AT"
  | .REFRESH => "RT"
  | .VERIFY => "VT"
  | .RESET => "RST"

end EJwtType

/-- `signToken` at the time `now`. -/
def signToken (jwt : JwtService) (config : ConfigService) (now : Nat) (type : EJwtType) (accountId : String) : String :=
  jwt.sign (config ("JWT_" ++ type.envType ++ "_SECRET")) ⟨accountId, type⟩
    (config ("JWT_" ++ type.envType ++ "_EXPIRES")) now

/-- Tokens of one type are issued to one account in one second. -/
theorem signToken_inj {jwt : JwtService} {config : ConfigService} {t t' : Nat} {type type' : EJwtType} {a a' : String}
    (h : signToken jwt config t type a = signToken jwt config t' type' a') : a = a' ∧ type = type' ∧ t = t' := by
  obtain ⟨hp, ht⟩ := jwt.carries h
  cases hp
  exact ⟨rfl, rfl, ht⟩

end DiscordClone
