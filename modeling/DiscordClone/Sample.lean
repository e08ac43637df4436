import DiscordClone.Auth.Register
import DiscordClone.Auth.Service

/-!
# A few accounts

Three ACTIVE accounts, a signer, and the registration of an account, for instances of the results.
-/

namespace DiscordClone

/-- An account with this id, and values of the other columns made from it. -/
def sampleAccount (id : String) (status : AccountStatus) : Account where
  id := id
  email := id ++ "@mail.test"
  password := "hash of " ++ id
  username := id
  dateOfBirth := 0
  status := status
  displayName := id
  bannerColor := "#5c64f4"
  createdAt := 0
  updatedAt := 0

/-- alice, bob and carol are ACTIVE. -/
def activeAccounts : Accounts where
  rows := ["alice", "bob", "carol"].map (sampleAccount · .ACTIVE)
  id_nodup := by decide
  email_nodup := by decide
  username_nodup := by decide

namespace EJwtType

/-- A letter for each type, none of them `i`. -/
def letter : EJwtType → Char
  | .ACCESS => 'A'
  | .REFRESH => 'R'
  | .VERIFY => 'V'
  | .RESET => 'P'

theorem letter_ne (type : EJwtType) : type.letter ≠ 'i' := by cases type <;> decide

theorem letter_inj {type type' : EJwtType} (h : type.letter = type'.letter) : type = type' := by
  revert h
  cases type <;> cases type' <;> decide

end EJwtType

/-- A token that counts the seconds in front of its type and its account. -/
def sampleToken (p : IJwtPayload) (iat : Nat) : List Char := List.replicate iat 'i' ++ p.type.letter :: p.sub.toList

/-- Such a token can be read. -/
theorem sampleToken_inj {p p' : IJwtPayload} : ∀ {iat iat' : Nat}, sampleToken p iat = sampleToken p' iat' →
    p = p' ∧ iat = iat'
  | 0, 0, h => by
    obtain ⟨ht, hs⟩ := List.cons.inj h
    obtain ⟨sub, type⟩ := p
    obtain ⟨sub', type'⟩ := p'
    cases EJwtType.letter_inj ht
    cases String.toList_inj.mp hs
    exact ⟨rfl, rfl⟩
  | 0, _ + 1, h => absurd (List.cons.inj h).1 (EJwtType.letter_ne _)
  | _ + 1, 0, h => absurd (List.cons.inj h).1.symm (EJwtType.letter_ne _)
  | _ + 1, _ + 1, h => by
    obtain ⟨hp, hi⟩ := sampleToken_inj (List.cons.inj h).2
    exact ⟨hp, congrArg (· + 1) hi⟩

def sampleJwt : JwtService where
  sign _ p _ iat := String.ofList (sampleToken p iat)
  carries h := sampleToken_inj (String.ofList_injective h)

/-- The service with these accounts, whose passwords are their names. -/
def sampleAuthEnv : AuthEnv where
  accounts := activeAccounts
  jwt := sampleJwt
  config := id
  compareSync password hash := "hash of " ++ password = hash

def sampleLogin (name : String) : AuthEvent := .login ⟨name ++ "@mail.test", name⟩

/-- Only strings can be hashed. -/
def sampleHash : Json → Nat → Except Exception String
  | .str password, _ => .ok ("hash of " ++ password)
  | _, _ => .error .typeError

/-- The registration of an account whose id is its name. -/
def sampleRegister (name : String) : RegisterEnv × RegisterDto :=
  ({ rt := { uuid := name, now := 0, parseDateTime := fun _ => some 0 }
     hash := sampleHash
     raced := false
     jwt := .ok sampleJwt
     config := id
     seconds := 0
     sendMail := fun _ => .ok () },
   { email := name ++ "@mail.test", password := .str name, username := name, dateOfBirth := "1970-01-01" })

end DiscordClone
