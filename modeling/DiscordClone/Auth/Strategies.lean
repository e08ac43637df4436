import DiscordClone.Auth.Token
import DiscordClone.Lib.Json

/-!
# Who accepts a token

The strategies of `src/strategies`, which guard the requests, and `createAuthMiddleware` of `socket-io-adapter.ts` with
`verifyAccessToken` of `auth.service.ts`, which guard the sockets. The verifier of the JWT library is a parameter: it
accepts a signed token exactly under the public key of the key that signed it, as long as the token has not expired.
Every token is signed with RS256, which all of them admit.

- `strategy_iff`: a strategy accepts a token exactly when the verifier does and the token has the type of the strategy.
- `handshake_iff`: the handshake accepts every token that the verifier accepts.
- `isolated_iff`: so a token stays within its purpose exactly when it is an access token, or its key is not the one of
  the access tokens, or it has expired.
-/

namespace DiscordClone

/-! ## The configuration -/

/-- The environment variables that are set. -/
abbrev Environment := String → Option String

namespace Environment

/-- `configService.get`; a variable that is not set is as good as an empty key. -/
def get (env : Environment) : ConfigService := fun name => (env name).getD ""

/-- The variables that `validationSchema` requires. -/
def required : List String :=
  ["DATABASE_URL", "JWT_AT_SECRET", "JWT_RT_SECRET", "JWT_VT_SECRET", "JWT_AT_EXPIRES", "JWT_RT_EXPIRES",
    "JWT_VT_EXPIRES", "JWT_AT_PUBLIC", "JWT_RT_PUBLIC", "JWT_VT_PUBLIC", "MAIL_HOST", "MAIL_USER", "MAIL_PASS",
    "MAIL_FROM", "WEBAPP_BASE_URL", "WEBAPP_VERIFY_URL", "ALLOWED_ORIGIN"]

/-- The environment passes `validationSchema`. -/
def Admitted (env : Environment) : Prop := ∀ name ∈ required, env.get name ≠ ""

instance (env : Environment) : Decidable env.Admitted :=
  inferInstanceAs (Decidable (∀ name ∈ required, env.get name ≠ ""))

/-- The key that signs the tokens of a type. -/
def secret (env : Environment) (type : EJwtType) : String := env.get ("JWT_" ++ type.envType ++ "_SECRET")

/-- The expiry setting of the tokens of a type. -/
def expires (env : Environment) (type : EJwtType) : String := env.get ("JWT_" ++ type.envType ++ "_EXPIRES")

end Environment

/-- The JWT library: `verify` returns the payload or throws. -/
structure JwtLibrary extends JwtService where
  /-- The second key is the public key of the first one. -/
  belongs : String → String → Bool
  /-- A token with this expiry setting, issued at the first time, has expired at the second. -/
  expired : String → Nat → Nat → Bool
  verify : String → String → Nat → Option IJwtPayload
  verify_sign : ∀ key p expiresIn iat publicKey now, verify (sign key p expiresIn iat) publicKey now =
    if belongs key publicKey && !expired expiresIn iat now then some p else none

/-- `verify` of what a client has sent, which throws unless that is a string. -/
def JwtLibrary.check (jwt : JwtLibrary) (token : Option Json) (publicKey : String) (now : Nat) : Option IJwtPayload :=
  match token with
  | some (.str t) => jwt.verify t publicKey now
  | _ => none

/-! ## The strategies -/

/-- What a strategy reads of a request: its bearer token and its body. -/
structure Request where
  bearer : Option String := none
  body : Json := .null

/-- `ExtractJwt`. -/
inductive ExtractJwt where
  | fromAuthHeaderAsBearerToken
  | fromBodyField (name : String)

def ExtractJwt.extract (request : Request) : ExtractJwt → Option Json
  | .fromAuthHeaderAsBearerToken => request.bearer.map .str
  | .fromBodyField name => request.body.field name

/-- How a request is refused: by passport, or by the exception of a strategy. -/
inductive Refusal where
  | unauthorized
  | forbidden (message : String)
  deriving DecidableEq, Repr

/-- The options of a strategy, and the type that its `validate` asks for. -/
structure JwtStrategy where
  jwtFromRequest : ExtractJwt
  secretOrKey : String
  type : EJwtType

namespace JwtStrategy

def validate (strategy : JwtStrategy) (payload : IJwtPayload) : Except Refusal IJwtPayload :=
  if payload.type ≠ strategy.type then .error (.forbidden "Invalid token") else .ok payload

/-- The strategy on a request. -/
def authenticate (strategy : JwtStrategy) (jwt : JwtLibrary) (config : ConfigService) (now : Nat) (request : Request) :
    Except Refusal IJwtPayload :=
  match jwt.check (strategy.jwtFromRequest.extract request) (config strategy.secretOrKey) now with
  | none => .error .unauthorized
  | some payload => strategy.validate payload

end JwtStrategy

def JwtAtStrategy : JwtStrategy where
  jwtFromRequest := .fromAuthHeaderAsBearerToken
  secretOrKey := "JWT_AT_PUBLIC"
  type := .ACCESS

def JwtRtStrategy : JwtStrategy where
  jwtFromRequest := .fromBodyField "refreshToken"
  secretOrKey := "JWT_RT_PUBLIC"
  type := .REFRESH

def JwtVtStrategy : JwtStrategy where
  jwtFromRequest := .fromBodyField "verifyToken"
  secretOrKey := "JWT_VT_PUBLIC"
  type := .VERIFY

/-! ## The handshake -/

/-- `socket.handshake`: `auth.token` and the header `token`. -/
structure Handshake where
  authToken : Option Json := none
  headerToken : Option String := none

/-- `socket.handshake.auth.token || socket.handshake.headers['token']`. -/
def Handshake.token (handshake : Handshake) : Option Json :=
  (handshake.authToken.filter Json.truthy).or (handshake.headerToken.map .str)

def AuthService.verifyAccessToken (jwt : JwtLibrary) (config : ConfigService) (now : Nat) (token : Option Json) :
    Option IJwtPayload := jwt.check token (config "JWT_AT_PUBLIC") now

/-- The `auth` of the socket, or the error that is passed on. -/
def SocketIOAdapter.createAuthMiddleware (jwt : JwtLibrary) (config : ConfigService) (now : Nat)
    (handshake : Handshake) : Except String IJwtPayload :=
  match AuthService.verifyAccessToken jwt config now handshake.token with
  | some payload => .ok payload
  | none => .error "Forbidden"

/-! ## What they accept -/

/-- A strategy accepts this token, however it is sent. -/
def JwtStrategy.Accepts (strategy : JwtStrategy) (jwt : JwtLibrary) (config : ConfigService) (now : Nat)
    (token : String) : Prop :=
  ∃ request, strategy.jwtFromRequest.extract request = some (.str token) ∧
    (strategy.authenticate jwt config now request).toBool = true

/-- The handshake accepts this token, however it is sent. -/
def HandshakeAccepts (jwt : JwtLibrary) (config : ConfigService) (now : Nat) (token : String) : Prop :=
  ∃ handshake : Handshake, handshake.token = some (.str token) ∧
    (SocketIOAdapter.createAuthMiddleware jwt config now handshake).toBool = true

/-- A token of this type is accepted for its purpose only. -/
structure Isolated (jwt : JwtLibrary) (config : ConfigService) (now : Nat) (type : EJwtType)
    (token : String) : Prop where
  at_access : JwtAtStrategy.Accepts jwt config now token → type = .ACCESS
  rt_refresh : JwtRtStrategy.Accepts jwt config now token → type = .REFRESH
  vt_verify : JwtVtStrategy.Accepts jwt config now token → type = .VERIFY
  socket_access : HandshakeAccepts jwt config now token → type = .ACCESS
  socket_iff_at : HandshakeAccepts jwt config now token ↔ JwtAtStrategy.Accepts jwt config now token

section Accepts

variable {jwt : JwtLibrary} {env : Environment} {now iat : Nat} {type : EJwtType} {account : String}

/-- The public key with this name verifies a token of this type that was signed at `iat`. -/
def Verifies (jwt : JwtLibrary) (env : Environment) (name : String) (type : EJwtType) (iat now : Nat) : Prop :=
  jwt.belongs (env.secret type) (env.get name) = true ∧ jwt.expired (env.expires type) iat now = false

instance (jwt : JwtLibrary) (env : Environment) (name : String) (type : EJwtType) (iat now : Nat) :
    Decidable (Verifies jwt env name type iat now) := by
  unfold Verifies
  infer_instance

/-- What the verifier answers on a token of `signToken`. -/
theorem check_signToken (name : String) :
    jwt.check (some (.str (signToken jwt.toJwtService env.get iat type account))) (env.get name) now =
      if Verifies jwt env name type iat now then some ⟨account, type⟩ else none := by
  have h := jwt.verify_sign (env.secret type) ⟨account, type⟩ (env.expires type) iat (env.get name) now
  simp only [Bool.and_eq_true, Bool.not_eq_true'] at h
  exact h

/-- Every token can be sent to a strategy. -/
theorem extract_exists (e : ExtractJwt) (token : String) : ∃ request, e.extract request = some (.str token) := by
  cases e with
  | fromAuthHeaderAsBearerToken => exact ⟨{ bearer := some token }, rfl⟩
  | fromBodyField name =>
    refine ⟨{ body := .obj [(name, .str token)] }, ?_⟩
    simp [ExtractJwt.extract, Json.field]

/-- **A strategy accepts the tokens of its type** that its key verifies. -/
theorem strategy_iff (strategy : JwtStrategy) :
    strategy.Accepts jwt env.get now (signToken jwt.toJwtService env.get iat type account) ↔
      Verifies jwt env strategy.secretOrKey type iat now ∧ type = strategy.type := by
  have hans : ∀ request, strategy.jwtFromRequest.extract request =
      some (.str (signToken jwt.toJwtService env.get iat type account)) →
      ((strategy.authenticate jwt env.get now request).toBool = true ↔
        Verifies jwt env strategy.secretOrKey type iat now ∧ type = strategy.type) := by
    intro request hr
    rw [JwtStrategy.authenticate, hr, check_signToken]
    by_cases hv : Verifies jwt env strategy.secretOrKey type iat now
    · rw [if_pos hv]
      simp only [JwtStrategy.validate, hv, true_and]
      by_cases ht : type = strategy.type <;> simp [ht, Except.toBool]
    · simp [hv, Except.toBool]
  constructor
  · rintro ⟨request, hr, ha⟩
    exact (hans request hr).mp ha
  · intro h
    obtain ⟨request, hr⟩ := extract_exists strategy.jwtFromRequest (signToken jwt.toJwtService env.get iat type account)
    exact ⟨request, hr, (hans request hr).mpr h⟩

/-- **The handshake accepts the tokens** that the key of the access tokens verifies, whatever their type. -/
theorem handshake_iff :
    HandshakeAccepts jwt env.get now (signToken jwt.toJwtService env.get iat type account) ↔
      Verifies jwt env "JWT_AT_PUBLIC" type iat now := by
  have hans : ∀ handshake : Handshake, handshake.token =
      some (.str (signToken jwt.toJwtService env.get iat type account)) →
      ((SocketIOAdapter.createAuthMiddleware jwt env.get now handshake).toBool = true ↔
        Verifies jwt env "JWT_AT_PUBLIC" type iat now) := by
    intro handshake hh
    rw [SocketIOAdapter.createAuthMiddleware, AuthService.verifyAccessToken, hh, check_signToken]
    by_cases hv : Verifies jwt env "JWT_AT_PUBLIC" type iat now <;> simp [hv, Except.toBool]
  constructor
  · rintro ⟨handshake, hh, ha⟩
    exact (hans handshake hh).mp ha
  · intro h
    have hh : Handshake.token { headerToken := some (signToken jwt.toJwtService env.get iat type account) } =
        some (.str (signToken jwt.toJwtService env.get iat type account)) := rfl
    exact ⟨_, hh, (hans _ hh).mpr h⟩

end Accepts

/-- **Tokens are isolated by purpose unless the handshake takes another token for an access token.** Under every
configuration, a token of `signToken` is accepted for its purpose only exactly when it is an access token, or was signed
with a key that `JWT_AT_PUBLIC` does not belong to, or has expired. -/
theorem isolated_iff (jwt : JwtLibrary) (env : Environment) (type : EJwtType) (account : String) (iat now : Nat) :
    Isolated jwt env.get now type (signToken jwt.toJwtService env.get iat type account) ↔
      type = .ACCESS ∨ jwt.belongs (env.secret type) (env.get "JWT_AT_PUBLIC") = false ∨
        jwt.expired (env.expires type) iat now = true := by
  have hcond : (Verifies jwt env "JWT_AT_PUBLIC" type iat now → type = .ACCESS) ↔
      type = .ACCESS ∨ jwt.belongs (env.secret type) (env.get "JWT_AT_PUBLIC") = false ∨
        jwt.expired (env.expires type) iat now = true := by
    unfold Verifies
    cases jwt.belongs (env.secret type) (env.get "JWT_AT_PUBLIC") <;>
      cases jwt.expired (env.expires type) iat now <;> simp
  rw [← hcond]
  constructor
  · intro h hv
    exact h.socket_access (handshake_iff.mpr hv)
  · intro h
    constructor
    case at_access => exact fun ha => ((strategy_iff JwtAtStrategy).mp ha).2
    case rt_refresh => exact fun ha => ((strategy_iff JwtRtStrategy).mp ha).2
    case vt_verify => exact fun ha => ((strategy_iff JwtVtStrategy).mp ha).2
    case socket_access => exact fun ha => h (handshake_iff.mp ha)
    case socket_iff_at =>
      rw [handshake_iff, strategy_iff JwtAtStrategy]
      exact ⟨fun hv => ⟨hv, h hv⟩, fun hv => hv.1⟩

/-! ## A signer -/

/-- A text that ends where its last mark says. -/
def pack (s : List Char) : List Char := s.flatMap (fun c => [',', c]) ++ ['.']

/-- The text in front, and the rest. -/
def unpack : List Char → Option (List Char × List Char)
  | ',' :: c :: rest => (unpack rest).map fun r => (c :: r.1, r.2)
  | '.' :: rest => some ([], rest)
  | _ => none

theorem unpack_pack (s rest : List Char) : unpack (pack s ++ rest) = some (s, rest) := by
  induction s with
  | nil => rfl
  | cons c s ih =>
    have h : pack (c :: s) ++ rest = ',' :: c :: (pack s ++ rest) := by simp [pack]
    rw [h, unpack, ih, Option.map_some]

/-- The type with this letter. -/
def EJwtType.ofLetters : List Char → Option EJwtType
  | ['A'] => some .ACCESS
  | ['R'] => some .REFRESH
  | ['V'] => some .VERIFY
  | ['P'] => some .RESET
  | _ => none

/-- What a signature covers. -/
structure Signed where
  key : String
  expiresIn : String
  payload : IJwtPayload
  iat : Nat

/-- The parts of a token, one after the other. -/
def Signed.write (t : Signed) : List Char :=
  let type := match t.payload.type with
    | .ACCESS => 'A'
    | .REFRESH => 'R'
    | .VERIFY => 'V'
    | .RESET => 'P'
  pack t.key.toList ++ (pack t.expiresIn.toList ++ (pack t.payload.sub.toList ++
    (pack (List.replicate t.iat 'i') ++ [type])))

/-- What a token says. -/
def Signed.read (token : List Char) : Option Signed := do
  let (key, token) ← unpack token
  let (expiresIn, token) ← unpack token
  let (sub, token) ← unpack token
  let (iat, token) ← unpack token
  let type ← EJwtType.ofLetters token
  some ⟨.ofList key, .ofList expiresIn, ⟨.ofList sub, type⟩, iat.length⟩

theorem Signed.read_write (t : Signed) : Signed.read t.write = some t := by
  obtain ⟨key, expiresIn, ⟨sub, type⟩, iat⟩ := t
  simp only [Signed.read, Signed.write, unpack_pack, Option.bind_eq_bind, Option.bind_some]
  cases type <;> simp [EJwtType.ofLetters]

/-- The expiry settings of `.env.example`, in seconds. -/
def lifetime : String → Nat
  | "10m" => 600
  | "12h" => 43200
  | "1d" => 86400
  | _ => 0

/-- A library with one key pair. -/
def exampleLibrary : JwtLibrary where
  sign key p expiresIn iat := String.ofList (Signed.write ⟨key, expiresIn, p, iat⟩)
  carries h := by
    have h := congrArg Signed.read (String.ofList_injective h)
    simp only [Signed.read_write, Option.some.injEq, Signed.mk.injEq] at h
    exact h.2.2
  belongs key publicKey := key = "private key" && publicKey = "public key"
  expired expiresIn iat now := iat + lifetime expiresIn ≤ now
  verify token publicKey now :=
    (Signed.read token.toList).bind fun t =>
      if (t.key = "private key" && publicKey = "public key") && !decide (t.iat + lifetime t.expiresIn ≤ now) then
        some t.payload
      else none
  verify_sign key p expiresIn iat publicKey now := by
    rw [String.toList_ofList, Signed.read_write, Option.bind_some]

/-- One key pair for all purposes, as the placeholders of `.env.example` have it. -/
def exampleEnvironment : Environment := fun name =>
  if name ∈ ["JWT_AT_SECRET", "JWT_RT_SECRET", "JWT_VT_SECRET", "JWT_RST_SECRET"] then some "private key"
  else if name ∈ ["JWT_AT_PUBLIC", "JWT_RT_PUBLIC", "JWT_VT_PUBLIC", "JWT_RST_PUBLIC"] then some "public key"
  else if name ∈ ["JWT_AT_EXPIRES", "JWT_RST_EXPIRES"] then some "10m"
  else if name = "JWT_RT_EXPIRES" then some "1d"
  else if name = "JWT_VT_EXPIRES" then some "12h"
  else some "some value"

/-- Under one key pair a socket is let in with a refresh token, which `JwtAtStrategy` refuses. -/
theorem isolated_shared_keys :
    exampleEnvironment.Admitted ∧
      HandshakeAccepts exampleLibrary exampleEnvironment.get 60
        (signToken exampleLibrary.toJwtService exampleEnvironment.get 0 .REFRESH "alice") ∧
      ¬JwtAtStrategy.Accepts exampleLibrary exampleEnvironment.get 60
        (signToken exampleLibrary.toJwtService exampleEnvironment.get 0 .REFRESH "alice") ∧
      ¬Isolated exampleLibrary exampleEnvironment.get 60 .REFRESH
        (signToken exampleLibrary.toJwtService exampleEnvironment.get 0 .REFRESH "alice") := by
  have hh : HandshakeAccepts exampleLibrary exampleEnvironment.get 60
      (signToken exampleLibrary.toJwtService exampleEnvironment.get 0 .REFRESH "alice") :=
    handshake_iff.mpr (by decide)
  refine ⟨by decide, hh, fun ha => ?_, fun h => ?_⟩
  · exact absurd ((strategy_iff JwtAtStrategy).mp ha).2 (by decide)
  · exact absurd (h.socket_access hh) (by decide)

end DiscordClone
