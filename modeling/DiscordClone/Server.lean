import DiscordClone.Auth.Serial
import DiscordClone.Gateway.Registry
import DiscordClone.User.Actionable

/-!
# The server, one request after another

The server with its modules together: registrations and verifications, logins, refreshes and logouts, the relationship
operations, and the sockets that come and go. Every handler runs to its end before the next one begins.

A relationship operation of an account needs an access token that `login` or `refresh` has issued to it; nobody else has
one. The other requests are open to anybody here.

- `Server.Effects`: what a step may do (`step_effects`).
- `Server.Sound`: whoever holds a session or a token is ACTIVE, and an account has one session at most (`sound_step`).
- `ClientsMatch`: the registry of the gateway is exact when no handler is interrupted (`clientsMatch_run`).
-/

namespace DiscordClone

open ChatGateway

/-- What the server works with, the accounts apart. -/
structure ServerEnv where
  jwt : JwtService
  config : ConfigService
  compareSync : String → String → Bool

def ServerEnv.auth (env : ServerEnv) (accounts : Accounts) : AuthEnv := ⟨accounts, env.jwt, env.config, env.compareSync⟩

/-- The database, the ids that sessions have had, the access tokens that have been issued with their accounts, the
connected sockets, and the clients of the gateway. -/
structure Server where
  db : Database
  ids : List String
  issued : List (String × String)
  sockets : List SocketWithAuth
  clients : List Client

/-- A request, or a socket that comes or goes. -/
inductive ServerEvent where
  | register (env : RegisterEnv) (data : RegisterDto)
  | verify (now : DateTime) (accountId : String)
  | relationship (accessToken : String) (c : Call)
  | login (now : Nat) (data : LoginDto) (pick : Nat) (uuid : String)
  | refresh (now : Nat) (data : RefreshDto) (accountId : String) (pick : Nat)
  | logout (accountId : String) (pick : Nat)
  | connects (client : SocketWithAuth) (pick : Nat)
  | disconnects (client : SocketWithAuth) (pick : Nat)

namespace Server

/-- Nobody is logged in and no socket is connected. -/
def start (db : Database) : Server := ⟨{ db with sessions := [] }, [], [], [], []⟩

/-- The server after a call of the auth service. -/
def answered (s : Server) (t : AuthState) : Server :=
  { s with db := { s.db with sessions := t.sessions }, ids := t.ids, issued := t.issued ++ s.issued }

/-- A call of the auth service, from its first request to its answer. -/
def call (env : ServerEnv) (s : Server) (now : Nat) (e : AuthEvent) (pick : Nat) (uuid : String) : Option Server :=
  ((AuthState.idle now s.db.sessions s.ids).alone (env.auth s.db.accounts) e pick uuid).map s.answered

/-- `handleConnection`. -/
def handleConnection (env : ServerEnv) (s : Server) (client : SocketWithAuth) (pick : Nat) : Option Server :=
  (s.call env 0 (.updateConnectionStatus client.sub .ONLINE pick) pick "").map fun s =>
    { s with sockets := s.sockets ++ [client], clients := addClient s.clients client.entry }

/-- `handleDisconnect`. -/
def handleDisconnect (env : ServerEnv) (s : Server) (client : SocketWithAuth) (pick : Nat) : Option Server :=
  (s.call env 0 (.updateConnectionStatus client.sub .OFFLINE pick) pick "").map fun s =>
    { s with sockets := s.sockets.filter (· ≠ client), clients := removeClient s.clients client.entry }

def step (env : ServerEnv) (s : Server) : ServerEvent → Option Server
  | .register renv data => some { s with db := s.db.perform (.register renv data) }
  | .verify now a => some { s with db := s.db.perform (.verify now a) }
  | .relationship accessToken c =>
    if (c.account, accessToken) ∈ s.issued then some { s with db := s.db.perform (.relationship c) } else none
  | .login now data pick uuid => s.call env now (.login data) pick uuid
  | .refresh now data a pick => s.call env now (.refresh data a pick) pick ""
  | .logout a pick => s.call env 0 (.logout a pick) pick ""
  | .connects c pick => if c ∈ s.sockets then none else s.handleConnection env c pick
  | .disconnects c pick => if c ∈ s.sockets then s.handleDisconnect env c pick else none

/-- The account has a session. -/
def HasSession (s : Server) (a : String) : Prop := ∃ x ∈ s.db.sessions, x.accountId = a

/-- The account has a session or has been issued an access token. -/
def Holds (s : Server) (a : String) : Prop := s.HasSession a ∨ ∃ accessToken, (a, accessToken) ∈ s.issued

/-- What a step may do: accounts are added or become ACTIVE, the sessions make a step, an access token is issued to an
account that has a session or is ACTIVE, and the rows change by an operation of an account that has a token. -/
structure Effects (s s' : Server) : Prop where
  accounts : s.db.accounts.Extends s'.db.accounts
  sessions : SessionsStep s.db.accounts s.db.sessions s.ids s'.db.sessions s'.ids
  issued : ∀ p ∈ s'.issued, p ∈ s.issued ∨ s.HasSession p.1 ∨ s.db.accounts.Active p.1
  relationships : s'.db.relationships = s.db.relationships ∨
    ∃ c accessToken, (Call.account c, accessToken) ∈ s.issued ∧ s'.db.accounts = s.db.accounts ∧
      s'.db.relationships = c.apply s.db.accounts s.db.relationships

/-- An account has one session at most, and is ACTIVE when it holds one or a token. -/
structure Sound (s : Server) : Prop where
  onePerAccount : OnePerAccount s.db.sessions s.ids
  active : ∀ a, s.Holds a → s.db.accounts.Active a

end Server

/-! ## What a step does -/

section Steps

open Server

variable {env : ServerEnv} {s s' : Server} {now pick : Nat} {uuid : String} {e : AuthEvent} {a : String}

theorem call_some : s.call env now e pick uuid = some s' ↔
    ∃ t, (AuthState.idle now s.db.sessions s.ids).alone (env.auth s.db.accounts) e pick uuid = some t ∧
      s' = s.answered t := by
  simp [Server.call, eq_comm]

/-- A call of the auth service. -/
theorem call_effects (h : s.call env now e pick uuid = some s') : s.Effects s' := by
  obtain ⟨t, ht, rfl⟩ := call_some.mp h
  obtain ⟨hsessions, hissued⟩ := alone_cases ht
  refine ⟨.refl _, hsessions, fun p hp => ?_, Or.inl rfl⟩
  rcases List.mem_append.mp hp with hp | hp
  · exact Or.inr (hissued p hp)
  · exact Or.inl hp

/-- No operation touches the sessions. -/
theorem perform_sessions (db : Database) (o : Operation) : (db.perform o).sessions = db.sessions := by
  rcases perform_cases db o with ⟨c, rfl⟩ | ⟨accounts, settings, -, he⟩
  · rfl
  · rw [he]

/-- A registration or a verification. -/
theorem perform_effects {o : Operation} (ho : ∀ c, o ≠ .relationship c) :
    s.Effects { s with db := s.db.perform o } := by
  rcases perform_cases s.db o with ⟨c, rfl⟩ | ⟨accounts, settings, hkeeps, he⟩
  · exact absurd rfl (ho c)
  · rw [he]
    exact ⟨hkeeps.extends, .same _ _ _, fun p hp => Or.inl hp, Or.inl rfl⟩

/-- **What a step does.** -/
theorem step_effects {event : ServerEvent} (h : s.step env event = some s') : s.Effects s' := by
  cases event with
  | register renv data =>
    cases h
    exact perform_effects nofun
  | verify now a =>
    cases h
    exact perform_effects nofun
  | relationship accessToken c =>
    simp only [Server.step] at h
    split at h
    · rename_i htoken
      cases h
      exact ⟨.refl _, .same _ _ _, fun p hp => Or.inl hp, Or.inr ⟨c, accessToken, htoken, rfl, rfl⟩⟩
    · cases h
  | login now data pick uuid => exact call_effects h
  | refresh now data a pick => exact call_effects h
  | logout a pick => exact call_effects h
  | connects c pick =>
    simp only [Server.step] at h
    split at h
    · cases h
    · obtain ⟨t, ht, rfl⟩ := Option.map_eq_some_iff.mp h
      exact { call_effects ht with }
  | disconnects c pick =>
    simp only [Server.step] at h
    split at h
    · obtain ⟨t, ht, rfl⟩ := Option.map_eq_some_iff.mp h
      exact { call_effects ht with }
    · cases h

/-! ## Who is logged in -/

theorem sound_start (db : Database) : (Server.start db).Sound := by
  refine ⟨.nil, fun a ha => ?_⟩
  rcases ha with ⟨x, hx, -⟩ | ⟨accessToken, hp⟩
  · cases hx
  · cases hp

/-- **Whoever holds a session or a token is ACTIVE**, and has one session. -/
theorem sound_step (hs : s.Sound) (h : s.Effects s') : s'.Sound := by
  refine ⟨h.sessions.onePerAccount hs.onePerAccount, fun a ha => h.accounts.active ?_⟩
  rcases ha with ⟨x, hx, rfl⟩ | ⟨accessToken, hp⟩
  · rcases h.sessions.owner hx with hheld | hactive
    · exact hs.active _ (Or.inl hheld)
    · exact hactive
  · rcases h.issued _ hp with hp | hheld | hactive
    · exact hs.active _ (Or.inr ⟨accessToken, hp⟩)
    · exact hs.active _ (Or.inl hheld)
    · exact hactive

/-! ## The registry of clients -/

/-- The clients are those of the connected sockets, in the order in which they have connected. -/
structure ClientsMatch (s : Server) : Prop where
  nodup : s.sockets.Nodup
  clients : s.clients = s.sockets.map SocketWithAuth.entry

/-- The auth service touches neither the sockets nor the clients. -/
theorem call_sockets (h : s.call env now e pick uuid = some s') : s'.sockets = s.sockets ∧ s'.clients = s.clients := by
  obtain ⟨t, -, rfl⟩ := call_some.mp h
  exact ⟨rfl, rfl⟩

theorem ClientsMatch.call (hs : ClientsMatch s) (h : s.call env now e pick uuid = some s') : ClientsMatch s' := by
  obtain ⟨hsockets, hclients⟩ := call_sockets h
  refine ⟨?_, ?_⟩
  · rw [hsockets]
    exact hs.nodup
  · rw [hsockets, hclients]
    exact hs.clients

theorem ClientsMatch.connects (hs : ClientsMatch s) {c : SocketWithAuth} (hc : c ∉ s.sockets) :
    ClientsMatch { s with sockets := s.sockets ++ [c], clients := addClient s.clients c.entry } where
  nodup := by
    rw [← List.concat_eq_append]
    exact hs.nodup.concat hc
  clients := by
    simp only [addClient, hs.clients, List.map_append, List.map_cons, List.map_nil]

theorem ClientsMatch.disconnects (hs : ClientsMatch s) {c : SocketWithAuth} (hc : c ∈ s.sockets) :
    ClientsMatch { s with sockets := s.sockets.filter (· ≠ c), clients := removeClient s.clients c.entry } where
  nodup := hs.nodup.filter _
  clients := by
    have hmem : c.entry ∈ s.clients := by
      rw [hs.clients]
      exact List.mem_map_of_mem hc
    have herase : (s.sockets.map SocketWithAuth.entry).erase c.entry = (s.sockets.erase c).map SocketWithAuth.entry :=
      (List.map_erase (fun _ _ h => client_entry_inj.mp h) s.sockets).symm
    have hfilter : s.sockets.erase c = s.sockets.filter (· ≠ c) := by
      rw [hs.nodup.erase_eq_filter]
      refine List.filter_congr fun d _ => ?_
      by_cases hd : d = c <;> simp [hd]
    show removeClient s.clients c.entry = _
    rw [removeClient_eq, if_pos hmem, hs.clients, herase, hfilter]

/-- **When no handler is interrupted, the clients are those of the connected sockets.** -/
theorem clientsMatch_step {event : ServerEvent} (hs : ClientsMatch s) (h : s.step env event = some s') :
    ClientsMatch s' := by
  cases event with
  | register renv data =>
    cases h
    exact ⟨hs.nodup, hs.clients⟩
  | verify now a =>
    cases h
    exact ⟨hs.nodup, hs.clients⟩
  | relationship accessToken c =>
    simp only [Server.step] at h
    split at h
    · cases h
      exact ⟨hs.nodup, hs.clients⟩
    · cases h
  | login now data pick uuid => exact hs.call h
  | refresh now data a pick => exact hs.call h
  | logout a pick => exact hs.call h
  | connects c pick =>
    simp only [Server.step] at h
    split at h
    · cases h
    · rename_i hc
      obtain ⟨t, ht, rfl⟩ := Option.map_eq_some_iff.mp h
      rw [← (call_sockets ht).1] at hc
      exact (hs.call ht).connects hc
  | disconnects c pick =>
    simp only [Server.step] at h
    split at h
    · rename_i hc
      obtain ⟨t, ht, rfl⟩ := Option.map_eq_some_iff.mp h
      rw [← (call_sockets ht).1] at hc
      exact (hs.call ht).disconnects hc
    · cases h

/-- The registry is exact in every run whose handlers are not interrupted. -/
theorem clientsMatch_run {db : Database} {events : List ServerEvent}
    (h : Machine.run (Server.step env) (.start db) events = some s) : ClientsMatch s :=
  Machine.run_inv' (fun _ _ _ hs hstep => clientsMatch_step hs hstep) ⟨List.nodup_nil, rfl⟩ h

end Steps

/-- A server for which names are passwords. -/
def sampleServerEnv : ServerEnv := ⟨sampleJwt, id, sampleAuthEnv.compareSync⟩

end DiscordClone
