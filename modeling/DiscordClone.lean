import DiscordClone.Lib.Machine
import DiscordClone.Lib.Transaction
import DiscordClone.Lib.ReadCommitted
import DiscordClone.Lib.Json
import DiscordClone.Exceptions
import DiscordClone.Schema
import DiscordClone.Sample
import DiscordClone.User.Service
import DiscordClone.User.Rows
import DiscordClone.User.Pair
import DiscordClone.User.Refinement
import DiscordClone.User.Consent
import DiscordClone.User.Lists
import DiscordClone.Dm.Service
import DiscordClone.Dm.Block
import DiscordClone.User.Footprint
import DiscordClone.User.Coherence
import DiscordClone.User.BlockRow
import DiscordClone.Lib.JsString
import DiscordClone.UserSettings.Service
import DiscordClone.Gateway.Chat
import DiscordClone.Gateway.Authorship
import DiscordClone.Gateway.Delivery
import DiscordClone.Auth.Token
import DiscordClone.Auth.Service
import DiscordClone.Auth.Register
import DiscordClone.User.Actionable
import DiscordClone.Auth.Steps
import DiscordClone.Auth.Sessions
import DiscordClone.Auth.Rotation
import DiscordClone.User.Views
import DiscordClone.Auth.Strategies
import DiscordClone.Lib.Paging
import DiscordClone.Dm.Paging
import DiscordClone.Lib.Recency
import DiscordClone.User.Profile
import DiscordClone.UserSettings.Pins
import DiscordClone.Gateway.Payload
import DiscordClone.UserSettings.LostUpdate
import DiscordClone.Gateway.Membership
import DiscordClone.Gateway.Registry
import DiscordClone.Auth.Serial
import DiscordClone.Server
import DiscordClone.User.Unverified
import DiscordClone.Gateway.Presence
import DiscordClone.Auth.Atomicity
import DiscordClone.Dm.Window
import DiscordClone.Api.Controllers
import DiscordClone.Lib.Outcome
import DiscordClone.Api.Backend
import DiscordClone.Auth.Answers
import DiscordClone.Api.Steps
import DiscordClone.Lib.Past
import DiscordClone.Api.Provenance
import DiscordClone.Api.Integrity
import DiscordClone.Api.Errors
import DiscordClone.Api.Authority
import DiscordClone.Lib.PubSub
import DiscordClone.Api.Stream
import DiscordClone.Lib.Unwinding
import DiscordClone.Api.Secrecy
import DiscordClone.Lib.Gate
import DiscordClone.Dm.Sending
import DiscordClone.Api.Lifetime
import DiscordClone.Api.Live
import DiscordClone.Api.Stranded
import DiscordClone.Api.Served
import DiscordClone.Lib.Isolation
import DiscordClone.Dm.Serial
import DiscordClone.Auth.Linear
