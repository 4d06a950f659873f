import LanguageClient.Binary64
import LanguageClient.Binary64.Digits
import LanguageClient.Client.Folders
import LanguageClient.Client.Opening
import LanguageClient.Client.Registering
import LanguageClient.Client.Requesting
import LanguageClient.Client.Step
import LanguageClient.Client.Visiting
import LanguageClient.Client.World
import LanguageClient.Config
import LanguageClient.Config.Toml
import LanguageClient.Connection
import LanguageClient.Error
import LanguageClient.Feature
import LanguageClient.Host
import LanguageClient.Json
import LanguageClient.Json.Decoder
import LanguageClient.Json.Parser
import LanguageClient.Json.Printer
import LanguageClient.Log
import LanguageClient.Message
import LanguageClient.Progress
import LanguageClient.Proofs.Connection.Answers
import LanguageClient.Proofs.Connection.Calls
import LanguageClient.Proofs.Connection.Course
import LanguageClient.Proofs.Connection.Runs
import LanguageClient.Proofs.Connection.Upkeep
import LanguageClient.Proofs.Folders.Agreement
import LanguageClient.Proofs.Folders.Ledger
import LanguageClient.Proofs.Folders.Look
import LanguageClient.Proofs.Folders.Phases
import LanguageClient.Proofs.Folders.Sharing
import LanguageClient.Proofs.Folders.Startup
import LanguageClient.Proofs.Folders.Lending
import LanguageClient.Proofs.Folders.Steady
import LanguageClient.Proofs.Folders.Telling
import LanguageClient.Proofs.Roots.Charge
import LanguageClient.Proofs.Roots.Custody
import LanguageClient.Proofs.Roots.Exclusive
import LanguageClient.Proofs.Roots.Grown
import LanguageClient.Proofs.Roots.Handing
import LanguageClient.Proofs.Roots.Opening
import LanguageClient.Proofs.Roots.Removal
import LanguageClient.Proofs.Roots.Visiting
import LanguageClient.Proofs.Run
import LanguageClient.Proofs.Session.Balance
import LanguageClient.Proofs.Session.Course
import LanguageClient.Proofs.World.Connect
import LanguageClient.Proofs.World.Course
import LanguageClient.Proofs.World.Sweep
import LanguageClient.Proofs.World.Visits
import LanguageClient.Protocol.Diagnostic
import LanguageClient.Protocol.Document
import LanguageClient.Protocol.Hover
import LanguageClient.Protocol.Location
import LanguageClient.Protocol.LogMessage
import LanguageClient.Protocol.Progress
import LanguageClient.Protocol.Registration
import LanguageClient.Protocol.Token
import LanguageClient.Protocol.Workspace
import LanguageClient.Provider
import LanguageClient.Registrations
import LanguageClient.Rehearsal.Conversation
import LanguageClient.Rehearsal.Engagement
import LanguageClient.Rehearsal.Handles
import LanguageClient.Rehearsal.Peer
import LanguageClient.Rehearsal.Schedule
import LanguageClient.Rewriter
import LanguageClient.Roots
import LanguageClient.Selector
import LanguageClient.Session
import LanguageClient.Session.Handshake
import LanguageClient.Session.Installing
import LanguageClient.Session.Projection
import LanguageClient.Subscription
import LanguageClient.Telemetry
import LanguageClient.Telemetry.Filter
import LanguageClient.Text.Blank
import LanguageClient.Text.Quoted
import LanguageClient.Toml.Parser
import LanguageClient.Toml.Scalar
import LanguageClient.Toml.Value
import LanguageClient.Transport.Pipe
import LanguageClient.UriReference
import LanguageClient.Url
import LanguageClient.Url.Error
import LanguageClient.Url.Host
import LanguageClient.Url.Path
import LanguageClient.Url.Percent
import LanguageClient.Proofs.Session.Reporters
import LanguageClient.Proofs.Session.Acts
import LanguageClient.Proofs.Session.Accounts
import LanguageClient.Proofs.Session.Settling
import LanguageClient.Proofs.Session.Offers
import LanguageClient.Proofs.World.Parts
import LanguageClient.Proofs.World.Scene
import LanguageClient.Proofs.World.Moves
import LanguageClient.Proofs.World.Accounts
import LanguageClient.Proofs.Registering.Serving
import LanguageClient.Proofs.Registering.Catalogue
import LanguageClient.Proofs.Teardown.Parting
import LanguageClient.Proofs.Teardown.Silence
import LanguageClient.Proofs.Connection.Feeds
import LanguageClient.Proofs.Connection.Jobs
import LanguageClient.Proofs.Rewriting.Decoding
import LanguageClient.Proofs.Rewriting.Locations
import LanguageClient.Proofs.Scoping.Segments
import LanguageClient.Proofs.Scoping.Directories
import LanguageClient.Proofs.Scoping.Hosts
import LanguageClient.Proofs.Scoping.Within
import LanguageClient.Proofs.Connection.Onward
import LanguageClient.Proofs.Session.Onward
import LanguageClient.Proofs.Session.Greeting
import LanguageClient.Proofs.World.Onward
import LanguageClient.Proofs.World.Greeting
import LanguageClient.Proofs.Registering.Readiness
import LanguageClient.Proofs.World.Rest
import LanguageClient.Proofs.Roots.Lineage
import LanguageClient.Proofs.Roots.Hands
import LanguageClient.Proofs.Roots.Roster
import LanguageClient.Proofs.Roots.Abreast
import LanguageClient.Proofs.Teardown.Leaving
import LanguageClient.Proofs.Registering.Announcing
import LanguageClient.Proofs.Messages.RoundTrip
import LanguageClient.Proofs.Reporting.Runs
import LanguageClient.Proofs.Drawing.Runs
import LanguageClient.Proofs.Reading.Authorities
import LanguageClient.Proofs.Reading.Continuations
import LanguageClient.Proofs.Registering.Scope
import LanguageClient.Proofs.Rewriting.Addresses
import LanguageClient.Proofs.Rewriting.Validity
import LanguageClient.Proofs.Rewriting.Prefixes
import LanguageClient.Proofs.Reading.Numbers
import LanguageClient.Proofs.Reading.Hosts
import LanguageClient.Proofs.Scoping.Names
import LanguageClient.Proofs.Scoping.Entries
import LanguageClient.Proofs.Registering.Options
import LanguageClient.Proofs.Registering.Providing
import LanguageClient.Proofs.Registering.Declaring
import LanguageClient.Proofs.Messages.Grammar
import LanguageClient.Proofs.Folders.Chains
import LanguageClient.Proofs.Config.RoundTrip
import LanguageClient.Proofs.World.Leads
import LanguageClient.Proofs.Scoping.Nesting
import LanguageClient.Proofs.Registering.Audience
import LanguageClient.Proofs.Reporting.Calm
