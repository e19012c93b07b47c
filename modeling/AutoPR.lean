import AutoPR.Jobs.Ledger
import AutoPR.Jobs.Invariant
import AutoPR.Library.OneShot
import AutoPR.Jobs.Attempts
import AutoPR.Jobs.Publication
import AutoPR.Jobs.Outbox
import AutoPR.Jobs.Ingest
import AutoPR.Jobs.Terminal
import AutoPR.Jobs.Lease
import AutoPR.Jobs.Ack
import AutoPR.Library.Python
import AutoPR.Routing.Policy
import AutoPR.Routing.Ceiling
import AutoPR.Routing.Store
import AutoPR.Routing.Router
import AutoPR.Routing.Requests
import AutoPR.Routing.System
import AutoPR.Routing.Steps
import AutoPR.Routing.Gate
import AutoPR.Routing.Life
import AutoPR.Routing.Holders
import AutoPR.Routing.Refinement
import AutoPR.Routing.AutoPath
import AutoPR.Routing.Channels
import AutoPR.Routing.Creation
import AutoPR.Routing.Stored
import AutoPR.Routing.Accounted
import AutoPR.Tenancy.Lifecycle
import AutoPR.Routing.Notices
import AutoPR.Commands.Parse
import AutoPR.Tenancy.AppAuth
import AutoPR.Tenancy.Clocks
import AutoPR.Commands.Handler
import AutoPR.Library.Relational
import AutoPR.Commands.Noninterference
import AutoPR.Commands.Authorization
import AutoPR.Tenancy.Credentials
import AutoPR.Jobs.NoWork
import AutoPR.Routing.NoWork
import AutoPR.Tenancy.Suspension
import AutoPR.Webhook.Admission
import AutoPR.Webhook.Admitted
import AutoPR.Webhook.QuotaBound
import AutoPR.Library.Workflow
import AutoPR.Pipeline.Agents
import AutoPR.Pipeline.Graph
import AutoPR.Pipeline.Steps
import AutoPR.Pipeline.Terminates
import AutoPR.Library.Strip
import AutoPR.Pipeline.Patch
import AutoPR.Clients.Posts
import AutoPR.Clients.Authorised
import AutoPR.Clients.Reads
import AutoPR.Commands.Ops
import AutoPR.Grounding.Isolation
import AutoPR.Library.Liveness
import AutoPR.Library.Returning
import AutoPR.Pipeline.Disposition
import AutoPR.Tenancy.Readable
import AutoPR.Webhook.Readable
import AutoPR.Commands.Answers
import AutoPR.Webhook.Acknowledged
import AutoPR.Routing.Candour
import AutoPR.Commands.Grammar
import AutoPR.Ratelimit.Address
import AutoPR.Ratelimit.ClientIp
import AutoPR.Ratelimit.Window
import AutoPR.Jobs.Batch
import AutoPR.Jobs.Dispatch
import AutoPR.Library.FileTree
import AutoPR.Library.Posix
import AutoPR.Sandbox.Containment
import AutoPR.Sandbox.Completeness
import AutoPR.Sandbox.Handover
import AutoPR.Library.Fence
import AutoPR.Routing.Fencing
import AutoPR.Library.Json
import AutoPR.Library.JsonRuns
import AutoPR.Library.JsonStrings
import AutoPR.Pipeline.Extraction
import AutoPR.Library.Joined
import AutoPR.Pipeline.Prompt
import AutoPR.Commands.Listing
import AutoPR.Tenancy.Owner
import AutoPR.Library.Expiring
import AutoPR.Tenancy.Freshness
import AutoPR.Webhook.Verification
import AutoPR.Frontend.Polling
import AutoPR.Pipeline.CheckedPaths
import AutoPR.Api.Search
import AutoPR.Clients.PullFiles
import AutoPR.Library.Delimited
import AutoPR.Pipeline.Identity
import AutoPR.Jobs.Attended
import AutoPR.Jobs.Settlement
import AutoPR.Jobs.Origin
import AutoPR.Routing.Origin
import AutoPR.Tenancy.Provenance
import AutoPR.Library.Noninterference
import AutoPR.Api.Boot
import AutoPR.Api.Site
import AutoPR.Api.Outsiders
import AutoPR.Api.Public
import AutoPR.Commands.Conversation
import AutoPR.Library.Browsing
import AutoPR.Api.History
import AutoPR.Api.Reading
import AutoPR.Api.Reader
import AutoPR.Frontend.Preview
import AutoPR.Frontend.Stretches
import AutoPR.Frontend.Reviewed
import AutoPR.Jobs.Starts
import AutoPR.Webhook.Spend
import AutoPR.Jobs.Recovery
