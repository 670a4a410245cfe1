import ObjectStore.Admission
import ObjectStore.Admission.Permits
import ObjectStore.Admission.Turnstile
import ObjectStore.Answer
import ObjectStore.Calendar
import ObjectStore.Calendar.Timestamp
import ObjectStore.Call
import ObjectStore.Client
import ObjectStore.ClientConfig
import ObjectStore.CommandLine.Arguments
import ObjectStore.CommandLine.CommandError
import ObjectStore.CommandLine.Course
import ObjectStore.CommandLine.Location
import ObjectStore.CommandLine.Session
import ObjectStore.CommandLine.Usage
import ObjectStore.CommandLine.Written
import ObjectStore.Completion
import ObjectStore.Completion.Attempts
import ObjectStore.Config
import ObjectStore.Config.Loading
import ObjectStore.Credentials
import ObjectStore.Credentials.History
import ObjectStore.Deletion
import ObjectStore.Digest.Block
import ObjectStore.Digest.Md5
import ObjectStore.Digest.Sha1
import ObjectStore.Directory
import ObjectStore.Dotenv
import ObjectStore.Duration
import ObjectStore.Endpoint
import ObjectStore.Environment
import ObjectStore.Http.Header
import ObjectStore.Http.Response
import ObjectStore.Http.Target
import ObjectStore.Listing
import ObjectStore.Listing.Document
import ObjectStore.Main
import ObjectStore.Network
import ObjectStore.Operation
import ObjectStore.OperationError
import ObjectStore.Pool
import ObjectStore.Pool.Channel
import ObjectStore.Pool.Reaper
import ObjectStore.Pool.Simulation
import ObjectStore.Pool.Tenants
import ObjectStore.Registry
import ObjectStore.Request
import ObjectStore.Retry
import ObjectStore.Routing
import ObjectStore.Routing.Switchboard
import ObjectStore.ServiceError
import ObjectStore.Signature
import ObjectStore.Simulation
import ObjectStore.Simulation.Caller
import ObjectStore.Text.Alphanumeric
import ObjectStore.Text.Base64
import ObjectStore.Text.Blank
import ObjectStore.Text.ByteSize
import ObjectStore.Text.Decimal
import ObjectStore.Text.Percent
import ObjectStore.Text.Printable
import ObjectStore.Text.Quoted
import ObjectStore.Text.Utf8
import ObjectStore.Transport
import ObjectStore.Transport.Course
import ObjectStore.Transport.Teardown
import ObjectStore.Word
import ObjectStore.Xml.Decoder
import ObjectStore.Xml.Reference
import ObjectStore.Xml.Token
import ObjectStore.Xml.Trace
import ObjectStore.Xml.Transcript
import ObjectStore.Xml.Visit
import ObjectStore.Yaml.Cursor
import ObjectStore.Yaml.Node
import ObjectStore.Yaml.Scalar
import ObjectStore.Yaml.Token
import ObjectStore.Proofs.PoolStages
import ObjectStore.Proofs.PoolAccounts
import ObjectStore.Proofs.DispatchMoves
import ObjectStore.Proofs.Registries
import ObjectStore.Proofs.PoolLeases
import ObjectStore.Proofs.SignedRequests
import ObjectStore.Proofs.DispatchInvariant
import ObjectStore.Proofs.DispatchOutcomes
import ObjectStore.Proofs.RoutingHistory
import ObjectStore.Proofs.ChannelTraffic
import ObjectStore.Completion.Delivery
import ObjectStore.Proofs.Deliveries
import ObjectStore.Proofs.Utf8Codec
import ObjectStore.Proofs.AcceptedDocuments
import ObjectStore.Proofs.MarkupTokens
import ObjectStore.Proofs.CutText
import ObjectStore.Proofs.CalendarDates
import ObjectStore.Listing.Written
import ObjectStore.Proofs.WrittenListings
import ObjectStore.Proofs.DocumentParts
import ObjectStore.Proofs.Visits
import ObjectStore.Proofs.ListingVisits
import ObjectStore.Listing.Skipped
import ObjectStore.Proofs.SkippedFields
import ObjectStore.Request.Named
import ObjectStore.Proofs.NamedObjects
import ObjectStore.Proofs.Removals
import ObjectStore.Listing.FollowUp
import ObjectStore.Proofs.FollowUps
import ObjectStore.Listing.Entries
import ObjectStore.CommandLine.Conversation
import ObjectStore.Proofs.HeldEntries
import ObjectStore.Proofs.ListingWalks
import ObjectStore.Proofs.ListingCommands
import ObjectStore.Proofs.PercentCodec
import ObjectStore.Listing.Query
import ObjectStore.Proofs.ListingQueries
import ObjectStore.Service
import ObjectStore.Listing.Shelf
import ObjectStore.Proofs.PagedListings
import ObjectStore.Proofs.RetryRuns
import ObjectStore.Proofs.SignedText
import ObjectStore.Proofs.DispatchAccounts
import ObjectStore.Client.Course
import ObjectStore.Proofs.ClientMoves
import ObjectStore.Proofs.DispatchTurns
import ObjectStore.Proofs.ClientAccounts
import ObjectStore.Proofs.JobEndings
import ObjectStore.Proofs.Cancellations
import ObjectStore.Request.Signed
import ObjectStore.Proofs.SentTargets
import ObjectStore.Request.Carried
import ObjectStore.Proofs.BulkDeletes
import ObjectStore.Xml.Tree
import ObjectStore.Proofs.DocumentTrees
import ObjectStore.Listing.Mention
import ObjectStore.Proofs.Mentions
import ObjectStore.Proofs.ListingObjects
import ObjectStore.Proofs.PoolShutdown
import ObjectStore.Xml.Forest
import ObjectStore.Proofs.ForeignElements
import ObjectStore.Deletion.Written
import ObjectStore.Proofs.WrittenDeletions
import ObjectStore.ServiceError.Document
import ObjectStore.Proofs.ServiceErrors
import ObjectStore.Proofs.TurnstileAccounts
import ObjectStore.Proofs.PoolQueues
import ObjectStore.Proofs.TrimmedText
import ObjectStore.Proofs.CredentialsHistory
import ObjectStore.Proofs.WrittenObjects
import ObjectStore.Proofs.PoolAdmissions
import ObjectStore.Proofs.PoolRecency
import ObjectStore.Proofs.SignerHistory
import ObjectStore.Proofs.CalendarOrder
import ObjectStore.Calendar.TimestampPlaces
import ObjectStore.Proofs.TimestampFields
import ObjectStore.Proofs.TimestampPlaces
import ObjectStore.CommandLine.Targets
import ObjectStore.Proofs.GroupedPaths
import ObjectStore.Proofs.RemovedPaths
import ObjectStore.Text.Escaped
import ObjectStore.Request.KeyPath
import ObjectStore.Proofs.EscapedText
import ObjectStore.Proofs.ObjectPaths
import ObjectStore.Proofs.ListingPaths
import ObjectStore.Listing.Placement
import ObjectStore.Proofs.ListingEntries
import ObjectStore.Proofs.ListingPrefixes
import ObjectStore.Http.Connection
import ObjectStore.Proofs.KeepAlive
import ObjectStore.Listing.Bucket
import ObjectStore.Proofs.StoredObjects
import ObjectStore.Pool.Reaped
import ObjectStore.Proofs.IdleChannels
import ObjectStore.Proofs.ClosedChannels
import ObjectStore.Proofs.ReapedPools
import ObjectStore.ClientConfig.WaitingTime
import ObjectStore.Proofs.WaitingTimes
import ObjectStore.Proofs.RouteLeases
import ObjectStore.Proofs.Transcripts
import ObjectStore.Proofs.BegunEntries
import ObjectStore.Proofs.Clocks
import ObjectStore.Proofs.SimulatedRuns
