import JellyBroker.Lib.FiniteMap
import JellyBroker.Lib.StackWalk
import JellyBroker.Config
import JellyBroker.Topic.Filter
import JellyBroker.Topic.Matching
import JellyBroker.Topic.Paths
import JellyBroker.Topic.Subscriptions
import JellyBroker.Topic.Lookup
import JellyBroker.Auth.Authenticator
import JellyBroker.Auth.PgAuthenticator
import JellyBroker.Auth.AclCoverage
import JellyBroker.Packet.Builder
import JellyBroker.Packet.Packets
import JellyBroker.Packet.Parser
import JellyBroker.Lib.Transition
import JellyBroker.Qos.ClientTable
import JellyBroker.Subscription
import JellyBroker.Broker.Session
import JellyBroker.Broker.Delivery
import JellyBroker.Broker.Handlers
import JellyBroker.Broker.System
import JellyBroker.Broker.Frame
import JellyBroker.Broker.Invariant
import JellyBroker.Broker.Accounting
import JellyBroker.Broker.Registry
import JellyBroker.Broker.Segmentation
import JellyBroker.Qos.InFlight
import JellyBroker.Topic.Retained
import JellyBroker.Broker.InFlight
import JellyBroker.Broker.FanOut
import JellyBroker.Broker.Ingest
import JellyBroker.Broker.BruteForce
import JellyBroker.Broker.Link
import JellyBroker.Broker.Directions
import JellyBroker.Lib.Cutter
import JellyBroker.Packet.Chunking
import JellyBroker.Broker.Mirror
import JellyBroker.Broker.Isolation
import JellyBroker.Broker.Bystander
import JellyBroker.Broker.CleanSession
import JellyBroker.Broker.StoredSubscriptions
import JellyBroker.Broker.Retries
import JellyBroker.Broker.Identity
import JellyBroker.Broker.Answers
import JellyBroker.Broker.HandlerCalls
import JellyBroker.Broker.RoundTrip
import JellyBroker.Broker.IncomingStore
import JellyBroker.Broker.WritePath
import JellyBroker.Broker.Retransmission
import JellyBroker.Lib.Walk
import JellyBroker.Mdns.Names
import JellyBroker.Mdns.Questions
import JellyBroker.Topic.Grammar
import JellyBroker.Topic.RetainedCount
import JellyBroker.Topic.RetainedListing
import JellyBroker.Broker.Extraction
import JellyBroker.Auth.AccessRights
import JellyBroker.Broker.Refusals
import JellyBroker.Broker.Malformed
import JellyBroker.Lib.Codec
import JellyBroker.Packet.Exactness
import JellyBroker.Auth.CacheStaleness
import JellyBroker.Broker.Suback
import JellyBroker.Mdns.OwnNames
import JellyBroker.Lib.Dns
import JellyBroker.Mdns.Responses
import JellyBroker.Lib.Past
import JellyBroker.Lib.LastWrite
import JellyBroker.Broker.Content
import JellyBroker.Broker.QosLevels
import JellyBroker.Broker.Provenance
import JellyBroker.Broker.WellFormed
import JellyBroker.Broker.Authorised
import JellyBroker.Lib.Locks
import JellyBroker.Broker.Locking
import JellyBroker.Utils.Timer
import JellyBroker.Lib.DataRefinement
import JellyBroker.Utils.BufferObject
import JellyBroker.Packet.BufferPackets
import JellyBroker.Broker.InputPath
import JellyBroker.Broker.Lifetime
import JellyBroker.Broker.Routing
import JellyBroker.Broker.StoredFilters
import JellyBroker.Broker.SubscriptionLimit
import JellyBroker.Broker.Forwarding
import JellyBroker.Broker.RetainedDelivery
import JellyBroker.Auth.PoolThreads
