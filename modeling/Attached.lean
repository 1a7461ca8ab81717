import Attached.Library.Transition
import Attached.Library.Bytes
import Attached.Library.Except
import Attached.Library.Keyed
import Attached.Library.Reader
import Attached.Library.Base64
import Attached.Library.Json
import Attached.Library.JsonLemmas
import Attached.Library.Serde
import Attached.Library.IpAddr
import Attached.Protocol.Basic
import Attached.Protocol.Canonical
import Attached.Protocol.CanonicalLemmas
import Attached.Protocol.Account
import Attached.Protocol.AccountLemmas
import Attached.Protocol.Bundle
import Attached.Protocol.BundleLemmas
import Attached.Protocol.Api
import Attached.Protocol.ApiJson
import Attached.Protocol.ApiJsonLemmas
import Attached.Protocol.Crypto
import Attached.Sync.Catalog
import Attached.Sync.CatalogLemmas
import Attached.Sync.RefreshSystem
import Attached.Sync.Refresh
import Attached.Sync.RefreshLemmas
import Attached.Sync.CachedRefresh
import Attached.Sync.ConcurrentRefresh
import Attached.Worker.Storage
import Attached.Worker.StorageLemmas
import Attached.Worker.Api
import Attached.Worker.ApiLemmas
import Attached.Library.Aead
import Attached.Library.Panic
import Attached.Library.Processes
import Attached.Library.Effect
import Attached.Local.Envelope
import Attached.Local.EnvelopeLemmas
import Attached.Local.SecretStore
import Attached.Local.StateFiles
import Attached.Update.Basic
import Attached.Update.Start
import Attached.Update.StartLemmas
import Attached.Local.Migration
import Attached.Local.Account
import Attached.Local.AccountLemmas
import Attached.Local.AccountSystem
import Attached.Local.AccountSystemLemmas
import Attached.Local.Clipboard
import Attached.Local.ClipboardLemmas
import Attached.Sync.EndpointRegistry
import Attached.Sync.PublisherDescriptor
import Attached.Plugin.Basic
import Attached.Plugin.Reconciler
import Attached.Plugin.ReconcilerLemmas
import Attached.Plugin.Readding
import Attached.Plugin.Fairness
import Attached.Sync.Listing
import Attached.Ssh.Export
import Attached.Ssh.ExportLemmas
import Attached.Library.SerdeLemmas
import Attached.Plugin.Discovery
import Attached.Plugin.DiscoveryLemmas
import Attached.Ssh.Discovery
import Attached.Ssh.DiscoveryLemmas
import Attached.Ssh.Aliases
import Attached.Ssh.HostPins
import Attached.Sync.Http
import Attached.Sync.ConsistentFetch
import Attached.Sync.Publisher
import Attached.Sync.PublisherLemmas
import Attached.Library.Registry
import Attached.Client.Broker
import Attached.Client.BrokerLemmas
import Attached.Client.Serve
import Attached.Client.ServeLemmas
import Attached.Client.Transport
import Attached.Client.TransportLemmas
import Attached.Sync.BoundedBody
import Attached.Sync.Origins
import Attached.Library.Shell
import Attached.Ssh.Configuration
import Attached.Ssh.Names
import Attached.Local.StateDir
import Attached.Local.StateDirLemmas
import Attached.Ssh.ManagedConfig
import Attached.Ssh.ManagedConfigLemmas
import Attached.Library.Chunks
import Attached.Update.Frames
import Attached.Update.FramesLemmas
import Attached.Sync.RoundTrip
import Attached.Update.Replacement
import Attached.Update.ReplacementLemmas
import Attached.Library.History
import Attached.Library.Simulation
import Attached.Plugin.Ownership
import Attached.Update.Handoff
import Attached.Update.HandoffLemmas
import Attached.Update.Handover
import Attached.Update.Confirm
import Attached.Library.Pipe
import Attached.Library.Relay
import Attached.Library.SingleFlight
import Attached.Forward.Stream
import Attached.Forward.StreamLemmas
import Attached.Forward.Progress
import Attached.Forward.Client
import Attached.Forward.ClientLemmas
import Attached.Forward.Served
