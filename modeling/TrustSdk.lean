import TrustSdk.Lib.SlotTable
import TrustSdk.Kv.Atomicity
import TrustSdk.Kv.Refinement
import TrustSdk.Kv.WriteOrder
import TrustSdk.Kv.FirstFormat
import TrustSdk.Kv.Validity
import TrustSdk.Kv.Layout
import TrustSdk.Mqtt.ProcessLoop
import TrustSdk.Mqtt.Table
import TrustSdk.Mqtt.Operations
import TrustSdk.Mqtt.Release
import TrustSdk.Mqtt.Shutdown
import TrustSdk.Core.Handshake
import TrustSdk.Core.Marker
import TrustSdk.Cloud.Replies
import TrustSdk.Cloud.Identity
import TrustSdk.Cloud.Session
import TrustSdk.Core.Availability
import TrustSdk.Core.Closing
import TrustSdk.Core.Delivery
import TrustSdk.Core.Recovery
import TrustSdk.Core.Envelope
import TrustSdk.Core.Pool
import TrustSdk.Crypto.RoundTrip
import TrustSdk.Json.Escape
import TrustSdk.Json.Overflow
import TrustSdk.Queue.Quiescence
import TrustSdk.Kv.Bursts
import TrustSdk.Lib.SystemCalls
import TrustSdk.Lib.FileStore
import TrustSdk.Security.SlotAtomicity
import TrustSdk.Log.Lifecycle
import TrustSdk.Ntp.Clock
import TrustSdk.Net.ResolverEnd
import TrustSdk.Storage.KvOnFile
import TrustSdk.Crypto.KeyStore
import TrustSdk.Kv.RegistryEnd
