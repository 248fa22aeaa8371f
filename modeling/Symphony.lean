import Symphony.Lib.Binary64
import Symphony.Lib.Bucket
import Symphony.Rust.Basic
import Symphony.Rust.Net
import Symphony.Sni.Records
import Symphony.Sni.Hello
import Symphony.Sni.Peek
import Symphony.Sni.Encode
import Symphony.Sni.Stable
import Symphony.Lib.Runs
import Symphony.Lib.Table
import Symphony.Protection.State
import Symphony.Protection.Entries
import Symphony.Protection.Rate
import Symphony.Protection.Penalty
import Symphony.Protection.Concurrent
import Symphony.Protection.Fingerprint
import Symphony.Lib.Search
import Symphony.Lib.Strip
import Symphony.Http.Head
import Symphony.Http.Owned
import Symphony.Lib.Prog
import Symphony.Http.Pump
import Symphony.Http.Stream
import Symphony.Http.Refine
import Symphony.Http.Rfc
import Symphony.Http.Boundaries
import Symphony.Http.Tunnel
import Symphony.Failover.Policy
import Symphony.Router.Spec
import Symphony.Lib.Act
import Symphony.Lib.Twin
import Symphony.Router.Tls
import Symphony.Router.Route
import Symphony.Lib.Loop
import Symphony.Router.Limiter
import Symphony.Lib.SharedBucket
import Symphony.Protection.Contended
import Symphony.Router.Table
import Symphony.Router.Heap
import Symphony.Router.Resolve
import Symphony.Router.Reload
import Symphony.Router.Cap
import Symphony.Router.Transparent
import Symphony.Router.Sessions
import Symphony.Router.Health
import Symphony.Router.Down
import Symphony.Router.Blur
import Symphony.Router.Tenants
import Symphony.Router.Isolation
import Symphony.Router.Spelling
import Symphony.Proxy.Config
import Symphony.Lib.Writes
import Symphony.Proxy.Update
import Symphony.Upstream.ProxyV2
import Symphony.Lib.Copy
import Symphony.Failover.Forward
import Symphony.Failover.HandOver
import Symphony.Failover.Rotation
import Symphony.Failover.Assess
import Symphony.Failover.Control
import Symphony.Lib.Incoming
import Symphony.Ingress.Header
import Symphony.Ingress.Load
import Symphony.Proxy.Handle
import Symphony.Proxy.Cluster
import Symphony.Router.Statuses
import Symphony.Failover.Probe
import Symphony.Server.Config
import Symphony.Server.Reconcile
import Symphony.Server.Applied
import Symphony.Server.Status
import Symphony.Proxy.Construct
import Symphony.Server.HotSwap
import Symphony.Proxy.Accept
import Symphony.Router.Background
import Symphony.Proxy.Ja4
import Symphony.Http.Alone
import Symphony.Http.Strict
import Symphony.Http.Rewrite
import Symphony.Http.Acme
import Symphony.Protection.Evicted
import Symphony.Protection.Blocked
import Symphony.Protection.Enabled
import Symphony.Proxy.DefaultBurst
import Symphony.Router.Delivered
import Symphony.Failover.Cooldown
import Symphony.Failover.Shares
import Symphony.Upstream.Prefix
import Symphony.Router.Balancer
import Symphony.Upstream.Connect
import Symphony.Router.Recovery
import Symphony.Router.Identity
import Symphony.Proxy.Sources
import Symphony.Proxy.Affinity
import Symphony.Lib.Group
import Symphony.Server.Exposition
import Symphony.Proxy.Suspended
import Symphony.Upstream.ThreadCpu
import Symphony.Proxy.Gate
import Symphony.Proxy.Session
import Symphony.Router.Sticky
