import WireProxy.Awg.Defaults
import WireProxy.Config.Environment
import WireProxy.Config.Image
import WireProxy.Config.Layout
import WireProxy.Config.ListKeys
import WireProxy.Config.Literal
import WireProxy.Health.Access
import WireProxy.Health.Metrics
import WireProxy.Health.Reply
import WireProxy.Health.Sockets
import WireProxy.Http.Authority
import WireProxy.Http.Persistent
import WireProxy.Http.Upstream
import WireProxy.Ipc.Keepalive
import WireProxy.Ipc.RoundTrip
import WireProxy.Main.ConfigTest
import WireProxy.Main.Durations
import WireProxy.Main.Stages
import WireProxy.Routine.Credentials
import WireProxy.Routine.Ownership
import WireProxy.Routine.Resolve
import WireProxy.Routine.Stdio
import WireProxy.Udp.Atomicity
import WireProxy.Udp.Forwarding
import WireProxy.Udp.Release
import WireProxy.Udp.Settlement
