import WireProxy.Awg.Params
import WireProxy.Go.Netip

/-!
# The configuration

The types that `ParseConfig` fills. Options stand for pointers, and the fields of the source that
are functions of the process, the standard streams of an STDIO tunnel, are left out.
-/

namespace WireProxy.Config

open Text Go Netip Awg

/-- `PeerConfig`. -/
structure PeerConfig (w : IntSize) where
  publicKey : Text
  preSharedKey : Text
  endpoint : Option Text
  keepAlive : GoInt w
  keepAliveMax : GoInt w
  allowedIPs : List Prefix
  keepAliveRange : Option UintRange
  deriving DecidableEq

/-- `DeviceConfig`. -/
structure DeviceConfig (w : IntSize) where
  secretKey : Text
  endpoint : List Addr
  peers : List (PeerConfig w)
  dns : List Addr
  mtu : GoInt w
  listenPort : Option (GoInt w)
  checkAlive : List Addr
  checkAliveInterval : GoInt w
  aSecConfig : Option (ASecConfigType w)
  deriving DecidableEq

/-- `UDPProxyTunnelConfig`. -/
structure UDPProxyTunnelConfig (w : IntSize) where
  bindAddress : Text
  target : Text
  inactivityTimeout : GoInt w
  deriving DecidableEq

/-- `TCPClientTunnelConfig`. -/
structure TCPClientTunnelConfig where
  bindAddress : TCPAddr
  target : Text
  deriving DecidableEq

/-- `STDIOTunnelConfig`. -/
structure STDIOTunnelConfig where
  target : Text
  deriving DecidableEq

/-- `TCPServerTunnelConfig`. -/
structure TCPServerTunnelConfig (w : IntSize) where
  listenPort : GoInt w
  target : Text
  deriving DecidableEq

/-- `Socks5Config`. -/
structure Socks5Config where
  bindAddress : Text
  username : Text
  password : Text
  deriving DecidableEq

/-- `HTTPConfig`. -/
structure HTTPConfig where
  bindAddress : Text
  username : Text
  password : Text
  certFile : Text
  keyFile : Text
  deriving DecidableEq

/-- `ResolveConfig`. -/
structure ResolveConfig where
  resolveStrategy : Text
  deriving DecidableEq

/-- The implementations of `RoutineSpawner`. -/
inductive RoutineSpawner (w : IntSize)
  | tcpClientTunnel (config : TCPClientTunnelConfig)
  | stdioTunnel (config : STDIOTunnelConfig)
  | tcpServerTunnel (config : TCPServerTunnelConfig w)
  | socks5 (config : Socks5Config)
  | http (config : HTTPConfig)
  | udpProxyTunnel (config : UDPProxyTunnelConfig w)
  deriving DecidableEq

/-- `Configuration`. -/
structure Configuration (w : IntSize) where
  device : DeviceConfig w
  routines : List (RoutineSpawner w)
  resolve : ResolveConfig
  deriving DecidableEq

end WireProxy.Config
