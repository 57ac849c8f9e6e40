import TcpQuicProxy.Config.RouterConfig
import TcpQuicProxy.Config.Tuning
import TcpQuicProxy.Protocol.ControlFrame
import TcpQuicProxy.Wire.Json

/-!
# Configuration files

The runtime configuration of a process, with the parser and the writer of its
file, and the older router configuration of a client, with another parser and
another writer. An object is read through a table of its keys; the sections
differ in their tables and in what they say about a key that is not there.

A refused file gives its error text, and then nothing of what was read is used,
so a reader that fails has no state to return. The library writes and reads the
text of a document faithfully; what a file holds is the document.
-/

namespace TcpQuicProxy.Config

open Ingress Platform Wire

inductive Mode where
  | client
  | server
  deriving DecidableEq

inductive SpeedTestMode where
  | none
  | download
  | downloadSink
  | upload
  deriving DecidableEq

inductive QuicProfile where
  | maxThroughput
  | lowLatency
  deriving DecidableEq

inductive TraceLevel where
  | info
  | debug
  deriving DecidableEq

/-- `TqConfig`, without the fields that neither a file nor a modelled function reads. -/
structure ProxyConfig where
  mode : Mode
  socksListen : Bytes := ascii "127.0.0.1:1080"
  httpListen : Bytes := ascii "127.0.0.1:8080"
  quicPeer : Bytes := []
  quicPaths : List QuicPathConfig := []
  portForwards : List PortForwardConfig := []
  configPath : Bytes := []
  clientConfigPath : Bytes := []
  adminListen : Bytes := []
  adminTokenFile : Bytes := []
  adminThreads : UInt32 := 2
  router : RouterConfig := {}
  clientName : Bytes := []
  quicListen : Bytes := []
  quicCert : Bytes := []
  quicKey : Bytes := []
  quicCa : Bytes := []
  quicConnections : UInt32 := 1
  quicConnectionStreamCount : UInt32 := 1024
  quicKeepAliveIntervalMs : UInt32 := 5000
  speedTestMode : SpeedTestMode := .none
  speedTestDurationSec : UInt32 := 0
  quicProfile : QuicProfile := .maxThroughput
  quicDisable1RttEncryption : Bool := true
  handshakeThreads : UInt32 := 8
  compress : Bytes := ascii "off"
  compressLevel : Int := 1
  allowTargets : List Bytes := []
  denyTargets : List Bytes := []
  options : Options := {}
  trace : Bool := true
  traceLogLevel : TraceLevel := .info
  traceIntervalSec : UInt32 := 30

/-! ### Reading values -/

def readString : Json → Option Bytes
  | .string value => some value
  | _ => none

def readBool : Json → Option Bool
  | .bool value => some value
  | _ => none

def uint32Limit : Int := 4294967296

def readUint32 : Json → Option UInt32
  | .integer value =>
    if 0 ≤ value ∧ value < uint32Limit then some (UInt32.ofNat value.toNat) else none
  | _ => none

def readUint32InRange (minValue maxValue : UInt32) (value : Json) : Option UInt32 :=
  (readUint32 value).filter fun out => minValue ≤ out && out ≤ maxValue

def readNonZeroUint32 (value : Json) : Option UInt32 := (readUint32 value).filter (· ≠ 0)

/-- An `int` of 32 bits; a number of 64 bits is taken as a signed one first. -/
def readInt : Json → Option Int
  | .integer value =>
    let raw := if 9223372036854775808 ≤ value then value - 18446744073709551616 else value
    if -2147483648 ≤ raw ∧ raw ≤ 2147483647 then some raw else none
  | _ => none

def parseStringList : Json → Option (List Bytes)
  | .string value => some (splitCommaList value)
  | .array items => items.mapM readString
  | _ => none

/-! ### Reading objects -/

section Tables

variable {σ α : Type}

/-- What a member of an object does to the record that is being filled. -/
abbrev Reader (σ : Type) := Json → σ → Except Bytes σ

/-- A value is read, perhaps with an eye on the record, and stored. -/
def into (read : σ → Json → Except Bytes α) (set : α → σ → σ) : Reader σ := fun value s =>
  match read s value with
  | .error err => .error err
  | .ok a => .ok (set a s)

/-- A value of another kind has the given error. -/
def orError (read : Json → Option α) (err : String) : σ → Json → Except Bytes α := fun _ value =>
  match read value with
  | none => .error (ascii err)
  | some a => .ok a

abbrev Table (σ : Type) := List (Bytes × Reader σ)

def key (name : String) (reader : Reader σ) : Bytes × Reader σ := (ascii name, reader)

def readField (table : Table σ) (unknown : Bytes → σ → Except Bytes σ) (name : Bytes) (value : Json)
    (s : σ) :
    Except Bytes σ :=
  match table.lookup name with
  | some reader => reader value s
  | none => unknown name s

/-- Keys that the table does not have are an error. -/
def refuse (what : String) : Bytes → σ → Except Bytes σ := fun name _ => .error (ascii what ++ name)

def ignore : Bytes → σ → Except Bytes σ := fun _ s => .ok s

def readObject (required : String) (table : Table σ) (unknown : Bytes → σ → Except Bytes σ) :
    Reader σ
  | .object members, s => readMembers (readField table unknown) members s
  | _, _ => .error (ascii required)

def readArray (required : String) (item : Json → Except Bytes α) : Json → Except Bytes (List α)
  | .array items => items.mapM item
  | _ => .error (ascii required)

end Tables

/-! ### The runtime configuration -/

def readProfile : Json → Option QuicProfile
  | .string value =>
    if value = ascii "max-throughput" then some .maxThroughput
    else if value = ascii "low-latency" then some .lowLatency
    else none
  | _ => none

def readTuningMode : Json → Option TuningMode
  | .string value =>
    if value = ascii "auto" then some .auto
    else if value = ascii "lan" then some .lan
    else if value = ascii "wan" then some .wan
    else none
  | _ => none

def readTraceLevel : Json → Except Bytes TraceLevel
  | .string value =>
    if value = ascii "info" then .ok .info
    else if value = ascii "debug" then .ok .debug
    else .error (ascii "invalid trace.level (expected info or debug)")
  | _ => .error (ascii "invalid trace.level")

def tlsTable : Table ProxyConfig := [
  key "cert" (into (orError readString "invalid tls.cert") fun v cfg => { cfg with quicCert := v }),
  key "key" (into (orError readString "invalid tls.key") fun v cfg => { cfg with quicKey := v }),
  key "ca" (into (orError readString "invalid tls.ca") fun v cfg => { cfg with quicCa := v })]

def parseTlsConfig : Reader ProxyConfig :=
  readObject "tls must be an object" tlsTable (refuse "unknown tls key: ")

def adminTable : Table ProxyConfig := [
  key "listen"
    (into (orError readString "invalid admin.listen") fun v cfg => { cfg with adminListen := v }),
  key "token_file" (into (orError readString "invalid admin.token_file") fun v cfg =>
    { cfg with adminTokenFile := v }),
  key "threads" (into (orError (readUint32InRange 1 32) "invalid admin.threads")
    fun v cfg => { cfg with adminThreads := v })]

def parseAdminConfig : Reader ProxyConfig :=
  readObject "admin must be an object" adminTable (refuse "unknown admin key: ")

def readEncryptionPolicy (cfg : ProxyConfig) (value : Json) : Except Bytes Unit :=
  if readString value ≠ some (ascii "client-choice") then
    .error (ascii "invalid proto.encryption_policy")
  else if cfg.mode ≠ .server then .error (ascii "proto.encryption_policy is server-only")
  else .ok ()

def readConnections (value : Json) : Option UInt32 := (readUint32 value).filter (· ≤ 128)

def protoTable : Table ProxyConfig := [
  key "profile"
    (into (orError readProfile "invalid proto.profile") fun v cfg => { cfg with quicProfile := v }),
  key "encryption_policy" (into readEncryptionPolicy fun _ cfg => cfg),
  key "disable_1rtt_encryption"
    (into (orError readBool "invalid proto.disable_1rtt_encryption") fun v cfg =>
    if cfg.mode ≠ .server then { cfg with quicDisable1RttEncryption := v } else cfg),
  key "connections" (into (orError readConnections "invalid proto.connections") fun v cfg =>
    { cfg with quicConnections := if v = 0 then 1 else v }),
  key "connection_stream_count"
    (into (orError (readUint32InRange 1 65535) "invalid proto.connection_stream_count")
    fun v cfg => { cfg with quicConnectionStreamCount := v }),
  key "keepalive_ms" (into (orError (readUint32InRange 1000 15000) "invalid proto.keepalive_ms")
    fun v cfg => { cfg with quicKeepAliveIntervalMs := v }),
  key "iw" (into (orError readUint32 "invalid proto.iw")
    fun v cfg => { cfg with options := { cfg.options with overrideQuicIw := v } }),
  key "initrtt_ms" (into (orError readUint32 "invalid proto.initrtt_ms")
    fun v cfg => { cfg with options := { cfg.options with overrideQuicInitRttMs := v } })]

def parseProtoConfig : Reader ProxyConfig :=
  readObject "proto must be an object" protoTable (refuse "unknown proto key: ")

def serverTable : Table ProxyConfig := [
  key "proto_listen"
    (into (orError readString "invalid server.proto_listen") fun v cfg =>
    { cfg with quicListen := v }),
  key "allow_targets" (into (orError parseStringList "invalid server.allow_targets")
    fun v cfg => { cfg with allowTargets := v }),
  key "deny_targets" (into (orError parseStringList "invalid server.deny_targets")
    fun v cfg => { cfg with denyTargets := v })]

def parseServerConfig : Reader ProxyConfig :=
  readObject "server must be an object" serverTable (refuse "unknown server key: ")

def commonRelayTable : Table ProxyConfig := [
  key "read_chunk_size" (into (orError readNonZeroUint32 "invalid relay.common.read_chunk_size")
    fun v cfg => { cfg with options := { cfg.options with overrideRelayReadChunkSize := v } }),
  key "tcp_write_max_bytes"
    (into (orError readNonZeroUint32 "invalid relay.common.tcp_write_max_bytes")
    fun v cfg => { cfg with options := { cfg.options with overrideRelayTcpWriteMaxBytes := v } }),
  key "tcp_write_burst_bytes"
    (into (orError readNonZeroUint32 "invalid relay.common.tcp_write_burst_bytes")
    fun v cfg => { cfg with options := { cfg.options with overrideRelayTcpWriteBurstBytes := v } }),
  key "event_queue_capacity"
    (into (orError (readUint32InRange eventQueueCapacityMin eventQueueCapacityMax)
      "invalid relay.common.event_queue_capacity")
    fun v cfg => { cfg with options := { cfg.options with overrideRelayEventQueueCapacity := v } }),
  key "worker_count" (into (orError (readUint32InRange 1 8) "invalid relay.common.worker_count")
    fun v cfg => { cfg with options := { cfg.options with overrideRelayWorkerCount := v } })]

def linuxRelayTable : Table ProxyConfig := [
  key "read_chunk_size" (into (orError readNonZeroUint32 "invalid relay.linux.read_chunk_size")
    fun v cfg => { cfg with options := { cfg.options with overrideLinuxRelayReadChunkSize := v } }),
  -- deprecated: checked and dropped
  key "worker_slots"
    (into (orError readNonZeroUint32 "invalid relay.linux.worker_slots") fun _ cfg => cfg),
  key "tcp_write_max_bytes"
    (into (orError readNonZeroUint32 "invalid relay.linux.tcp_write_max_bytes")
    fun v cfg =>
      { cfg with options := { cfg.options with overrideLinuxRelayTcpWriteMaxBytes := v } }),
  key "tcp_write_burst_bytes"
    (into (orError readNonZeroUint32 "invalid relay.linux.tcp_write_burst_bytes")
    fun v cfg =>
      { cfg with options := { cfg.options with overrideLinuxRelayTcpWriteBurstBytes := v } }),
  key "event_queue_capacity"
    (into (orError (readUint32InRange eventQueueCapacityMin eventQueueCapacityMax)
      "invalid relay.linux.event_queue_capacity")
    fun v cfg =>
      { cfg with options := { cfg.options with overrideLinuxRelayEventQueueCapacity := v } }),
  key "worker_count" (into (orError readNonZeroUint32 "invalid relay.linux.worker_count")
    fun v cfg => { cfg with options := { cfg.options with overrideLinuxRelayWorkerCount := v } })]

def windowsRelayTable : Table ProxyConfig := [
  key "worker_count" (into (orError readNonZeroUint32 "invalid relay.windows.worker_count")
    fun v cfg => { cfg with options := { cfg.options with overrideWindowsRelayWorkerCount := v } })]

def relayTable : Table ProxyConfig := [
  key "io_size" (into (orError readUint32 "invalid relay.io_size")
    fun v cfg => { cfg with options := { cfg.options with overrideRelayIoSize := v } }),
  key "common" (readObject "relay.common must be an object" commonRelayTable
    (refuse "unknown relay.common key: ")),
  key "linux" (readObject "relay.linux must be an object" linuxRelayTable
    (refuse "unknown relay.linux key: ")),
  key "windows" (readObject "relay.windows must be an object" windowsRelayTable
    (refuse "unknown relay.windows key: "))]

def parseRelayConfig : Reader ProxyConfig :=
  readObject "relay must be an object" relayTable (refuse "unknown relay key: ")

def tuningTable : Table ProxyConfig := [
  key "mode" (into (orError readTuningMode "invalid tuning.mode")
    fun v cfg => { cfg with options := { cfg.options with tuningMode := v } }),
  key "terminal_watchdog_seconds"
    (into (orError (readUint32InRange 5 30) "invalid tuning.terminal_watchdog_seconds")
    fun v cfg => { cfg with options := { cfg.options with overrideTerminalWatchdogSeconds := v } })]

def parseTuningConfig : Reader ProxyConfig :=
  readObject "tuning must be an object" tuningTable (refuse "unknown tuning key: ")

def compressionTable : Table ProxyConfig := [
  key "mode"
    (into (orError (fun value => (readString value).filter isValidCompress)
    "invalid compression.mode")
    fun v cfg => { cfg with compress := v }),
  key "level" (into (orError readInt "invalid compression.level") fun v cfg =>
    { cfg with compressLevel := v })]

def parseCompressionConfig : Reader ProxyConfig :=
  readObject "compression must be an object" compressionTable (refuse "unknown compression key: ")

def traceTable : Table ProxyConfig := [
  key "enabled"
    (into (orError readBool "invalid trace.enabled") fun v cfg => { cfg with trace := v }),
  key "interval_sec" (into (orError readUint32 "invalid trace.interval_sec")
    fun v cfg => { cfg with traceIntervalSec := v, trace := true }),
  key "level" (into (fun _ => readTraceLevel) fun v cfg => { cfg with traceLogLevel := v })]

def parseTraceConfig : Reader ProxyConfig :=
  readObject "trace must be an object" traceTable (refuse "unknown trace key: ")

/-- A second speed test is refused. `SpeedTestMode` is set exactly when
`speedTestSpecified` is. -/
def readSpeedTest (name : String) (cfg : ProxyConfig) (value : Json) : Except Bytes UInt32 :=
  if cfg.speedTestMode ≠ .none then .error (ascii "speed-test options are mutually exclusive")
  else orError (readUint32InRange 1 86400) ("invalid " ++ name) cfg value

def parseSpeedTest (mode : SpeedTestMode) (name : String) : Reader ProxyConfig :=
  into (readSpeedTest name) fun v cfg =>
    { cfg with speedTestDurationSec := v, speedTestMode := mode }

def clientTable : Table ProxyConfig := [
  key "download_test" (parseSpeedTest .download "client.download_test"),
  key "download_sink_test" (parseSpeedTest .downloadSink "client.download_sink_test"),
  key "upload_test" (parseSpeedTest .upload "client.upload_test"),
  key "handshake_threads" (into (orError readUint32 "invalid client.handshake_threads")
    fun v cfg => { cfg with handshakeThreads := v }),
  key "client_name" (into (orError (fun value => (readString value).filter fun name =>
      name.isEmpty || Protocol.isValidClientName name) "invalid client.client_name")
    fun v cfg => { cfg with clientName := v })]

def parseClientConfig : Reader ProxyConfig :=
  readObject "client must be an object" clientTable (refuse "unknown client key: ")

/-! ### Peers -/

def pathTable : Table QuicPathConfig := [
  key "name" (into (orError readString "invalid path.name") fun v path => { path with name := v }),
  key "local"
    (into (orError readString "invalid path.local") fun v path => { path with localAddress := v }),
  key "peer" (into (orError readString "invalid path.peer") fun v path => { path with peer := v }),
  key "connections" (into (orError readUint32 "invalid path.connections") fun v path =>
    { path with connections := v })]

/-- The members that must be there. -/
def hasKeys (names : List String) (members : Members) : Bool :=
  names.all fun name => (members.lookup (ascii name)).isSome

def parseQuicPathObject : Json → Except Bytes QuicPathConfig
  | .object members =>
    if members.isEmpty then .error (ascii "path fields are required")
    else
      match readMembers (readField pathTable (refuse "unknown path key: ")) members {} with
      | .error err => .error err
      | .ok path =>
        if hasKeys ["name", "local", "peer", "connections"] members then .ok path
        else .error (ascii "path name, local, peer and connections are required")
  | _ => .error (ascii "path must be an object")

def parseQuicPaths : Json → Except Bytes (List QuicPathConfig) :=
  readArray "paths must be an array" parseQuicPathObject

def forwardTable : Table PortForwardConfig := [
  key "listen" (into
    (orError (fun value => (readString value).filter isHostPort) "invalid port_forward.listen")
    fun v forward => { forward with listen := v }),
  key "target"
    (into (orError (fun value => (readString value).bind splitHostPortValue)
    "invalid port_forward.target")
    fun v forward => { forward with targetHost := v.1, targetPort := v.2 })]

def parsePortForwardObject : Json → Except Bytes PortForwardConfig
  | .object members =>
    if members.isEmpty then .error (ascii "port_forward listen and target are required")
    else
      match readMembers (readField forwardTable (refuse "unknown port_forward key: "))
        members {} with
      | .error err => .error err
      | .ok forward =>
        if hasKeys ["listen", "target"] members then .ok forward
        else .error (ascii "port_forward listen and target are required")
  | _ => .error (ascii "port_forward must be an object")

def parsePortForwards : Json → Except Bytes (List PortForwardConfig) :=
  readArray "port_forwards must be an array" parsePortForwardObject

/-- The two files name three fields of a peer differently. -/
structure PeerShape where
  id : String
  peer : String
  connections : String
  /-- How an error names the fields of a peer. -/
  field : String → String

def runtimeShape : PeerShape :=
  ⟨"id", "proto_peer", "proto_connections", fun name => "peer." ++ name⟩

def routerShape : PeerShape := ⟨"peer_id", "quic_peer", "quic_connections", fun name => name⟩

def PeerShape.table (shape : PeerShape) : Table PeerConfig := [
  key shape.id (into (orError readString ("invalid " ++ shape.field shape.id)) fun v peer =>
    { peer with peerId := v }),
  key "client_name" (fun _ _ => .error (ascii "unknown peer key: client_name")),
  key shape.peer (into (orError readString ("invalid " ++ shape.field shape.peer))
    fun v peer => { peer with quicPeer := v }),
  key "socks_listen" (into (orError readString ("invalid " ++ shape.field "socks_listen"))
    fun v peer => { peer with socksListen := v }),
  key "http_listen" (into (orError readString ("invalid " ++ shape.field "http_listen"))
    fun v peer => { peer with httpListen := v }),
  key "port_forwards"
    (into (fun _ => parsePortForwards) fun v peer => { peer with portForwards := v }),
  key "paths" (into (fun _ => parseQuicPaths) fun v peer => { peer with quicPaths := v }),
  key shape.connections (into (orError readUint32 ("invalid " ++ shape.field shape.connections))
    fun v peer => { peer with quicConnections := v }),
  key "compress" (into (orError readString ("invalid " ++ shape.field "compress"))
    fun v peer => { peer with compress := v }),
  key "enabled" (into (orError readBool ("invalid " ++ shape.field "enabled")) fun v peer =>
    { peer with enabled := v })]

def parsePeerObject (shape : PeerShape) (extra : Table PeerConfig)
    (unknown : Bytes → PeerConfig → Except Bytes PeerConfig) :
    Json → Except Bytes PeerConfig
  | .object members =>
    match readMembers (readField (shape.table ++ extra) unknown) members {} with
    | .error err => .error err
    | .ok peer =>
      if hasKeys [shape.connections] members && peer.quicConnections = 0 then
        .error (ascii (shape.field shape.connections ++ " out of range"))
      else .ok peer
  | _ => .error (ascii "peer must be an object")

def parseRuntimePeer : Json → Except Bytes PeerConfig :=
  parsePeerObject runtimeShape [] (refuse "unknown peer key: ")

/-- The router file lets unknown keys pass, except for one that it once had. -/
def parsePeer : Json → Except Bytes PeerConfig :=
  parsePeerObject routerShape
    [key "quic_reconnect_interval_ms" fun _ _ =>
      .error (ascii "unknown peer key: quic_reconnect_interval_ms")] ignore

def parsePeers (peer : Json → Except Bytes PeerConfig) : Json → Except Bytes (List PeerConfig) :=
  readArray "peers must be an array" peer

def runtimeTable : Table ProxyConfig := [
  key "tls" parseTlsConfig,
  key "admin" parseAdminConfig,
  key "proto" parseProtoConfig,
  key "server" parseServerConfig,
  key "relay" parseRelayConfig,
  key "tuning" parseTuningConfig,
  key "compression" parseCompressionConfig,
  key "trace" parseTraceConfig,
  key "client" parseClientConfig,
  key "peers" (into (fun _ => parsePeers parseRuntimePeer)
    fun v cfg => { cfg with router := { cfg.router with peers := v } })]

/-! ### Proxy users and the router configuration -/

def userTable : Table ProxyAuthUser := [
  key "username" (into (orError readString "invalid proxy_auth.username") fun v user =>
    { user with username := v }),
  key "password" (into (orError readString "invalid proxy_auth.password") fun v user =>
    { user with password := v })]

def parseProxyAuthUser (value : Json) : Except Bytes ProxyAuthUser :=
  readObject "proxy_auth entry must be an object" userTable (refuse "unknown proxy_auth key: ")
    value ⟨[], []⟩

def parseProxyAuth : Json → Except Bytes (List ProxyAuthUser) :=
  readArray "proxy_auth must be an array" parseProxyAuthUser

def routerTable : Table RouterConfig := [
  key "version"
    (into (orError readUint32 "invalid version") fun v router => { router with version := v }),
  key "peers" (into (fun _ => parsePeers parsePeer) fun v router => { router with peers := v }),
  key "proxy_auth" (into (fun _ => parseProxyAuth) fun v router => { router with proxyAuth := v })]

/-! ### Files -/

/-- What a path leads to, apart from there being nothing. -/
inductive FileBody where
  | unreadable
  /-- Nothing but white space. -/
  | blank
  | malformed
  | document (root : Json)

/-- The files of the process, by path. -/
abbrev Files := Bytes → Option FileBody

def parseRouter : FileBody → Except Bytes RouterConfig
  | .document (.object members) =>
    match readMembers (readField routerTable ignore) members {} with
    | .error err => .error err
    | .ok router =>
      match validateRouterConfig router with
      | .error err => .error err
      | .ok () => .ok router
  | .document _ => .error (ascii "client config must be a JSON object")
  | _ => .error (ascii "malformed client config object")

/-- The error that makes a client try the file as a router configuration. -/
def versionError : Bytes := ascii "unknown config key: version"

def parseRuntimeConfig (body : FileBody) (cfg : ProxyConfig) : Except Bytes ProxyConfig :=
  match body with
  | .document (.object members) =>
    if (members.lookup (ascii "version")).isSome then .error versionError
    else readMembers (readField runtimeTable (refuse "unknown config key: ")) members cfg
  | .document _ => .error (ascii "config must be a JSON object")
  | _ => .error (ascii "malformed config object")

/-- The configuration and whether the file was a router configuration. -/
def loadRuntimeConfigFile (path : Bytes) (body : FileBody) (cfg : ProxyConfig) :
    Except Bytes (ProxyConfig × Bool) :=
  match body with
  | .unreadable => .error (ascii "failed to open config: " ++ path)
  | _ =>
    match parseRuntimeConfig body cfg with
    | .ok cfg => .ok (cfg, false)
    | .error runtimeErr =>
      if cfg.mode = .client ∧ runtimeErr = versionError then
        match parseRouter body with
        | .ok router => .ok ({ cfg with router := router }, true)
        | .error _ => .error runtimeErr
      else .error runtimeErr

def loadClientConfig (path : Bytes) : Option FileBody → Except Bytes RouterConfig
  | none => .ok {}
  | some .unreadable => .error (ascii "failed to open client config: " ++ path)
  | some .blank => .ok {}
  | some body => parseRouter body

/-! ### Writing -/

def text (s : String) : Json := .string (ascii s)

def number (n : UInt32) : Json := .integer n.toNat

def member (name : String) (value : Json) : Bytes × Json := (ascii name, value)

/-- A member that is written only for some values. -/
def memberIf (cond : Bool) (name : String) (value : Json) : Members :=
  if cond then [member name value] else []

def stringArrayJson (values : List Bytes) : Json := .array (values.map .string)

def portForwardTargetText (forward : PortForwardConfig) : Bytes :=
  let bracketed := 2 ≤ forward.targetHost.length && forward.targetHost.head? = some openBracket &&
    forward.targetHost.getLast? = some closeBracket
  let ipv6 := forward.targetHost.contains Ingress.colon && !bracketed
  (if ipv6 then openBracket :: forward.targetHost ++ [closeBracket] else forward.targetHost) ++
    Ingress.colon :: decimalText forward.targetPort.toNat

def portForwardsJson (targetText : PortForwardConfig → Bytes)
    (forwards : List PortForwardConfig) : Json :=
  .array (forwards.map fun forward =>
    Json.ofList
      [member "listen" (.string forward.listen), member "target" (.string (targetText forward))])

def quicPathsJson (paths : List QuicPathConfig) : Json :=
  .array (paths.map fun path => Json.ofList [
    member "name" (.string path.name),
    member "local" (.string path.localAddress),
    member "peer" (.string path.peer),
    member "connections" (number path.connections)])

/-- A peer as either file has it. -/
def peerJson (shape : PeerShape) (targetText : PortForwardConfig → Bytes)
    (peer : PeerConfig) : Json :=
  Json.ofList ([
    member shape.id (.string peer.peerId),
    member shape.peer (.string peer.quicPeer),
    member "socks_listen" (.string peer.socksListen),
    member "http_listen" (.string peer.httpListen),
    member "port_forwards" (portForwardsJson targetText peer.portForwards),
    member "paths" (quicPathsJson peer.quicPaths),
    member "compress" (.string peer.compress),
    member "enabled" (.bool peer.enabled)] ++
    memberIf (peer.quicConnections ≠ 0) shape.connections (number peer.quicConnections))

def runtimePeerJson : PeerConfig → Json := peerJson runtimeShape portForwardTargetText

def primaryPeerFromConfig (cfg : ProxyConfig) : PeerConfig where
  peerId := ascii "primary"
  enabled := true
  quicPeer := cfg.quicPeer
  quicPaths := cfg.quicPaths
  socksListen := cfg.socksListen
  httpListen := cfg.httpListen
  portForwards := cfg.portForwards
  quicConnections := cfg.quicConnections
  compress := cfg.compress

def runtimePeersJson (cfg : ProxyConfig) : List Json :=
  (if cfg.router.peers.isEmpty &&
    (!cfg.quicPeer.isEmpty || !cfg.quicPaths.isEmpty) then [primaryPeerFromConfig cfg]
    else cfg.router.peers).map runtimePeerJson

def QuicProfile.name : QuicProfile → String
  | .maxThroughput => "max-throughput"
  | .lowLatency => "low-latency"

def TuningMode.name : TuningMode → String
  | .auto => "auto"
  | .lan => "lan"
  | .wan => "wan"

def TraceLevel.name : TraceLevel → String
  | .info => "info"
  | .debug => "debug"

def adminMembers (cfg : ProxyConfig) : Members :=
  memberIf (!cfg.adminListen.isEmpty) "listen" (.string cfg.adminListen) ++
  memberIf (!cfg.adminTokenFile.isEmpty) "token_file" (.string cfg.adminTokenFile) ++
  [member "threads" (number cfg.adminThreads)]

def tlsMembers (cfg : ProxyConfig) : Members :=
  memberIf (!cfg.quicCert.isEmpty) "cert" (.string cfg.quicCert) ++
  memberIf (!cfg.quicKey.isEmpty) "key" (.string cfg.quicKey) ++
  memberIf (!cfg.quicCa.isEmpty) "ca" (.string cfg.quicCa)

/-- A number that is written when it is not zero. -/
def override (name : String) (value : UInt32) : Members := memberIf (value ≠ 0) name (number value)

def relayMembers (o : Options) : Members :=
  let common :=
    override "read_chunk_size" o.overrideRelayReadChunkSize ++
    override "tcp_write_max_bytes" o.overrideRelayTcpWriteMaxBytes ++
    override "tcp_write_burst_bytes" o.overrideRelayTcpWriteBurstBytes ++
    override "event_queue_capacity" o.overrideRelayEventQueueCapacity ++
    override "worker_count" o.overrideRelayWorkerCount
  let linux :=
    override "read_chunk_size" o.overrideLinuxRelayReadChunkSize ++
    override "tcp_write_max_bytes" o.overrideLinuxRelayTcpWriteMaxBytes ++
    override "tcp_write_burst_bytes" o.overrideLinuxRelayTcpWriteBurstBytes ++
    override "event_queue_capacity" o.overrideLinuxRelayEventQueueCapacity ++
    override "worker_count" o.overrideLinuxRelayWorkerCount
  let windows := override "worker_count" o.overrideWindowsRelayWorkerCount
  override "io_size" o.overrideRelayIoSize ++
    memberIf (!common.isEmpty) "common" (.ofList common) ++
    memberIf (!linux.isEmpty) "linux" (.ofList linux) ++
    memberIf (!windows.isEmpty) "windows" (.ofList windows)

def protoMembers (cfg : ProxyConfig) : Members :=
  [member "profile" (text cfg.quicProfile.name),
   member "connection_stream_count" (number cfg.quicConnectionStreamCount),
   member "keepalive_ms" (number cfg.quicKeepAliveIntervalMs)] ++
  (match cfg.mode with
    | .client => [member "disable_1rtt_encryption" (.bool cfg.quicDisable1RttEncryption),
        member "connections" (number cfg.quicConnections)]
    | .server => [member "encryption_policy" (text "client-choice")]) ++
  override "iw" cfg.options.overrideQuicIw ++
  override "initrtt_ms" cfg.options.overrideQuicInitRttMs

def roleMembers (cfg : ProxyConfig) : Members :=
  match cfg.mode with
  | .client =>
    let peers := runtimePeersJson cfg
    member "client" (Json.ofList [member "client_name" (.string cfg.clientName)]) ::
      memberIf (!peers.isEmpty) "peers" (.array peers)
  | .server =>
    [member "server" (Json.ofList [
      member "proto_listen" (.string cfg.quicListen),
      member "allow_targets" (stringArrayJson cfg.allowTargets),
      member "deny_targets" (stringArrayJson cfg.denyTargets)])]

/-- `RuntimeConfigJson`. -/
def runtimeConfigMembers (cfg : ProxyConfig) : Members :=
  let relay := relayMembers cfg.options
  [member "tls" (.ofList (tlsMembers cfg))] ++
  memberIf (!cfg.adminListen.isEmpty || !cfg.adminTokenFile.isEmpty || cfg.adminThreads ≠ 2) "admin"
    (.ofList (adminMembers cfg)) ++
  [member "proto" (.ofList (protoMembers cfg)),
   member "compression"
     (Json.ofList
     [member "mode" (.string cfg.compress), member "level" (.integer cfg.compressLevel)]),
   member "tuning" (.ofList (member "mode" (text cfg.options.tuningMode.name) ::
     override "terminal_watchdog_seconds" cfg.options.overrideTerminalWatchdogSeconds))] ++
  memberIf (!relay.isEmpty) "relay" (.ofList relay) ++
  [member "trace" (Json.ofList [
    member "enabled" (.bool cfg.trace),
    member "interval_sec" (number cfg.traceIntervalSec),
    member "level" (text cfg.traceLogLevel.name)])] ++
  roleMembers cfg

def runtimeConfigJson (cfg : ProxyConfig) : Json := .ofList (runtimeConfigMembers cfg)

/-- `RouterConfigJson`. -/
def routerConfigJson (targetText : PortForwardConfig → Bytes) (router : RouterConfig) : Json :=
  Json.ofList [
    member "version" (number router.version),
    member "peers" (.array (router.peers.map (peerJson routerShape targetText)))]

end TcpQuicProxy.Config
