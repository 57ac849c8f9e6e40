import Mathlib.Data.Nat.Bitwise
import TcpQuicProxy.Config.Startup

/-!
# The router of a client and its peer runtimes

The router keeps the configuration of the peers and a table of the peers that it
has started; the manager keeps a table of the runtimes themselves. Requests of
the admin interface change the configuration, and `applyConfig` goes through the
peers, stops and starts what differs, stops what is no longer there and writes
the files. A request whose body cannot be read never gets here.

A peer that is started is recorded under its own name, which the type of the
table says. Of the runtimes, the number of their connections and the
configuration of their session are kept; of the metrics, which peers have any.
`StopAccepting` and `AbortPeerTunnels` come before `DrainPeer` wherever the
router stops a peer and change nothing that is modelled here.
-/

namespace TcpQuicProxy.Router

open Platform Wire Config

/-- What the outside decides about one request. -/
structure Io where
  ingressOk : Bool := true
  /-- The error of the start of a peer's runtime, if it fails. -/
  startError : Bytes → Option Bytes := fun _ => none
  /-- The error of the slots for another number of connections. -/
  slotPathsError : Option Bytes := none
  writeConfigOk : Bool := true
  writeClientConfigOk : Bool := true

/-! ### Runtimes -/

structure PeerRuntime where
  config : ProxyConfig
  slots : Nat

/-- The session with another number of slots. -/
def PeerRuntime.resize (runtime : PeerRuntime) (slots : Nat) : PeerRuntime :=
  ⟨{ runtime.config with quicConnections := UInt32.ofNat slots }, slots⟩

abbrev Manager := Bytes → Option PeerRuntime

def makePeerRuntimeConfig (base : ProxyConfig) (peer : PeerConfig) : ProxyConfig :=
  { base with
    clientConfigPath := []
    adminListen := []
    quicPeer := peer.quicPeer
    quicPaths := peer.quicPaths
    socksListen := peer.socksListen
    httpListen := peer.httpListen
    portForwards := peer.portForwards
    quicConnections :=
      if peer.quicConnections = 0 then base.quicConnections else peer.quicConnections
    compress := if peer.compress.isEmpty then base.compress else peer.compress }

/-- The slots of a session: those of its paths, or as many as it has connections. -/
def slotCount (cfg : ProxyConfig) : Nat :=
  if cfg.quicPaths.isEmpty then cfg.quicConnections.toNat
  else Machine.total (fun path => path.connections.toNat) cfg.quicPaths

/-- `QuicClientSession::Start` sets the number of connections to that of the slots. -/
def startRuntime (base : ProxyConfig) (peer : PeerConfig) : PeerRuntime :=
  let cfg := makePeerRuntimeConfig base peer
  ⟨{ cfg with quicConnections := UInt32.ofNat (slotCount cfg) }, slotCount cfg⟩

namespace Manager

def startPeer (io : Io) (base : ProxyConfig) (m : Manager) (peer : PeerConfig) :
    Except Bytes Manager :=
  if !peer.enabled then .error (ascii "peer is disabled: " ++ peer.peerId)
  else if !io.ingressOk then .error (ascii "failed to start client ingress reactor")
  else if (m peer.peerId).isSome then .error (ascii "peer already running: " ++ peer.peerId)
  else
    match io.startError peer.peerId with
    | some err => .error err
    | none => .ok (Function.update m peer.peerId (some (startRuntime base peer)))

def drainPeer (m : Manager) (peerId : Bytes) : Manager := Function.update m peerId none

/-- The number of a peer's live connections. -/
def liveConnections (m : Manager) (peerId : Bytes) : Nat := (m peerId).elim 0 PeerRuntime.slots

def setDesiredConnectionCount (io : Io) (m : Manager) (peerId : Bytes) (desired : UInt32) :
    Except Bytes Manager :=
  match m peerId with
  | none => .error (ascii "not found")
  | some runtime =>
    if desired = 0 then .error (ascii "desired connection count must be greater than zero")
    else if !runtime.config.quicPaths.isEmpty then
      .error (ascii "path-mode uses fixed connection slots")
    else if desired.toNat < runtime.slots then .error (ascii "use StopHighestConnection to shrink")
    else
      match io.slotPathsError with
      | some err => .error err
      | none => .ok (Function.update m peerId (some (runtime.resize desired.toNat)))

def connectionIdStem : Bytes := ascii "conn-"

/-- The digits are read into a `size_t`. -/
def parseIndex : Nat → Bytes → Option Nat
  | parsed, [] => some parsed
  | parsed, ch :: rest =>
    if !Config.isDigit ch then none
    else parseIndex ((parsed * 10 + (ch - 0x30).toNat) % 2 ^ 64) rest

def parseConnectionId (connectionId : Bytes) : Option Nat :=
  if connectionIdStem.isPrefixOf connectionId && connectionId.length ≠ connectionIdStem.length then
    parseIndex 0 (connectionId.drop connectionIdStem.length)
  else none

def stopHighestConnection (m : Manager) (peerId connectionId : Bytes) : Except Bytes Manager :=
  match m peerId with
  | none => .error (ascii "not found")
  | some runtime =>
    if !runtime.config.quicPaths.isEmpty then .error (ascii "path-mode uses fixed connection slots")
    else
      match parseConnectionId connectionId with
      | none => .error (ascii "invalid connection id")
      | some index =>
        if runtime.slots = 0 then .error (ascii "session is not running")
        else if index ≠ runtime.slots - 1 then
          .error (ascii "only highest connection slot can be removed")
        else .ok (Function.update m peerId (some (runtime.resize (runtime.slots - 1))))

end Manager

/-! ### The router -/

/-- The peers that the router has started, each under its name. -/
abbrev RunningPeers := (peerId : Bytes) → Option { peer : PeerConfig // peer.peerId = peerId }

def recordOf (peer : PeerConfig) : { recorded : PeerConfig // recorded.peerId = peer.peerId } :=
  ⟨peer, rfl⟩

structure RouterRuntime where
  base : ProxyConfig
  runtimeConfig : ProxyConfig
  config : RouterConfig
  metrics : List Bytes
  running : RunningPeers
  manager : Manager
  files : Files

/-- A router that has not applied anything yet. -/
def RouterRuntime.new (cfg : ProxyConfig) (files : Files) : RouterRuntime :=
  ⟨cfg, cfg, cfg.router, [], fun _ => none, fun _ => none, files⟩

def peerDataPlaneChanged (a b : PeerConfig) : Bool :=
  a.quicPeer ≠ b.quicPeer || a.socksListen ≠ b.socksListen || a.httpListen ≠ b.httpListen ||
    a.portForwards ≠ b.portForwards || a.quicPaths ≠ b.quicPaths ||
      a.quicConnections ≠ b.quicConnections ||
    a.compress ≠ b.compress

/-! ### Files -/

def routerTargetText (forward : PortForwardConfig) : Bytes :=
  (if forward.targetHost.contains Ingress.colon then
    Ingress.openBracket :: forward.targetHost ++ [Ingress.closeBracket]
    else forward.targetHost) ++ Ingress.colon :: decimalText forward.targetPort.toNat

def runtimePeersValue (config : RouterConfig) : Json :=
  .array (config.peers.map (peerJson runtimeShape routerTargetText))

def clientRuntimeConfigMembers (runtimeConfig : ProxyConfig) (config : RouterConfig) : Members :=
  [member "tls" (.ofList (tlsMembers runtimeConfig))] ++
  memberIf (!runtimeConfig.adminListen.isEmpty || !runtimeConfig.adminTokenFile.isEmpty ||
    runtimeConfig.adminThreads ≠ 2)
    "admin" (.ofList (adminMembers runtimeConfig)) ++
  [member "client" (Json.ofList [member "client_name" (.string runtimeConfig.clientName)]),
   member "proto" (Json.ofList [
     member "profile" (text runtimeConfig.quicProfile.name),
     member "disable_1rtt_encryption" (.bool runtimeConfig.quicDisable1RttEncryption),
     member "connection_stream_count" (number runtimeConfig.quicConnectionStreamCount),
     member "keepalive_ms" (number runtimeConfig.quicKeepAliveIntervalMs),
     member "connections" (number runtimeConfig.quicConnections)]),
   member "compression" (Json.ofList [
     member "mode" (.string runtimeConfig.compress),
       member "level" (.integer runtimeConfig.compressLevel)]),
   member "peers" (runtimePeersValue config)]

/-- `WriteRuntimeConfigPeers`: the peers of a document are replaced, anything
else makes way for a new document. -/
def configWithPeers (runtimeConfig : ProxyConfig) (config : RouterConfig) :
    Option FileBody → FileBody
  | some (.document (.object root)) =>
    .document (.object (Members.set (ascii "peers") (runtimePeersValue config) root))
  | _ => .document (.ofList (clientRuntimeConfigMembers runtimeConfig config))

/-- What a request answers and what it leaves. -/
abbrev Reply := Except Bytes Unit × RouterRuntime

def writeError : Bytes := ascii "failed to publish client config file: "

namespace RouterRuntime

def writeFile (s : RouterRuntime) (path : Bytes) (body : FileBody) (writeOk : Bool) : Reply :=
  if path.isEmpty then (.ok (), s)
  else if writeOk then (.ok (), { s with files := Function.update s.files path (some body) })
  else (.error writeError, s)

def persistConfig (io : Io) (s : RouterRuntime) : Reply :=
  if s.runtimeConfig.mode ≠ .client then (.ok (), s)
  else
    match s.writeFile s.runtimeConfig.configPath
        (configWithPeers s.runtimeConfig s.config (s.files s.runtimeConfig.configPath))
        io.writeConfigOk with
    | (.error err, s) => (.error err, s)
    | (.ok (), s) =>
      s.writeFile s.runtimeConfig.clientConfigPath
        (.document (routerConfigJson routerTargetText s.config))
        io.writeClientConfigOk

/-! ### Applying a configuration -/

def stopPeer (s : RouterRuntime) (peerId : Bytes) : RouterRuntime :=
  match s.running peerId with
  | none => s
  | some peer =>
    { s with
      manager := s.manager.drainPeer peer.val.peerId
      running := Function.update s.running peerId none }

def startPeer (io : Io) (s : RouterRuntime) (peer : PeerConfig) : RouterRuntime :=
  match s.manager.startPeer io s.base peer with
  | .error _ => s
  | .ok manager =>
    { s with
      manager := manager, running := Function.update s.running peer.peerId (some (recordOf peer)) }

def noteMetrics (s : RouterRuntime) (peerId : Bytes) : RouterRuntime :=
  if s.metrics.contains peerId then s else { s with metrics := s.metrics ++ [peerId] }

def isNewPeer (s : RouterRuntime) (peer : PeerConfig) : Bool := (s.running peer.peerId).isNone

def isChangedPeer (s : RouterRuntime) (peer : PeerConfig) : Bool :=
  (s.running peer.peerId).any fun recorded => peerDataPlaneChanged recorded.val peer

def applyPeer (io : Io) (s : RouterRuntime) (peer : PeerConfig) : RouterRuntime :=
  let stopped := if !s.isNewPeer peer &&
    (!peer.enabled || s.isChangedPeer peer) then s.stopPeer peer.peerId else s
  let started := if peer.enabled &&
    (s.isNewPeer peer || s.isChangedPeer peer) then stopped.startPeer io peer else stopped
  started.noteMetrics peer.peerId

def peerIds (config : RouterConfig) : List Bytes := config.peers.map PeerConfig.peerId

/-- The peers that have metrics and are not in the configuration are stopped. -/
def dropAbsent (config : RouterConfig) (s : RouterRuntime) : RouterRuntime :=
  (s.metrics.filter fun peerId => !(peerIds config).contains peerId).foldl stopPeer s

def applyPeers (io : Io) (s : RouterRuntime) (config : RouterConfig) : RouterRuntime :=
  { (config.peers.foldl (applyPeer io) s).dropAbsent config with config := config }

def applyConfig (io : Io) (s : RouterRuntime) (config : RouterConfig) : Reply :=
  match validateRouterConfig config with
  | .error err => (.error err, s)
  | .ok () => (s.applyPeers io config).persistConfig io

end RouterRuntime

/-! ### Requests -/

structure PeerPatch where
  quicPeer : Option Bytes := none
  socksListen : Option Bytes := none
  httpListen : Option Bytes := none
  portForwards : Option (List PortForwardConfig) := none
  quicPaths : Option (List QuicPathConfig) := none
  quicConnections : Option UInt32 := none
  compress : Option Bytes := none
  enabled : Option Bool := none

def PeerPatch.applyTo (patch : PeerPatch) (peer : PeerConfig) : PeerConfig :=
  { peer with
    quicPeer := patch.quicPeer.getD peer.quicPeer
    socksListen := patch.socksListen.getD peer.socksListen
    httpListen := patch.httpListen.getD peer.httpListen
    portForwards := patch.portForwards.getD peer.portForwards
    quicPaths := patch.quicPaths.getD peer.quicPaths
    quicConnections := patch.quicConnections.getD peer.quicConnections
    compress := patch.compress.getD peer.compress
    enabled := patch.enabled.getD peer.enabled }

/-- The requests that lead to another configuration. -/
inductive Edit where
  | replaceConfig (config : RouterConfig)
  | create (peer : PeerConfig)
  | replace (peerId : Bytes) (peer : PeerConfig)
  | patch (peerId : Bytes) (fields : PeerPatch)
  | delete (peerId mode : Bytes)
  | enable (peerId : Bytes)
  | disable (peerId : Bytes)

inductive Request where
  | edit (e : Edit)
  | drain (peerId : Bytes)
  | abortTunnels (peerId : Bytes)
  | addConnection (peerId : Bytes)
  | deleteConnection (peerId connectionId : Bytes)

/-- The first peer of the name, with a change. -/
def updatePeer (peerId : Bytes) (change : PeerConfig → PeerConfig) :
    List PeerConfig → Option (List PeerConfig)
  | [] => none
  | peer :: peers =>
    if peer.peerId = peerId then some (change peer :: peers)
    else (updatePeer peerId change peers).map (peer :: ·)

def findPeerConfig (config : RouterConfig) (peerId : Bytes) : Option PeerConfig :=
  config.peers.find? fun peer => peer.peerId = peerId

def changePeer (config : RouterConfig) (peerId : Bytes) (change : PeerConfig → PeerConfig) :
    Except Bytes RouterConfig :=
  match updatePeer peerId change config.peers with
  | none => .error (ascii "not found")
  | some peers => .ok { config with peers := peers }

def deleteModeAllowsEnabledPeer (mode : Bytes) : Bool :=
  mode = ascii "drain" || mode = ascii "abort"

/-- The configuration that a request asks for. -/
def Edit.result (config : RouterConfig) : Edit → Except Bytes RouterConfig
  | .replaceConfig config => .ok config
  | .create peer =>
    if (findPeerConfig config peer.peerId).isSome then .error (ascii "peer already exists")
    else .ok { config with peers := config.peers ++ [peer] }
  | .replace peerId peer =>
    if peer.peerId ≠ peerId then .error (ascii "peer_id does not match path")
    else changePeer config peerId fun _ => peer
  | .patch peerId fields => changePeer config peerId fields.applyTo
  | .delete peerId mode =>
    match findPeerConfig config peerId with
    | none => .error (ascii "not found")
    | some peer =>
      if peer.enabled && !deleteModeAllowsEnabledPeer mode then
        .error (ascii "delete enabled peer requires mode drain or abort")
      else .ok { config with peers := config.peers.eraseP fun peer => peer.peerId = peerId }
  | .enable peerId => changePeer config peerId fun peer => { peer with enabled := true }
  | .disable peerId => changePeer config peerId fun peer => { peer with enabled := false }

def kMaxQuicConnections : UInt32 := 128

namespace RouterRuntime

/-- The number of connections that a request counts from. -/
def currentConnections (s : RouterRuntime) (peer : PeerConfig) : UInt32 :=
  let live := s.manager.liveConnections peer.peerId
  if live ≠ 0 || peer.quicConnections = 0 then UInt32.ofNat live else peer.quicConnections

/-- `UpdatePeerConnectionCount` and the same for the peer that is recorded. -/
def setConnections (s : RouterRuntime) (peerId : Bytes) (desired : UInt32) : Option RouterRuntime :=
  (updatePeer peerId (fun peer => { peer with quicConnections := desired })
    s.config.peers).map fun peers =>
    { s with
      config := { s.config with peers := peers }
      running := Function.update s.running peerId
        ((s.running peerId).map fun peer =>
          ⟨{ peer.val with quicConnections := desired }, peer.property⟩) }

/-- What follows when the manager has changed the number of connections. -/
def recordConnections (io : Io) (s : RouterRuntime) (peerId : Bytes) (desired : UInt32) : Reply :=
  match s.setConnections peerId desired with
  | none => (.error (ascii "not found"), s)
  | some s' => s'.persistConfig io

def addConnection (io : Io) (s : RouterRuntime) (peerId : Bytes) : Reply :=
  match findPeerConfig s.config peerId with
  | none => (.error (ascii "not found"), s)
  | some peer =>
    let current := s.currentConnections peer
    if kMaxQuicConnections ≤ current then (.error (ascii "quic_connections out of range"), s)
    else
      match s.manager.setDesiredConnectionCount io peerId (current + 1) with
      | .error err => (.error err, s)
      | .ok manager => { s with manager := manager }.recordConnections io peerId (current + 1)

def deleteConnection (io : Io) (s : RouterRuntime) (peerId connectionId : Bytes) : Reply :=
  match findPeerConfig s.config peerId with
  | none => (.error (ascii "not found"), s)
  | some peer =>
    let current := s.currentConnections peer
    if current ≤ 1 then (.error (ascii "cannot delete the last connection"), s)
    else
      match s.manager.stopHighestConnection peerId connectionId with
      | .error err => (.error err, s)
      | .ok manager => { s with manager := manager }.recordConnections io peerId (current - 1)

/-- A request on a peer that has metrics. -/
def withPeer (s : RouterRuntime) (peerId : Bytes) (change : RouterRuntime → RouterRuntime) :
    Reply :=
  if s.metrics.contains peerId then (.ok (), change s) else (.error (ascii "not found"), s)

def handle (io : Io) (s : RouterRuntime) : Request → Reply
  | .edit e =>
    match e.result s.config with
    | .error err => (.error err, s)
    | .ok config => s.applyConfig io config
  | .drain peerId => s.withPeer peerId fun s => { s with manager := s.manager.drainPeer peerId }
  | .abortTunnels peerId => s.withPeer peerId id
  | .addConnection peerId => s.addConnection io peerId
  | .deleteConnection peerId connectionId => s.deleteConnection io peerId connectionId

/-- A request of a run, whatever it is answered. -/
def step (s : RouterRuntime) (action : Io × Request) : Option RouterRuntime :=
  some (s.handle action.1 action.2).2

end RouterRuntime
end TcpQuicProxy.Router
