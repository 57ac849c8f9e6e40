import TcpQuicProxy.Ingress.Connect
import TcpQuicProxy.Platform.InetText
import TcpQuicProxy.Wire.Decimal

/-!
# The router configuration and its validation

The peers of a client, with their paths and port forwards, and the table of the
proxy users. `validateRouterConfig` makes its checks in the order of the source
and stops at the first that fails. What later results use of it is that the
peers of a valid configuration have different names (`nodup_of_validate`).
-/

namespace TcpQuicProxy.Config

open Ingress Platform

structure PortForwardConfig where
  listen : Bytes := []
  targetHost : Bytes := []
  targetPort : UInt16 := 0
  deriving DecidableEq

structure QuicPathConfig where
  name : Bytes := []
  localAddress : Bytes := []
  peer : Bytes := []
  connections : UInt32 := 0
  deriving DecidableEq

structure PeerConfig where
  peerId : Bytes := []
  quicPeer : Bytes := []
  quicPaths : List QuicPathConfig := []
  socksListen : Bytes := []
  httpListen : Bytes := []
  portForwards : List PortForwardConfig := []
  quicConnections : UInt32 := 0
  compress : Bytes := []
  enabled : Bool := true
  deriving DecidableEq

structure RouterConfig where
  version : UInt32 := 1
  proxyAuth : List ProxyAuthUser := []
  peers : List PeerConfig := []
  deriving DecidableEq

/-! ### Endpoints -/

def isDigit (ch : UInt8) : Bool := 0x30 ≤ ch && ch ≤ 0x39

/-- The digits of a port; `port` is what the earlier ones gave. -/
def portDigits : Nat → Bytes → Option Nat
  | port, [] => some port
  | port, ch :: rest =>
    if !isDigit ch then none
    else
      let digit := (ch - 0x30).toNat
      if 6553 < port || (port = 6553 && 5 < digit) then none
      else portDigits (port * 10 + digit) rest

/-- The host and the port text of an endpoint. -/
def splitPort (value : Bytes) : Option (Bytes × Bytes) :=
  if value.head? = some openBracket then
    match value.findIdx? (· = closeBracket) with
    | none => none
    | some close =>
      if close = 1 || value.length < close + 2 || value.getD (close + 1) 0 ≠ Ingress.colon then none
      else some ((value.drop 1).take (close - 1), value.drop (close + 2))
  else
    match value.findIdx? (· = Ingress.colon) with
    | none => none
    | some i =>
      if i = 0 || value.length ≤ i + 1 || (value.drop (i + 1)).contains Ingress.colon then none
      else some (value.take i, value.drop (i + 1))

def isHostPort (value : Bytes) : Bool :=
  match splitPort value with
  | none => false
  | some (_, digits) =>
    match portDigits 0 digits with
    | none => false
    | some port => port ≠ 0

def comma : UInt8 := 0x2C

def isBlank (b : UInt8) : Bool := b = 0x20 || b = 0x09

def trimListItem (value : Bytes) : Bytes :=
  ((value.dropWhile isBlank).reverse.dropWhile isBlank).reverse

def splitCommaList (value : Bytes) : List Bytes :=
  ((value.splitOn comma).map trimListItem).filter (!·.isEmpty)

def isHostPortList (value : Bytes) : Bool :=
  !(splitCommaList value).isEmpty && (splitCommaList value).all isHostPort

def kMaxPortForwardTargetHostLength : Nat := 255

def splitHostPortValue (value : Bytes) : Option (Bytes × UInt16) :=
  match splitPort value with
  | none => none
  | some (host, digits) =>
    match portDigits 0 digits with
    | none => none
    | some port =>
      if host.isEmpty || kMaxPortForwardTargetHostLength < host.length || port = 0 then none
      else some (host, UInt16.ofNat port)

def isValidPortForwardTarget (forward : PortForwardConfig) : Bool :=
  !forward.targetHost.isEmpty && forward.targetHost.length ≤ kMaxPortForwardTargetHostLength &&
    forward.targetPort ≠ 0

/-- Where a reading of a dotted quad is. -/
structure QuadScan where
  octet : Nat := 0
  octets : Nat := 0
  haveDigit : Bool := false

def QuadScan.next (scan : QuadScan) (ch : UInt8) : Option QuadScan :=
  if isDigit ch then
    let digit := (ch - 0x30).toNat
    if 25 < scan.octet || (scan.octet = 25 && 5 < digit) then none
    else some { scan with octet := scan.octet * 10 + digit, haveDigit := true }
  else if ch = dot then
    if !scan.haveDigit || 3 ≤ scan.octets then none
    else some { octet := 0, octets := scan.octets + 1, haveDigit := false }
  else none

def isValidQuicPathLocalAddress (value : Bytes) : Bool :=
  if value.isEmpty then false
  else
    match value.foldlM QuadScan.next {} with
    | none => false
    | some scan => scan.haveDigit && scan.octets = 3

def isValidCompress (value : Bytes) : Bool :=
  value.isEmpty || value = ascii "auto" || value = ascii "zstd" || value = ascii "off"

/-! ### Validation -/

/-- `std::set::insert`, with the error for a value that is in the set already. -/
def insertNew (seen : List Bytes) (value err : Bytes) : Except Bytes (List Bytes) :=
  if seen.contains value then .error err else .ok (value :: seen)

def kMaxUsers : Nat := 64

def validateUsers : List ProxyAuthUser → List Bytes → Except Bytes Unit
  | [], _ => .ok ()
  | user :: users, seen =>
    if user.username.isEmpty || user.password.isEmpty then
      .error (ascii "proxy_auth username and password must be non-empty")
    else if kMaxFieldBytes < user.username.length || kMaxFieldBytes < user.password.length then
      .error (ascii "proxy_auth username or password too long")
    else do
      let seen ← insertNew seen user.username
        (ascii "duplicate proxy_auth username: " ++ user.username)
      validateUsers users seen

def validateProxyAuthUsers (users : List ProxyAuthUser) : Except Bytes Unit :=
  if kMaxUsers < users.length then .error (ascii "proxy_auth exceeds maximum user count")
  else validateUsers users []

def maxQuicConnections : Nat := 128

def validatePaths (peerId : Bytes) : List QuicPathConfig → List Bytes → Nat → Except Bytes Unit
  | [], _, _ => .ok ()
  | path :: paths, names, connections =>
    if path.name.isEmpty then .error (ascii "path name is required for " ++ peerId)
    else do
      let names ← insertNew names path.name (ascii "duplicate path name: " ++ path.name)
      if !isValidQuicPathLocalAddress path.localAddress then
        .error (ascii "invalid path local for " ++ peerId)
      else if !isHostPort path.peer then .error (ascii "invalid path peer for " ++ peerId)
      else if path.connections = 0 || maxQuicConnections < path.connections.toNat ||
          maxQuicConnections - path.connections.toNat < connections then
        .error (ascii "path connections out of range for " ++ peerId)
      else validatePaths peerId paths names (connections + path.connections.toNat)

/-- A listen address of a proxy may be absent; one that is there must be new. -/
def validateListen (listens : List Bytes) (listen invalid : Bytes) : Except Bytes (List Bytes) :=
  if listen.isEmpty then .ok listens
  else if !isHostPort listen then .error invalid
  else insertNew listens listen (ascii "duplicate listen: " ++ listen)

def validateForwards (peerId : Bytes) :
    List PortForwardConfig → List Bytes → Except Bytes (List Bytes)
  | [], listens => .ok listens
  | forward :: forwards, listens =>
    if !isHostPort forward.listen then .error (ascii "invalid port_forward.listen for " ++ peerId)
    else if !isValidPortForwardTarget forward then
      .error (ascii "invalid port_forward.target for " ++ peerId)
    else do
      let listens ← insertNew listens forward.listen (ascii "duplicate listen: " ++ forward.listen)
      validateForwards peerId forwards listens

/-- The checks of a peer after its name; the listen addresses are those of all
peers so far. -/
def validatePeerBody (peer : PeerConfig) (listens : List Bytes) : Except Bytes (List Bytes) := do
  if peer.quicPaths.isEmpty then
    if !isHostPortList peer.quicPeer then .error (ascii "invalid quic_peer for " ++ peer.peerId)
  else
    validatePaths peer.peerId peer.quicPaths [] 0
  if peer.socksListen.isEmpty && peer.httpListen.isEmpty && peer.portForwards.isEmpty then
    .error (ascii "at least one ingress is required for " ++ peer.peerId)
  let listens ← validateListen listens peer.socksListen
    (ascii "invalid socks_listen for " ++ peer.peerId)
  let listens ← validateListen listens peer.httpListen
    (ascii "invalid http_listen for " ++ peer.peerId)
  let listens ← validateForwards peer.peerId peer.portForwards listens
  if maxQuicConnections < peer.quicConnections.toNat then
    .error (ascii "quic_connections out of range for " ++ peer.peerId)
  if !isValidCompress peer.compress then .error (ascii "invalid compress for " ++ peer.peerId)
  pure listens

def validatePeers : List PeerConfig → List Bytes → List Bytes → Except Bytes Unit
  | [], _, _ => .ok ()
  | peer :: peers, peerIds, listens =>
    if peer.peerId.isEmpty then .error (ascii "peer_id is required")
    else
      match insertNew peerIds peer.peerId (ascii "duplicate peer_id: " ++ peer.peerId) with
      | .error err => .error err
      | .ok peerIds =>
        match validatePeerBody peer listens with
        | .error err => .error err
        | .ok listens => validatePeers peers peerIds listens

def validateRouterConfig (router : RouterConfig) : Except Bytes Unit :=
  if router.version ≠ 1 then .error (ascii "client config version must be 1")
  else
    match validateProxyAuthUsers router.proxyAuth with
    | .error err => .error err
    | .ok () => validatePeers router.peers [] []

/-! ### Names of the peers -/

theorem insertNew_eq_ok {seen seen' : List Bytes} {value err : Bytes}
    (h : insertNew seen value err = .ok seen') :
    value ∉ seen ∧ seen' = value :: seen := by
  unfold insertNew at h
  split at h
  · cases h
  · rename_i hnew
    exact ⟨by simpa using hnew, (Except.ok.inj h).symm⟩

variable {peers : List PeerConfig} {listens peerIds : List Bytes}

theorem validatePeers_cons_ok {peer : PeerConfig}
    (h : validatePeers (peer :: peers) peerIds listens = .ok ()) :
    peer.peerId ∉ peerIds ∧
      ∃ listens', validatePeers peers (peer.peerId :: peerIds) listens' = .ok () := by
  rw [validatePeers] at h
  split at h
  · cases h
  · split at h
    · cases h
    · rename_i ids hids
      obtain ⟨hnew, rfl⟩ := insertNew_eq_ok hids
      split at h
      · cases h
      · exact ⟨hnew, _, h⟩

theorem nodup_of_validatePeers (h : validatePeers peers peerIds listens = .ok ()) :
    (peers.map PeerConfig.peerId).Nodup ∧ ∀ peer ∈ peers, peer.peerId ∉ peerIds := by
  induction peers generalizing peerIds listens with
  | nil => simp
  | cons peer peers ih =>
    obtain ⟨hnew, listens', hrest⟩ := validatePeers_cons_ok h
    obtain ⟨hnodup, hout⟩ := ih hrest
    refine ⟨List.nodup_cons.mpr ⟨?_, hnodup⟩, ?_⟩
    · intro hmem
      obtain ⟨other, hother, hid⟩ := List.mem_map.mp hmem
      exact hout other hother (by simp [hid])
    · rintro other hother
      rcases List.mem_cons.mp hother with rfl | hother
      · exact hnew
      · exact fun hin => hout other hother (List.mem_cons_of_mem _ hin)

/-- The peers of a valid configuration have different names. -/
theorem nodup_of_validate {router : RouterConfig} (h : validateRouterConfig router = .ok ()) :
    (router.peers.map PeerConfig.peerId).Nodup := by
  unfold validateRouterConfig at h
  split at h
  · cases h
  · split at h
    · cases h
    · exact (nodup_of_validatePeers h).1

end TcpQuicProxy.Config
