import TcpQuicProxy.Tunnel.ServerRun

/-!
# The socket of a tunnel

What a tunnel's hold on its socket can be read off, and the steps in which a
socket comes to the tunnel or goes back to the ingress.
-/

namespace TcpQuicProxy.Tunnel

structure SocketSide where
  tcpFd : Bool
  stream : Bool
  shutdownComplete : Bool
  streamShutdownQueued : Bool
  asyncClientOpenHandle : Bool
  relayStarted : Bool
  closes : Nat
  published : Nat

namespace SocketSide

variable (s : SocketSide)

/-- A relay may start: the socket is there and the stream is up. -/
structure Held : Prop where
  tcpFd : s.tcpFd = true
  stream : s.stream = true
  running : s.shutdownComplete = false
  unqueued : s.streamShutdownQueued = false

end SocketSide

def Context.socketSide (c : Context) : SocketSide where
  tcpFd := c.tcpFd
  stream := c.stream
  shutdownComplete := c.shutdownComplete
  streamShutdownQueued := c.streamShutdownQueued
  asyncClientOpenHandle := c.asyncClientOpenHandle
  relayStarted := c.relayStarted
  closes := c.log.count .closeTcp
  published := c.log.count .relayPublished

/-- The socket of a dial that ended well comes to the tunnel. -/
def Call.grants (io : Io) : Call → Nat
  | .finishServerOpen mode _ => (mode.failure io.dial).isNone.toNat
  | _ => 0

/-- The ingress takes its socket back. -/
def Context.returns (c : Context) : Event → Nat
  | .abandon => (c.asyncClientOpenHandle && c.tcpFd).toNat
  | _ => 0

/-- What comes to the tunnel in a step, and what leaves it for the ingress. -/
def granted (s : System) : Action → Nat
  | .event _ => 0
  | .call t io => ((s.calls t).head?.map (Call.grants io)).getD 0

def returned (s : System) : Action → Nat
  | .event e => s.shared.returns e
  | .call _ _ => 0

end TcpQuicProxy.Tunnel
