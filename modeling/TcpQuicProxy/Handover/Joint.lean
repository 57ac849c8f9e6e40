import TcpQuicProxy.Tunnel.SocketOwner
import TcpQuicProxy.LinuxRelay.Worker

/-!
# A tunnel and the worker of its relay as one system

`StartRelay` sends a registration command to a worker and waits for its result.
The worker publishes its binding as the target of the stream, commits the relay
and reports; from the publication on it owns the socket, and stream events go to
it. The thread that waits may time out. A worker that has taken the command by
then finishes the registration and rolls it back.
-/

namespace TcpQuicProxy.Handover

open LinuxRelay (Worker Registration Config ReceiveEvent)
open Tunnel (Thread)

/-- What a step of the tunnel finds at the worker: the rest of the registration,
what the TCP peer will send, and the answers to the stream callback. -/
structure Env where
  registration : Registration := {}
  tcpInput : Bytes := []
  io : LinuxRelay.Io := {}
  deriving DecidableEq

/-- `registered` says that the worker has finished the registration, `abandoned`
that nobody waits for it any more. `given` and `back` count the sockets that
came to the tunnel and those that the ingress took back. -/
structure Joint where
  tunnel : Tunnel.System
  worker : Option Worker := none
  registered : Bool := false
  abandoned : Bool := false
  given : Nat
  back : Nat := 0

inductive Action where
  | tunnel (a : Tunnel.Action) (env : Env)
  | worker (a : LinuxRelay.Action)
  -- a timeout of `WaitRegisterCommand` after the worker has taken the command
  | timeout (thread : Thread)
  | publish (io : Tunnel.Io) (env : Env)
  | rollback
  | reap

namespace Joint

variable (cfg : Config) (j : Joint)

def server : Joint := { tunnel := Tunnel.start .server, given := 0 }

def client (flags : UInt8) : Joint := { tunnel := Tunnel.start (.client flags), given := 1 }

/-- The worker after an event that the stream routes to it. -/
def routed (f : Worker → Worker) : Option Worker :=
  if j.tunnel.shared.target = .relay then j.worker.map f else j.worker

/-- The event of `DispatchBufferedEvent` leaves `TotalBufferLength` zero. -/
def bufferedEvent (bytes : Bytes) : ReceiveEvent :=
  { buffers := [Tunnel.Context.quicBuffer bytes], totalBufferLength := 0 }

/-- The worker right after it has published its binding. -/
def published (env : Env) : Worker :=
  .start cfg { env.registration with tcpFd := true } env.tcpInput

/-- What a step of the tunnel does to the worker. -/
def workerAfter (env : Env) : Tunnel.Action → Option Worker
  | .event (.receive buffers fin) =>
    j.routed (·.indicateReceive cfg (.indicated buffers fin) env.io)
  | .event .peerAborted => j.routed (·.onTerminalEvent cfg .terminalHandoff)
  | .event .shutdownComplete => j.routed (·.onTerminalEvent cfg .quicShutdownComplete)
  | .event _ => j.worker
  | .call t io =>
    match j.tunnel.calls t with
    | .registerRelay tcpFd _ :: _ =>
      if tcpFd && j.tunnel.shared.publishTarget io then some (published cfg env) else j.worker
    | .dispatchBufferedEvent bytes _ :: _ =>
      j.routed fun w => (w.onReceive cfg (bufferedEvent bytes) env.io).2
    | _ => j.worker

/-- `TqTunnelRelayStopped`: the worker or `TqRelayStop` has set the stop control. -/
def stopped : Bool := .stopRelay ∈ j.tunnel.shared.log || j.worker.any fun w => .stop ∈ w.relay.log

/-- The result of a registration is there when the worker has finished it, and
a relay that has stopped meanwhile is not started. -/
def admits : Tunnel.Action → Bool
  | .event _ => true
  | .call t io =>
    match j.tunnel.calls t with
    | .commitRelay _ :: _ => j.registered && !(io.relayCommitted && j.stopped)
    | _ => true

/-- The waiting thread returns without a result. -/
def giveUp (t : Thread) (caller : Tunnel.Caller) (rest : List Tunnel.Call) : Joint :=
  { j with
    tunnel := j.tunnel.setCalls t (.startRelayReturned false caller :: rest), abandoned := true }

/-- The registration is over when the event loop of the worker goes on. -/
def returnsToEvents (w : Worker) : Bool :=
  match w.calls with
  | .popEvents _ :: _ => true
  | _ => false

def workerStep (a : LinuxRelay.Action) : Option Joint :=
  (j.worker.bind (·.step cfg a)).map fun w =>
    { j with worker := some w, registered := j.registered || returnsToEvents w }

def step : Action → Option Joint
  | .tunnel a env =>
    if j.admits a then
      (Tunnel.step j.tunnel a).map fun s =>
        { j with
          tunnel := s
          worker := j.workerAfter cfg env a
          given := j.given + Tunnel.granted j.tunnel a
          back := j.back + Tunnel.returned j.tunnel a }
    else none
  -- these come through the tunnel's events
  | .worker (.receive ..) | .worker .terminalEvent | .worker .shutdownComplete => none
  -- MsQuic calls back on one thread
  | .worker (.sendComplete index) =>
    if j.tunnel.calls .callback = [] then j.workerStep cfg (.sendComplete index) else none
  | .worker (.idealSendBufferSize byteCount) =>
    if j.tunnel.calls .callback = [] then
      j.workerStep cfg (.idealSendBufferSize byteCount) else none
  | .worker a => if j.abandoned && j.registered then none else j.workerStep cfg a
  | .timeout t =>
    match j.tunnel.calls t with
    | .registerRelay true caller :: rest => some (j.giveUp t caller rest)
    | .commitRelay caller :: rest => if j.registered then none else some (j.giveUp t caller rest)
    | _ => none
  | .publish io env =>
    if j.abandoned && j.worker.isNone then
      if j.tunnel.shared.publishTarget io then
        some { j with
          tunnel :=
            { j.tunnel with
              shared := { j.tunnel.shared with target := .relay }.emit .relayPublished }
          worker := some (published cfg env) }
      else some { j with abandoned := false }
    else none
  -- a relay that could not be committed has nothing left that this would release
  | .rollback =>
    if j.abandoned && j.registered then
      some { j with
        worker := j.worker.map fun w => { w with relay := w.relay.unregisterRelayLocal cfg }
        abandoned := false }
    else none
  | .reap =>
    if j.tunnel.shared.relayStarted && j.stopped then
      some { j with
        tunnel := { j.tunnel with shared := (j.tunnel.shared.emit .stopRelay).closeTcpLocked } }
    else none

end Joint
end TcpQuicProxy.Handover
