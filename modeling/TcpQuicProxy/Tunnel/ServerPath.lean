import TcpQuicProxy.Tunnel.OpenResponse

/-!
# The way of a server stream to its relay

The dispatcher owns a stream of the server until it has seen the command. From
then on one token travels from the opening buffer over the dial and the pending
flag to the start of the relay. It is lost on every path that fails, and the
relay is published at most once because it never comes back.
-/

namespace TcpQuicProxy.Tunnel

/-- Calls of the client, and starts of a relay that a client asked for. -/
def Call.client : Call → Bool
  | .acceptAsyncClientOpen | .isPendingClientRelayWaiting | .acceptReturned _
  | .abortAcceptedClientOpenBeforeRelay
  | .startPendingClientRelay _ => true
  | .startRelay _ caller | .registerRelay _ caller | .commitRelay caller | .noteRelayStarted caller
  | .dispatchPendingRelayRx caller | .dispatchBufferedEvent _ caller
  | .startRelayReturned _ caller =>
    caller ≠ .startPendingServerRelay
  | _ => false

/-- The handler of SEND_COMPLETE up to the end of `StartRelay`. -/
def Call.starting : Call → Bool
  | .onSendComplete | .startPendingServerRelay | .startRelay .. | .registerRelay .. | .commitRelay _
  | .noteRelayStarted _ | .dispatchPendingRelayRx _ | .dispatchBufferedEvent ..
  | .startRelayReturned .. => true
  | _ => false

/-- The calls of the dispatcher. -/
def Call.early : Call → Bool
  | .dispatch _ | .returnSuccess _ => true
  | _ => false

/-- The calls that carry the request to the publication of the relay. -/
def Call.requests : Call → Nat
  | .submitDial _ | .beginServerDialCallback _ | .finishServerOpen .. | .checkAborted _
  | .recheckAborted _
  | .sendOpenOk _ | .notePendingServerRelay _ | .startRelay .. | .registerRelay .. => 1
  | _ => 0

/-- The calls between the publication of the relay and the end of the replay. -/
def Call.replays : Call → Nat
  | .commitRelay _ | .noteRelayStarted _ | .dispatchPendingRelayRx _
  | .dispatchBufferedEvent .. => 1
  | _ => 0

/-- The part of `StartRelay` behind its first section. -/
def Call.afterStart : Call → Bool
  | .registerRelay .. | .commitRelay _ | .noteRelayStarted _ | .dispatchPendingRelayRx _
  | .dispatchBufferedEvent ..
  | .startRelayReturned .. => true
  | _ => false

def Call.dispatches : Call → Bool
  | .dispatch _ => true
  | _ => false

def Context.request (c : Context) : Nat := c.opens + c.pendingServerRelay.toNat

/-- No tunnel context exists yet. -/
def Context.AtDispatcher (c : Context) : Prop := c.target = .dispatcher ∨ c.target = .foreign

namespace Context

variable {c : Context} {io : Io} {call : Call}

/-- What stays as it is before the hand-off, and what the hand-off does. -/
theorem early_execute (hdispatcher : c.AtDispatcher) (hearly : call.early) :
    ((c.execute io call).1.AtDispatcher ∧ (c.execute io call).2 = [] ∨
      (c.execute io call).1.target = .context ∧ (c.execute io call).2 = [.tryHandleServerOpen]) ∧
    (c.execute io call).1.serverOpenDispatched = c.serverOpenDispatched ∧
    (c.execute io call).1.dialRequest = c.dialRequest ∧ (c.execute io call).1.sends = c.sends := by
  cases call <;> simp only [Call.early, Bool.false_eq_true] at hearly
  all_goals simp only [execute, tryDispatch, handOffToTunnelContext]
  all_goals repeat' split
  all_goals simp_all [AtDispatcher, emit]

/-- What a call of a server does for the way to the relay. -/
structure OnPath (c : Context) (call : Call) (r : Context × List Call) : Prop where
  request : r.1.request + Machine.total Call.requests r.2 ≤ c.request + call.requests
  replay : r.1.request + Machine.total Call.requests r.2 + Machine.total Call.replays r.2 ≤
    c.request + call.requests + call.replays
  calls : ∀ call' ∈ r.2, call'.client = false ∧ (call'.starting → call.starting)
  late : ¬ c.AtDispatcher → call.dispatches = false →
    ¬ r.1.AtDispatcher ∧ ∀ call' ∈ r.2, call'.dispatches = false
  start : call.afterStart = false → .startRelay ∉ r.1.log →
    r.1.relayStarted = c.relayStarted ∧ (r.1.target = .relay → c.target = .relay) ∧
      ∀ call' ∈ r.2, call'.afterStart = false

theorem onPath_execute (hrole : c.role = .serverOpen) (hclient : call.client = false) :
    c.OnPath call (c.execute io call) := by
  cases call
  case startRelayReturned ok caller =>
    constructor <;> cases ok <;> cases caller <;>
      simp_all [execute, Call.client, Call.requests, Call.replays, Call.starting, Call.dispatches,
      Call.afterStart]
  all_goals dsimp [execute]
  all_goals repeat' split
  all_goals constructor
  all_goals simp_all [request, opens, AtDispatcher, Call.requests, Call.replays, Call.client,
    Call.starting, Call.dispatches, Call.afterStart, emit]
  all_goals omega

end Context
end TcpQuicProxy.Tunnel
