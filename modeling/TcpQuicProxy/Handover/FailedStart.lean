import TcpQuicProxy.Handover.Joint

/-!
# Who frees a tunnel whose relay did not start

A context that has no relay frees itself when it learns of SHUTDOWN_COMPLETE, and
one whose relay has started is left to the reaper. The worker takes the route of
the stream in the middle of a start. No exit of `StartRelay` gives it back, so a
start that fails behind that point leaves a context that nobody tells and nobody
reaps. One that fails before it still has its route.
-/

namespace TcpQuicProxy.Tunnel

set_option maxRecDepth 4000
open Machine

/-- `StartRelay` up to the section in which it notes the start. -/
def Call.inStartRelay : Call → Bool
  | .startRelay .. | .registerRelay .. | .commitRelay _ | .noteRelayStarted _ => true
  | _ => false

/-- The part of `StartRelay` in which the worker has the route. -/
def Call.switched : Call → Bool
  | .commitRelay _ | .noteRelayStarted _ => true
  | _ => false

/-- The calls that tell the context that its stream is gone. -/
def Call.tells : Call → Bool
  | .noteStartFailure | .noteShutdownComplete => true
  | _ => false

/-- What threads may have to do for a stream that never had a context. -/
def Call.contextless : Call → Bool
  | .returnSuccess _ | .cancelServerDial | .clearServerDial .. | .stopRelay => true
  | _ => false

/-- `StartRelay` was called and has returned false. -/
structure StartFailed (s : System) : Prop where
  called : .startRelay ∈ s.shared.log
  returned : s.All (·.inStartRelay = false)
  unstarted : s.shared.relayStarted = false

/-- The context knows that its stream is gone, or its thread is about to note it. -/
def Told (s : System) : Prop := s.shared.shutdownComplete = true ∨ s.Outstanding (·.tells = true)

/-- A relay has started, and the reaper knows the context, or a start goes on
with the route in the hands of the worker. -/
def Carried (s : System) : Prop := s.shared.relayStarted = true ∨ s.Outstanding (·.switched = true)

/-- No context was made for the stream. -/
structure Unclaimed (s : System) : Prop where
  calls : s.All (·.contextless = true)
  log : .startRelay ∉ s.shared.log
  sends : s.shared.sends = []
  dial : s.shared.dialRequest = none
  handle : s.shared.asyncClientOpenHandle = false

/-- A start that has published its binding goes through: the worker commits the
relay, and the stream is still up when the start is noted. -/
def goesThrough (s : System) : Action → Bool
  | .event _ => true
  | .call t io =>
    match s.calls t with
    | .commitRelay _ :: _ => io.relayCommitted
    | .noteRelayStarted _ :: _ =>
      s.shared.stream && !s.shared.shutdownComplete && !s.shared.streamShutdownQueued
    | _ => true

/-! ### One call and one event -/

namespace Context

variable {c : Context} {io : Io} {call : Call} {e : Event} {r : Context × List Call}

/-- What a call does to the route of the stream and to what the context knows. -/
structure KeepsRoute (c : Context) (call : Call) (r : Context × List Call) : Prop where
  target : call.dispatches = false →
    r.1.target = c.target ∨ r.1.target = .relay ∧ ∃ call' ∈ r.2, call'.switched = true
  known : c.shutdownComplete = true → r.1.shutdownComplete = true
  told : call.tells = true → r.1.shutdownComplete = true

theorem keepsRoute_execute : c.KeepsRoute call (c.execute io call) := by
  cases call with
  | dispatch bytes | commitRelay caller =>
    -- the route goes to the context, or to the relay
    dsimp [execute]
    (repeat' split) <;> constructor <;> simp [Call.dispatches, Call.switched, Call.tells, emit]
  | noteStartFailure | noteShutdownComplete =>
    constructor <;> simp [execute, Call.dispatches, Call.switched, Call.tells]
  | _ =>
    dsimp [execute]
    repeat' split
    all_goals constructor
    all_goals simp [Call.dispatches, Call.switched, Call.tells, emit]

/-- What an event does to the route: those that end the stream tell the context
if it has the route, and no event starts a relay. -/
structure Ends (c : Context) (e : Event) (r : Context × List Call) : Prop where
  target : r.1.target = c.target ∨ r.1.target = .gone
  known : c.shutdownComplete = true → r.1.shutdownComplete = true
  told : r.1.target ≠ c.target → c.target = .context → ∃ call ∈ r.2, call.tells = true
  unclaimed : r.1.target ≠ c.target → c.AtDispatcher → e.thread = .callback ∧ r.2 = []
  log : .startRelay ∈ r.1.log → .startRelay ∈ c.log

theorem ends_handle (h : c.handle e = some r) : c.Ends e r := by
  cases e with
  | startFailed | shutdownComplete =>
    -- the two that end the stream
    dsimp [handle] at h
    (repeat' split at h) <;> cases h <;> constructor <;>
      simp_all [AtDispatcher, Event.thread, Call.tells]
  | receive buffers fin | sendComplete index | peerAborted | dialCompleted =>
    dsimp [handle] at h
    (repeat' split at h) <;> cases h <;> constructor <;> simp_all [emit]
  | accept | reject | abandon | abortForConnectionShutdown | drainFromAdmin =>
    dsimp [handle] at h
    (repeat' split at h) <;> cases h <;> constructor <;> simp_all

theorem contextless_execute (h : call.contextless = true) (hdial : c.dialRequest = none) :
    (∀ call' ∈ (c.execute io call).2, call'.contextless = true) ∧
      (c.execute io call).1.sends = c.sends ∧
      (c.execute io call).1.dialRequest = none ∧
        (.startRelay ∈ (c.execute io call).1.log → .startRelay ∈ c.log) := by
  cases call <;> simp only [Call.contextless, Bool.false_eq_true] at h
  all_goals simp only [execute, cancelServerDial, clearServerDial]
  all_goals repeat' split
  all_goals simp_all [Call.contextless, emit]

/-- An event finds nothing to do for a stream that is gone and had no context. -/
theorem contextless_handle (hgone : c.target = .gone) (hsends : c.sends = [])
    (hdial : c.dialRequest = none) (hhandle : c.asyncClientOpenHandle = false)
    (h : c.handle e = some r) :
    (∀ call ∈ r.2, call.contextless = true) ∧ r.1.sends = [] ∧ r.1.dialRequest = none := by
  cases e
  all_goals dsimp [handle] at h
  all_goals repeat' split at h
  all_goals cases h
  all_goals simp_all [Call.contextless]

/-- A call before the hand-off does not start a relay. -/
theorem early_log_execute (h : call.early) (hmem : .startRelay ∈ (c.execute io call).1.log) :
    .startRelay ∈ c.log := by
  revert hmem
  cases call <;> simp only [Call.early, Bool.false_eq_true] at h
  all_goals simp only [execute, tryDispatch, handOffToTunnelContext]
  all_goals repeat' split
  all_goals simp [emit]

end Context

/-! ### The way of the route -/

/-- Each role has its calls, and the dispatcher has only streams of a server. -/
structure Placed (s : System) : Prop where
  sides : Sides s
  server : s.shared.role = .serverOpen → Dispatching s
  client : s.shared.role = .clientOpen → ¬ s.shared.AtDispatcher

namespace Placed

variable {s s' : System}

theorem late (h : Placed s) (hlate : ¬ s.shared.AtDispatcher) : s.All (·.dispatches = false) := by
  cases hrole : s.shared.role with
  | serverOpen => exact (h.server hrole).late hlate
  | clientOpen =>
    intro t call hcall
    have hbelongs := h.sides.belongs t call hcall
    rw [hrole] at hbelongs
    cases call <;> first | rfl | cases hbelongs

theorem unhanded (h : Placed s) (hat : s.shared.AtDispatcher) :
    s.shared.role = .serverOpen ∧ Unhanded s := by
  cases hrole : s.shared.role with
  | serverOpen => exact ⟨rfl, (h.server hrole).early hat⟩
  | clientOpen => exact absurd hat (h.client hrole)

theorem step (h : Placed s) {a : Action} (hstep : Tunnel.step s a = some s') : Placed s' := by
  have hrole : s'.shared.role = s.shared.role := (grows_step hstep).role
  refine ⟨h.sides.step hstep, fun hserver => ?_, fun hclient => ?_⟩
  · rw [hrole] at hserver
    obtain ⟨e, c, cs, rfl, hh, -, rfl⟩ | ⟨t, io, call, rest, rfl, hcalls, rfl⟩ := step_cases hstep
    · exact (h.server hserver).handle h.sides hserver hh
    · exact (h.server hserver).execute h.sides hserver hcalls
  · rw [hrole] at hclient
    have hlate := h.client hclient
    obtain ⟨e, c, cs, rfl, hh, -, rfl⟩ | ⟨t, io, call, rest, rfl, hcalls, rfl⟩ := step_cases hstep
    · exact (Context.late_handle hlate hh).1
    · have hcall := h.late hlate t call (by simp [hcalls])
      rcases (@Context.keepsRoute_execute s.shared io call).target hcall with htarget | ⟨htarget, -⟩
      · rw [Pool.setCalls_shared, Context.AtDispatcher, htarget]
        exact hlate
      · simp [Context.AtDispatcher, htarget]

end Placed

/-- As long as a context may exist, somebody frees it in the end: it has the
route, it has been told, the reaper knows it, or its start goes on. -/
structure Looked (s : System) : Prop where
  placed : Placed s
  early : s.shared.AtDispatcher → .startRelay ∉ s.shared.log
  relay : s.shared.target = .relay → Carried s
  gone : s.shared.target = .gone → Told s ∨ Carried s ∨ Unclaimed s

namespace Looked

variable {s s' : System} {t : Thread} {call : Call} {rest : List Call} {e : Event}
  {r : Context × List Call}

theorem told_handle (h : Told s) (hh : s.shared.handle e = some r) (hidle : s.calls e.thread = []) :
    Told ({ s with shared := r.1 }.setCalls e.thread r.2) :=
  h.imp (Context.ends_handle hh).known fun hout => hout.setCalls hidle

theorem carried_handle (h : Carried s) (hh : s.shared.handle e = some r)
    (hidle : s.calls e.thread = []) :
    Carried ({ s with shared := r.1 }.setCalls e.thread r.2) :=
  h.imp (Context.grows_handle hh).started fun hout => hout.setCalls hidle

theorem told_execute (h : Told s) (io : Io) (hcalls : s.calls t = call :: rest) :
    Told ({ s with shared := (s.shared.execute io call).1 }.setCalls t
      ((s.shared.execute io call).2 ++ rest)) := by
  have hkeeps := @Context.keepsRoute_execute s.shared io call
  rcases h with hknown | hout
  · exact .inl (hkeeps.known hknown)
  · by_cases hcall : call.tells = true
    · exact .inl (hkeeps.told hcall)
    · exact .inr (hout.advance hcalls hcall)

/-- A start that goes through is carried on to its end. -/
theorem carried_execute (h : Carried s) {io : Io} (hcalls : s.calls t = call :: rest)
    (hthrough : goesThrough s (.call t io) = true) :
    Carried ({ s with shared := (s.shared.execute io call).1 }.setCalls t
      ((s.shared.execute io call).2 ++ rest)) := by
  rcases h with hstarted | hout
  · exact .inl (Context.grows_execute.started hstarted)
  · by_cases hcall : call.switched = true
    · simp only [goesThrough, hcalls] at hthrough
      cases call <;> simp only [Call.switched, Bool.false_eq_true] at hcall
      case commitRelay caller =>
        refine .inr (Pool.outstanding_of_mem (d := .noteRelayStarted caller) ?_ rfl)
        simp only at hthrough
        simp [Context.execute, Context.commitRelay, hthrough]
      case noteRelayStarted caller =>
        left
        simp_all [Context.execute, Context.noteRelayStarted, Context.emit]
    · exact .inr (hout.advance hcalls hcall)

section

variable (h : Looked s)
include h

theorem handle (hplaced : Placed ({ s with shared := r.1 }.setCalls e.thread r.2))
    (hh : s.shared.handle e = some r) (hidle : s.calls e.thread = []) :
    Looked ({ s with shared := r.1 }.setCalls e.thread r.2) := by
  have hends := Context.ends_handle hh
  refine ⟨hplaced, fun hat hmem => ?_, fun hrelay => ?_, fun hgone => ?_⟩
  · have htarget : r.1.target = s.shared.target := by
      refine hends.target.resolve_right fun hgone => ?_
      rcases hat with hat | hat <;> cases hgone.symm.trans hat
    refine h.early ?_ (hends.log hmem)
    rw [Context.AtDispatcher, ← htarget]
    exact hat
  · have htarget : r.1.target = s.shared.target :=
      hends.target.resolve_right fun hgone => absurd (hgone.symm.trans hrelay) (by decide)
    exact carried_handle (h.relay (htarget.symm.trans hrelay)) hh hidle
  · rw [Pool.setCalls_shared] at hgone
    cases hold : s.shared.target with
    | context =>
      obtain ⟨call, hcall, htells⟩ := hends.told (by rw [hgone, hold]; decide) hold
      refine .inl (.inr ⟨e.thread, call, ?_, htells⟩)
      rwa [Pool.setCalls_calls_self]
    | relay => exact .inr (.inl (carried_handle (h.relay hold) hh hidle))
    | gone =>
      rcases h.gone hold with htold | hcarried | hun
      · exact .inl (told_handle htold hh hidle)
      · exact .inr (.inl (carried_handle hcarried hh hidle))
      · obtain ⟨hcalls, hsends, hdial⟩ :=
          Context.contextless_handle hold hun.sends hun.dial hun.handle hh
        refine .inr
          (.inr ⟨hun.calls.setCalls hcalls, fun hmem => hun.log (hends.log hmem),
          hsends, hdial, ?_⟩)
        exact Bool.eq_false_iff.mpr fun hhandle =>
          absurd ((Context.grows_handle hh).handle hhandle) (by simp [hun.handle])
    | dispatcher | foreign =>
      have hat : s.shared.AtDispatcher := by simp [Context.AtDispatcher, hold]
      obtain ⟨hrole, hun⟩ := h.placed.unhanded hat
      obtain ⟨hthread, hcalls⟩ := hends.unclaimed (by rw [hgone, hold]; decide) hat
      have hhandle := h.placed.sides.sided.server hrole
      obtain ⟨-, -, -, -, hdial, hsends⟩ :=
        Context.early_handle hat hrole hhandle hun.dial hun.sends hh
      refine .inr (.inr ⟨?_, fun hmem => h.early hat (hends.log hmem), hsends, hdial, ?_⟩)
      · -- the callback thread was idle, and the others have never had anything to do
        intro t call hcall
        by_cases ht : t = e.thread
        · rw [ht, Pool.setCalls_calls_self, hcalls] at hcall
          cases hcall
        · rw [Pool.setCalls_calls_of_ne ht, hun.idle t (hthread ▸ ht)] at hcall
          cases hcall
      · exact Bool.eq_false_iff.mpr fun hhandle' =>
          absurd ((Context.grows_handle hh).handle hhandle') (by simp [hhandle])

theorem execute {io : Io} (hthrough : goesThrough s (.call t io) = true)
    (hcalls : s.calls t = call :: rest)
    (hplaced :
      Placed ({ s with shared := (s.shared.execute io call).1 }.setCalls t
        ((s.shared.execute io call).2 ++ rest))) :
    Looked ({ s with shared := (s.shared.execute io call).1 }.setCalls t
      ((s.shared.execute io call).2 ++ rest)) := by
  have hkeeps := @Context.keepsRoute_execute s.shared io call
  have hmem : call ∈ s.calls t := by simp [hcalls]
  by_cases hat : s.shared.AtDispatcher
  · -- the dispatcher keeps the stream or gives it to a context
    obtain ⟨-, hun⟩ := h.placed.unhanded hat
    obtain rfl : t = .callback := by
      by_contra ht
      rw [hun.idle t ht] at hcalls
      cases hcalls
    obtain ⟨hearly, -, -⟩ := EarlyCalls.cons (hcalls ▸ hun.calls)
    obtain ⟨hleft, -⟩ := @Context.early_execute s.shared io call hat hearly
    have htarget : (s.shared.execute io call).1.target ≠ .relay ∧
        (s.shared.execute io call).1.target ≠ .gone := by
      rcases hleft with ⟨htarget | htarget, -⟩ | ⟨htarget, -⟩ <;> simp [htarget]
    exact ⟨hplaced, fun _ hlog => h.early hat (Context.early_log_execute hearly hlog),
      fun hrelay => absurd hrelay htarget.1, fun hgone => absurd hgone htarget.2⟩
  · have hroute := hkeeps.target (h.placed.late hat t call hmem)
    refine ⟨hplaced, fun hat' => absurd ?_ hat, fun hrelay => ?_, fun hgone => ?_⟩
    · rcases hroute with htarget | ⟨htarget, -⟩
      · rwa [Pool.setCalls_shared, Context.AtDispatcher, htarget] at hat'
      · rw [Pool.setCalls_shared, Context.AtDispatcher, htarget] at hat'
        rcases hat' with hat' | hat' <;> cases hat'
    · rcases hroute with htarget | ⟨-, call', hcall', hswitched⟩
      · exact carried_execute (h.relay (htarget.symm.trans hrelay)) hcalls hthrough
      · exact .inr (Pool.outstanding_of_mem hcall' hswitched)
    · have htarget : (s.shared.execute io call).1.target = s.shared.target :=
        hroute.resolve_right fun hrelay => absurd (hrelay.1.symm.trans hgone) (by decide)
      rcases h.gone (htarget.symm.trans hgone) with htold | hcarried | hun
      · exact .inl (told_execute htold io hcalls)
      · exact .inr (.inl (carried_execute hcarried hcalls hthrough))
      · obtain ⟨hnext, hsends, hdial, hlog⟩ :=
          @Context.contextless_execute s.shared io call (hun.calls t call hmem) hun.dial
        refine .inr
          (.inr ⟨hun.calls.advance hcalls hnext, fun hmem => hun.log (hlog hmem),
          hsends.trans hun.sends, hdial, ?_⟩)
        exact Bool.eq_false_iff.mpr fun hhandle =>
          absurd (Context.grows_execute.handle hhandle) (by simp [hun.handle])

theorem step {a : Action} (hthrough : goesThrough s a = true) (hstep : Tunnel.step s a = some s') :
    Looked s' := by
  have hplaced := h.placed.step hstep
  obtain ⟨e, c, cs, rfl, hh, hidle, rfl⟩ | ⟨t, io, call, rest, rfl, hcalls, rfl⟩ := step_cases hstep
  · exact h.handle (r := (c, cs)) hplaced hh hidle
  · exact h.execute hthrough hcalls hplaced

/-- The thread that waits for the worker gives up before the worker has the route. -/
theorem giveUp {caller : Caller} (hcalls : s.calls t = .registerRelay true caller :: rest) :
    Looked (s.setCalls t (.startRelayReturned false caller :: rest)) := by
  have hmem : Call.registerRelay true caller ∈ s.calls t := by simp [hcalls]
  have hlate : ¬ s.shared.AtDispatcher := by
    intro hat
    obtain ⟨-, hun⟩ := h.placed.unhanded hat
    by_cases ht : t = .callback
    · obtain ⟨hearly, -⟩ := EarlyCalls.cons ((ht ▸ hcalls) ▸ hun.calls)
      cases hearly
    · rw [hun.idle t ht] at hcalls
      cases hcalls
  have hbelongs : (Call.startRelayReturned false caller).belongs s.shared.role := by
    have hold := h.placed.sides.belongs t _ hmem
    cases hrole : s.shared.role <;>
      simpa [Call.belongs, Call.client, Call.serverSide, hrole] using hold
  have hsides : Sides (s.setCalls t ([.startRelayReturned false caller] ++ rest)) :=
    ⟨h.placed.sides.sided, h.placed.sides.belongs.advance hcalls (by simpa using hbelongs)⟩
  have hquiet :
      (s.setCalls t ([.startRelayReturned false caller] ++ rest)).All (·.dispatches = false) :=
    (h.placed.late hlate).advance hcalls (by simp [Call.dispatches])
  have hplaced : Placed (s.setCalls t ([.startRelayReturned false caller] ++ rest)) :=
    ⟨hsides, fun _ => ⟨fun hat => absurd hat hlate, fun _ => hquiet⟩, fun _ => hlate⟩
  have hcarried (hcarried : Carried s) :
      Carried (s.setCalls t ([.startRelayReturned false caller] ++ rest)) :=
    hcarried.imp_right fun hout => hout.advance hcalls (by simp [Call.switched])
  have htold (htold : Told s) : Told (s.setCalls t ([.startRelayReturned false caller] ++ rest)) :=
    htold.imp_right fun hout => hout.advance hcalls (by simp [Call.tells])
  refine ⟨hplaced, fun hat => absurd hat hlate, fun hrelay => hcarried (h.relay hrelay),
    fun hgone => ?_⟩
  rcases h.gone hgone with hold | hold | hun
  · exact .inl (htold hold)
  · exact .inr (.inl (hcarried hold))
  · exact absurd (hun.calls t _ hmem) (by simp [Call.contextless])

/-- The reaper changes nothing that the route or the calls depend on. -/
theorem reap (hstarted : s.shared.relayStarted = true) :
    Looked { s with shared := (s.shared.emit .stopRelay).closeTcpLocked } := by
  have hcarried : Carried { s with shared := (s.shared.emit .stopRelay).closeTcpLocked } := by
    left
    simpa [Context.closeTcpLocked_eq, Context.emit] using hstarted
  have heq : (s.shared.emit .stopRelay).closeTcpLocked = { s.shared with
      tcpFd := false
      log := s.shared.log ++ [.stopRelay] ++ if s.shared.tcpFd then [.closeTcp] else [] } := by
    rw [Context.closeTcpLocked_eq]
    rfl
  refine ⟨⟨⟨?_, ?_⟩, fun hserver => ?_, fun hclient => ?_⟩, fun hat => ?_, fun _ => hcarried,
    fun _ => .inr (.inl hcarried)⟩
  all_goals rw [heq] at *
  · exact ⟨h.placed.sides.sided.server, h.placed.sides.sided.client⟩
  · exact h.placed.sides.belongs
  · have hdispatching := h.placed.server hserver
    refine ⟨fun hat => ?_, hdispatching.late⟩
    have hun := hdispatching.early hat
    exact ⟨hun.idle, hun.calls, hun.dispatched, hun.dial, hun.sends⟩
  · exact h.placed.client hclient
  · have hnot := h.early hat
    split <;> simpa using hnot

/-- A context whose start has failed has the route or knows the end. -/
theorem kept (hfailed : StartFailed s) : s.shared.target = .context ∨ Told s := by
  have hcarried : ¬ Carried s := by
    rintro (hstarted | ⟨t, call, hcall, hswitched⟩)
    · cases hstarted.symm.trans hfailed.unstarted
    · have hreturned := hfailed.returned t call hcall
      cases call <;> simp_all [Call.switched, Call.inStartRelay]
  cases htarget : s.shared.target with
  | context => exact .inl rfl
  | relay => exact absurd (h.relay htarget) hcarried
  | gone =>
    rcases h.gone htarget with htold | hcarried' | hun
    · exact .inr htold
    · exact absurd hcarried' hcarried
    · exact absurd hfailed.called hun.log
  | dispatcher | foreign =>
    have hat : s.shared.AtDispatcher := by simp [Context.AtDispatcher, htarget]
    exact absurd hfailed.called (h.early hat)

end
end Looked

theorem looked_server : Looked (start .server) := by
  have hrun := serverRun_server
  refine ⟨⟨hrun.sides, fun _ => hrun.dispatching, nofun⟩, fun _ => ?_, nofun, nofun⟩
  simp [start, Context.server]

theorem looked_client (flags : UInt8) : Looked (start (.client flags)) := by
  refine ⟨⟨sides_client flags, nofun, fun _ => ?_⟩, fun _ => ?_, nofun, nofun⟩
  · simp [start, Context.client, Context.AtDispatcher]
  · simp [start, Context.client]

end TcpQuicProxy.Tunnel

namespace TcpQuicProxy.Handover.Joint

open Machine
open LinuxRelay (Config)
open Tunnel (StartFailed Told Looked)

variable (cfg : Config) {j j' : Joint}

/-- A start whose worker has taken the route goes through: it is not given up,
and the worker takes no route for a start that was given up before. -/
def goesThrough (j : Joint) : Action → Bool
  | .tunnel a _ => Tunnel.goesThrough j.tunnel a
  | .timeout t =>
    match j.tunnel.calls t with
    | .commitRelay _ :: _ => false
    | _ => true
  | .publish io _ => !j.tunnel.shared.publishTarget io
  | _ => true

theorem looked_step {a : Action} (h : Looked j.tunnel) (hthrough : j.goesThrough a = true)
    (hstep : j.step cfg a = some j') : Looked j'.tunnel := by
  cases a with
  | tunnel a env =>
    simp only [step] at hstep
    split at hstep
    · obtain ⟨s, hs, rfl⟩ := Option.map_eq_some_iff.mp hstep
      exact h.step hthrough hs
    · cases hstep
  | worker a =>
    have hworker {a : LinuxRelay.Action} (hstep : j.workerStep cfg a = some j') :
        Looked j'.tunnel := by
      obtain ⟨w, -, rfl⟩ := Option.map_eq_some_iff.mp hstep
      exact h
    cases a <;> simp only [step] at hstep
    all_goals first | cases hstep | split at hstep
    all_goals first | cases hstep | exact hworker hstep
  | timeout t =>
    simp only [step] at hstep
    simp only [goesThrough] at hthrough
    split at hstep
    · next hcalls =>
      cases hstep
      exact h.giveUp hcalls
    · next hcalls => simp [hcalls] at hthrough
    · cases hstep
  | publish io env =>
    have hrefused : j.tunnel.shared.publishTarget io = false := by
      simpa [goesThrough] using hthrough
    simp only [step, hrefused] at hstep
    split at hstep
    · cases hstep
      exact h
    · cases hstep
  | rollback =>
    simp only [step] at hstep
    split at hstep
    · cases hstep
      exact h
    · cases hstep
  | reap =>
    simp only [step] at hstep
    split at hstep
    · next hready =>
      cases hstep
      exact h.reap (Bool.and_eq_true_iff.mp hready).1
    · cases hstep

/-- **A failed start orphans no context.** As long as a start goes through once
its worker has the route of the stream, a context whose start has failed still
gets SHUTDOWN_COMPLETE or has been told. -/
theorem failed_start_keeps_route (j₀ : Joint) (hstart : j₀ = .server ∨ ∃ flags, j₀ = .client flags)
    (as : List Action) (j : Joint)
    (hthrough : Meets (step cfg) (fun j a => j.goesThrough a = true) j₀ as)
    (hrun : run (step cfg) j₀ as = some j) (hfailed : StartFailed j.tunnel) :
    j.tunnel.shared.target = .context ∨ Told j.tunnel := by
  have hinit : Looked j₀.tunnel := by
    rcases hstart with rfl | ⟨flags, rfl⟩
    · exact Tunnel.looked_server
    · exact Tunnel.looked_client flags
  have hlooked : Looked j.tunnel :=
    invariant_of_meets (fun _ _ _ h hc hs => looked_step cfg h hc hs) hinit hthrough hrun
  exact hlooked.kept hfailed

theorem startFailed_of_calls (hcalled : .startRelay ∈ j.tunnel.shared.log)
    (hreturned : (Tunnel.Thread.all.all fun t => (j.tunnel.calls t).all (!·.inStartRelay)) = true)
    (hunstarted : j.tunnel.shared.relayStarted = false) : StartFailed j.tunnel := by
  refine ⟨hcalled, fun t call hcall => ?_, hunstarted⟩
  have hthread := List.all_eq_true.mp hreturned t (Tunnel.Thread.mem_all t)
  simpa using List.all_eq_true.mp hthread call hcall

def alone (as : List Tunnel.Action) : List Action := as.map (.tunnel · {})

/-- The server opens, and the worker publishes its binding. -/
def publication : List Action :=
  alone (Tunnel.openedServer ++ .event (.sendComplete 0) :: List.replicate 4 (.call .callback {}))

/-- The stream refuses the worker: the start fails and the context keeps the route. -/
def refusedStart : List Action :=
  alone (Tunnel.openedServer ++ .event (.sendComplete 0) :: List.replicate 3 (.call .callback {}) ++
    [.call .callback { targetPublished := false }])

theorem refusedStart_keeps_route :
    ∃ j, run (step {}) .server refusedStart = some j ∧ StartFailed j.tunnel ∧
      (j.tunnel.shared.target = .context ∨ Told j.tunnel) := by
  refine run_observed
    (f := fun j => (decide (.startRelay ∈ j.tunnel.shared.log), Tunnel.Thread.all.all fun t =>
    (j.tunnel.calls t).all (!·.inStartRelay), j.tunnel.shared.relayStarted))
    (o := (true, true, false)) (by decide +kernel) fun j hj hobs => ?_
  simp only [Prod.mk.injEq, decide_eq_true_eq] at hobs
  have hfailed : StartFailed j.tunnel := startFailed_of_calls hobs.1 hobs.2.1 hobs.2.2
  exact ⟨hfailed, failed_start_keeps_route {} .server (.inl rfl) refusedStart j
    (by decide +kernel) hj hfailed⟩

/-- The worker publishes its binding and cannot add the socket to its epoll set.
`StartRelay` returns false, the tunnel gives up, and the stream ends: the worker
hears of it and the context does not. -/
def failedCommit : List Action :=
  publication ++ [.worker (.call { epollAdded := false }), .worker (.call {})] ++
    alone (.call .callback { relayCommitted := false } :: List.replicate 6 (.call .callback {}) ++
      [.event .shutdownComplete])

theorem failedCommit_orphans_context :
    ¬ ∀ as j, run (step {}) .server as = some j → StartFailed j.tunnel →
      j.tunnel.shared.target = .context ∨ Told j.tunnel := by
  intro h
  have htrace : (run (step {}) .server failedCommit).map (fun j =>
      (decide (.startRelay ∈ j.tunnel.shared.log), j.tunnel.shared.relayStarted,
        j.tunnel.shared.shutdownComplete,
        j.tunnel.shared.target, Tunnel.Thread.all.all fun t => (j.tunnel.calls t).isEmpty)) =
      some (true, false, false, .gone, true) := by decide +kernel
  obtain ⟨j, hj, hobs⟩ := Option.map_eq_some_iff.mp htrace
  simp only [Prod.mk.injEq, decide_eq_true_eq] at hobs
  obtain ⟨hcalled, hunstarted, hrunning, htarget, hquiet⟩ := hobs
  have hidle (t : Tunnel.Thread) : j.tunnel.calls t = [] :=
    List.isEmpty_iff.mp (List.all_eq_true.mp hquiet t (Tunnel.Thread.mem_all t))
  have hfailed : StartFailed j.tunnel := startFailed_of_calls hcalled (by simp [hidle]) hunstarted
  rcases h _ j hj hfailed with hcontext | hknown | ⟨t, call, hcall, -⟩
  · cases htarget.symm.trans hcontext
  · cases hrunning.symm.trans hknown
  · rw [hidle t] at hcall
    cases hcall

end TcpQuicProxy.Handover.Joint
