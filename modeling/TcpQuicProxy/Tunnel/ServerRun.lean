import TcpQuicProxy.Tunnel.ServerPath

/-!
# What holds along every run of a tunnel

Each role makes calls of its own, the dispatcher has a stream of the server
first and never again, and until `StartRelay` has begun nothing of what follows
it has happened.
-/

namespace TcpQuicProxy.Tunnel

set_option maxRecDepth 4000

/-! ### The two roles -/

/-- The calls that only a server makes. -/
def Call.serverSide : Call → Bool
  | .dispatch _ | .tryHandleServerOpen | .tryHandleServerOpenWithReactor _ | .submitDial _
  | .submitFailed | .noteDialToken
  | .spawnDial _ | .beginServerDialCallback _ | .finishServerOpen .. | .checkAborted _
  | .recheckAborted _ | .sendOpenOk _
  | .openOkFailed | .notePendingServerRelay _ | .closeTcp | .guardOpenFailure _
  | .sendOpenFailureResponse _
  | .notePendingOpenFailureShutdown | .armSelfDeleteOnShutdown | .shutdownReceiveAfterOpenFailure
  | .startPendingServerRelay => true
  | .startRelay _ caller | .registerRelay _ caller | .commitRelay caller | .noteRelayStarted caller
  | .dispatchPendingRelayRx caller | .dispatchBufferedEvent _ caller | .startRelayReturned _ caller
  | .startPendingClientRelay caller => caller = .startPendingServerRelay
  | _ => false

/-- The calls that a tunnel of this role makes. -/
def Call.belongs (role : Role) (call : Call) : Bool :=
  match role with
  | .serverOpen => !call.client
  | .clientOpen => !call.serverSide

/-- The ingress knows only tunnels of the client, and they do not dial. -/
structure Context.Sided (c : Context) : Prop where
  server : c.role = .serverOpen → c.asyncClientOpenHandle = false
  client : c.role = .clientOpen → c.dialRequest = none ∧ c.target ≠ .dispatcher

namespace Context

variable {c : Context} {io : Io} {call : Call} {e : Event} {r : Context × List Call}

theorem sided_execute (hsided : c.Sided) (hcall : call.belongs c.role) :
    (c.execute io call).1.Sided ∧ ∀ call' ∈ (c.execute io call).2, call'.belongs c.role := by
  have hgrows := @grows_execute c io call
  cases hrole : c.role with
  | serverOpen =>
    have hclient : call.client = false := by simpa [Call.belongs, hrole] using hcall
    refine ⟨⟨fun _ => ?_, fun h => ?_⟩, fun call' hcall' => ?_⟩
    · rw [Bool.eq_false_iff]
      intro hhandle
      exact absurd (hgrows.handle hhandle) (by simp [hsided.server hrole])
    · rw [hgrows.role, hrole] at h
      cases h
    · simp [Call.belongs, ((onPath_execute hrole hclient).calls call' hcall').1]
  | clientOpen =>
    have hserver : call.serverSide = false := by simpa [Call.belongs, hrole] using hcall
    obtain ⟨hdial, htarget⟩ := hsided.client hrole
    suffices h :
      ((c.execute io call).1.dialRequest = none ∧ (c.execute io call).1.target ≠ .dispatcher) ∧
        ∀ call' ∈ (c.execute io call).2, call'.serverSide = false by
      refine ⟨⟨fun hr => ?_, fun _ => h.1⟩, fun call' hcall' => by
        simp [Call.belongs, h.2 call' hcall']⟩
      rw [hgrows.role, hrole] at hr
      cases hr
    cases call
    case startRelayReturned ok caller =>
      refine ⟨⟨hdial, htarget⟩, ?_⟩
      cases ok <;> cases caller <;> simp_all [execute, Call.serverSide]
    all_goals simp only [Call.serverSide, Bool.true_eq_false] at hserver
    all_goals dsimp [execute]
    all_goals repeat' split
    all_goals refine ⟨⟨?_, ?_⟩, ?_⟩
    all_goals simp_all [Call.serverSide, emit]

theorem sided_handle (hsided : c.Sided) (h : c.handle e = some r) :
    r.1.Sided ∧ ∀ call ∈ r.2, call.belongs c.role := by
  have hgrows := grows_handle h
  cases hrole : c.role with
  | serverOpen =>
    have hhandle := hsided.server hrole
    refine ⟨⟨fun _ => ?_, fun hr => ?_⟩, ?_⟩
    · rw [Bool.eq_false_iff]
      intro hhandle'
      exact absurd (hgrows.handle hhandle') (by simp [hhandle])
    · rw [hgrows.role, hrole] at hr
      cases hr
    · cases e
      all_goals dsimp [handle] at h
      all_goals repeat' split at h
      all_goals cases h
      all_goals simp_all [Call.belongs, Call.client]
  | clientOpen =>
    obtain ⟨hdial, htarget⟩ := hsided.client hrole
    suffices h :
      (r.1.dialRequest = none ∧ r.1.target ≠ .dispatcher) ∧ ∀ call ∈ r.2, call.serverSide = false by
      refine ⟨⟨fun hr => ?_, fun _ => h.1⟩, fun call hcall => by
        simp [Call.belongs, h.2 call hcall]⟩
      rw [hgrows.role, hrole] at hr
      cases hr
    cases e
    all_goals dsimp [handle] at h
    all_goals repeat' split at h
    all_goals cases h
    all_goals simp_all [Call.serverSide, emit]

end Context

/-- Every thread makes calls of the role of its tunnel. -/
structure Sides (s : System) : Prop where
  sided : s.shared.Sided
  belongs : s.All fun call : Call => call.belongs s.shared.role

namespace Sides

variable {s s' : System}

theorem handle (h : Sides s) {e : Event} {c : Context} {cs : List Call}
    (hh : s.shared.handle e = some (c, cs)) :
    Sides ({ s with shared := c }.setCalls e.thread cs) := by
  obtain ⟨hsided, hbelongs⟩ := Context.sided_handle h.sided hh
  have hall : ({ s with shared := c }.setCalls e.thread cs).All fun call : Call =>
    call.belongs s.shared.role :=
    h.belongs.setCalls hbelongs
  have hrole : c.role = s.shared.role := (Context.grows_handle hh).role
  rw [← hrole] at hall
  exact ⟨hsided, hall⟩

theorem execute (h : Sides s) {t : Thread} {io : Io} {call : Call} {rest : List Call}
    (hcalls : s.calls t = call :: rest) :
    Sides ({ s with shared := (s.shared.execute io call).1 }.setCalls t
      ((s.shared.execute io call).2 ++ rest)) := by
  have hbelongs := h.belongs t call (by simp [hcalls])
  obtain ⟨hsided, hnext⟩ := @Context.sided_execute s.shared io call h.sided hbelongs
  have hall : ({ s with shared := (s.shared.execute io call).1 }.setCalls t
      ((s.shared.execute io call).2 ++ rest)).All fun call : Call => call.belongs s.shared.role :=
    h.belongs.advance hcalls hnext
  have hrole : (s.shared.execute io call).1.role = s.shared.role := Context.grows_execute.role
  rw [← hrole] at hall
  exact ⟨hsided, hall⟩

theorem step (h : Sides s) {a : Action} (hstep : Tunnel.step s a = some s') : Sides s' := by
  obtain ⟨e, c, cs, rfl, hh, -, rfl⟩ | ⟨t, io, call, rest, rfl, hcalls, rfl⟩ := step_cases hstep
  · exact h.handle hh
  · exact h.execute hcalls

end Sides

theorem sides_server : Sides (start .server) := by
  refine ⟨⟨fun _ => rfl, nofun⟩, ?_⟩
  rintro t call ⟨⟩

theorem sides_client (flags : UInt8) : Sides (start (.client flags)) := by
  refine ⟨⟨nofun, fun _ => ⟨rfl, nofun⟩⟩, ?_⟩
  rintro t call ⟨⟩

/-! ### The dispatcher -/

/-- What the callback thread may have to do while the dispatcher has the stream. -/
def EarlyCalls : List Call → Prop
  | [] => True
  | [.returnSuccess _] => True
  | [.dispatch _, .returnSuccess _] => True
  | _ => False

theorem EarlyCalls.cons {call : Call} {rest : List Call} (h : EarlyCalls (call :: rest)) :
    call.early ∧ EarlyCalls rest ∧ ∀ c ∈ rest, c.dispatches = false := by
  unfold EarlyCalls at h
  split at h
  · next heq => cases heq
  · next heq =>
    obtain ⟨rfl, rfl⟩ := List.cons.inj heq
    exact ⟨rfl, trivial, by simp⟩
  · next heq =>
    obtain ⟨rfl, rfl⟩ := List.cons.inj heq
    exact ⟨rfl, trivial, by simp [Call.dispatches]⟩
  · exact h.elim

/-- Nothing has been done yet for a stream of the dispatcher. -/
structure Unhanded (s : System) : Prop where
  idle : ∀ t, t ≠ .callback → s.calls t = []
  calls : EarlyCalls (s.calls .callback)
  dispatched : s.shared.serverOpenDispatched = false
  dial : s.shared.dialRequest = none
  sends : s.shared.sends = []

/-- The dispatcher is the first owner of a stream and never gets it back. -/
structure Dispatching (s : System) : Prop where
  early : s.shared.AtDispatcher → Unhanded s
  late : ¬ s.shared.AtDispatcher → s.All (·.dispatches = false)

namespace Context

variable {c : Context} {e : Event} {r : Context × List Call}

/-- The events of a stream at the dispatcher: a RECEIVE or nothing to do. -/
theorem early_handle (hdispatcher : c.AtDispatcher) (hrole : c.role = .serverOpen)
    (hhandle : c.asyncClientOpenHandle = false) (hdial : c.dialRequest = none)
    (hsends : c.sends = []) (h : c.handle e = some r) :
    (e.thread = .callback ∨ r.2 = []) ∧ EarlyCalls r.2 ∧
      (r.1.AtDispatcher ∨ e.thread = .callback ∧ r.2 = []) ∧
      r.1.serverOpenDispatched = c.serverOpenDispatched ∧ r.1.dialRequest = none ∧
        r.1.sends = [] := by
  have hregistered : c.registered = false := by
    rcases hdispatcher with htarget | htarget <;> simp [registered, htarget]
  cases e
  all_goals dsimp [handle] at h
  all_goals repeat' split at h
  all_goals cases h
  all_goals simp_all [AtDispatcher, EarlyCalls, Event.thread, emit]

theorem late_handle (hlate : ¬ c.AtDispatcher) (h : c.handle e = some r) :
    ¬ r.1.AtDispatcher ∧ ∀ call ∈ r.2, call.dispatches = false := by
  cases e
  all_goals dsimp [handle] at h
  all_goals repeat' split at h
  all_goals cases h
  all_goals simp_all [AtDispatcher, Call.dispatches, emit]

end Context

namespace Dispatching

variable {s : System}

theorem handle (h : Dispatching s) (hsides : Sides s) (hrole : s.shared.role = .serverOpen)
    {e : Event} {c : Context} {cs : List Call} (hh : s.shared.handle e = some (c, cs)) :
    Dispatching ({ s with shared := c }.setCalls e.thread cs) := by
  by_cases hat : s.shared.AtDispatcher
  · have hun := h.early hat
    obtain ⟨hthread, hcalls, hleft, hdispatched, hdial, hsends⟩ :=
      Context.early_handle hat hrole (hsides.sided.server hrole) hun.dial hun.sends hh
    have hothers (t : Thread) (ht : t ≠ .callback) :
        ({ s with shared := c }.setCalls e.thread cs).calls t = [] := by
      by_cases hte : t = e.thread
      · rw [hte, Machine.Pool.setCalls_calls_self]
        exact hthread.resolve_left fun hcallback => ht (hte.trans hcallback)
      · rw [Machine.Pool.setCalls_calls_of_ne hte]
        exact hun.idle t ht
    refine ⟨fun _ => ⟨hothers, ?_, hdispatched.trans hun.dispatched, hdial, hsends⟩,
      fun hnot t call hcall => ?_⟩
    · by_cases hcallback : e.thread = .callback
      · rw [hcallback, Machine.Pool.setCalls_calls_self]
        exact hcalls
      · rw [Machine.Pool.setCalls_calls_of_ne (Ne.symm hcallback)]
        exact hun.calls
    · -- the stream has ended, and no thread has anything left to do
      obtain ⟨hcallback, rfl⟩ := hleft.resolve_left hnot
      by_cases ht : t = .callback
      · rw [ht, hcallback, Machine.Pool.setCalls_calls_self] at hcall
        cases hcall
      · rw [hothers t ht] at hcall
        cases hcall
  · obtain ⟨hleft, hcalls⟩ := Context.late_handle hat hh
    exact ⟨fun hat' => absurd hat' hleft, fun _ => (h.late hat).setCalls hcalls⟩

theorem execute (h : Dispatching s) (hsides : Sides s) (hrole : s.shared.role = .serverOpen)
    {t : Thread} {io : Io} {call : Call} {rest : List Call} (hcalls : s.calls t = call :: rest) :
    Dispatching ({ s with shared := (s.shared.execute io call).1 }.setCalls t
      ((s.shared.execute io call).2 ++ rest)) := by
  by_cases hat : s.shared.AtDispatcher
  · have hun := h.early hat
    obtain rfl : t = .callback := by
      by_contra ht
      rw [hun.idle t ht] at hcalls
      cases hcalls
    obtain ⟨hearly, hrest, hnone⟩ := EarlyCalls.cons (hcalls ▸ hun.calls)
    obtain ⟨hleft, hdispatched, hdial, hsends⟩ := @Context.early_execute s.shared io call hat hearly
    have hothers (cs : List Call) (t : Thread) (ht : t ≠ .callback) :
        ({ s with shared := (s.shared.execute io call).1 }.setCalls .callback cs).calls t = [] := by
      rw [Machine.Pool.setCalls_calls_of_ne ht]
      exact hun.idle t ht
    rcases hleft with ⟨hat', hcs⟩ | ⟨htarget, hcs⟩
    · rw [hcs]
      refine ⟨fun _ => ⟨hothers _, ?_, hdispatched.trans hun.dispatched, hdial.trans hun.dial,
        hsends.trans hun.sends⟩,
        fun hnot => absurd hat' hnot⟩
      rw [Machine.Pool.setCalls_calls_self]
      exact hrest
    · -- the hand-off to the context
      rw [hcs]
      refine ⟨fun hat' => ?_, fun _ t call' hcall' => ?_⟩
      · rcases hat' with hat' | hat' <;> cases htarget.symm.trans hat'
      · by_cases ht : t = .callback
        · rw [ht, Machine.Pool.setCalls_calls_self] at hcall'
          rcases List.mem_cons.mp hcall' with rfl | hcall'
          · rfl
          · exact hnone call' hcall'
        · rw [hothers _ t ht] at hcall'
          cases hcall'
  · have hbelongs := hsides.belongs t call (by simp [hcalls])
    have hclient : call.client = false := by simpa [Call.belongs, hrole] using hbelongs
    obtain ⟨hleft, hnext⟩ := (@Context.onPath_execute s.shared io call hrole hclient).late hat
      (h.late hat t call (by simp [hcalls]))
    exact ⟨fun hat' => absurd hat' hleft, fun _ => (h.late hat).advance hcalls hnext⟩

end Dispatching

/-! ### Before the start of the relay -/

/-- Nothing of what `StartRelay` leads to has happened, and at most one response
was or will be submitted. -/
structure Unstarted (s : System) : Prop where
  started : s.shared.relayStarted = false
  target : s.shared.target ≠ .relay
  calls : s.All (·.afterStart = false)
  budget : budget s ≤ 1

/-- What holds along every run of a server. -/
structure ServerRun (s : System) : Prop where
  role : s.shared.role = .serverOpen
  sides : Sides s
  dispatching : Dispatching s
  unstarted : .startRelay ∉ s.shared.log → Unstarted s

namespace Context

variable {c : Context} {e : Event} {r : Context × List Call}

theorem unstarted_handle (htarget : c.target ≠ .relay) (h : c.handle e = some r) :
    r.1.relayStarted = c.relayStarted ∧ r.1.target ≠ .relay ∧
      ∀ call ∈ r.2, call.afterStart = false := by
  cases e
  all_goals dsimp [handle] at h
  all_goals repeat' split at h
  all_goals cases h
  all_goals simp_all [Call.afterStart, emit]

end Context

namespace ServerRun

variable {s s' : System}

theorem client_eq_false (h : ServerRun s) {t : Thread} {call : Call} (hcall : call ∈ s.calls t) :
    call.client = false := by
  simpa [Call.belongs, h.role] using h.sides.belongs t call hcall

theorem step (h : ServerRun s) {a : Action} (hstep : Tunnel.step s a = some s') : ServerRun s' := by
  have hgrows := grows_step hstep
  refine ⟨hgrows.role.trans h.role, h.sides.step hstep, ?_, fun hnot => ?_⟩
  · obtain ⟨e, c, cs, rfl, hh, -, rfl⟩ | ⟨t, io, call, rest, rfl, hcalls, rfl⟩ := step_cases hstep
    · exact h.dispatching.handle h.sides h.role hh
    · exact h.dispatching.execute h.sides h.role hcalls
  · have hun := h.unstarted fun hmem => hnot (hgrows.log.subset hmem)
    have hbudget : budget s' ≤ 1 := by
      have hnone : relayFails s a = false := by
        cases a with
        | event e => rfl
        | call t io =>
          rw [relayFails, decide_eq_false_iff_not]
          intro hhead
          have hmem := List.mem_of_mem_head? (Option.mem_def.mpr hhead)
          cases hun.calls t _ hmem
      have hle := budget_step hstep
      rw [hnone] at hle
      exact le_trans hle hun.budget
    obtain ⟨e, c, cs, rfl, hh, -, rfl⟩ | ⟨t, io, call, rest, rfl, hcalls, rfl⟩ := step_cases hstep
    · obtain ⟨hstarted, htarget, hnext⟩ := Context.unstarted_handle hun.target hh
      exact ⟨hstarted.trans hun.started, htarget, hun.calls.setCalls hnext, hbudget⟩
    · have hmem : call ∈ s.calls t := by simp [hcalls]
      obtain ⟨hstarted, htarget, hnext⟩ :=
        (@Context.onPath_execute s.shared io call h.role (h.client_eq_false hmem)).start
        (hun.calls t call hmem) hnot
      exact ⟨hstarted.trans hun.started, fun hrelay => hun.target (htarget hrelay),
        hun.calls.advance hcalls hnext, hbudget⟩

end ServerRun

theorem serverRun_server : ServerRun (start .server) := by
  refine ⟨rfl, sides_server, ⟨fun _ => ⟨fun _ _ => rfl, trivial, rfl, rfl, rfl⟩, fun hnot => ?_⟩,
    fun _ => ⟨rfl, ?_, ?_, ?_⟩⟩
  · exact absurd (.inl rfl) hnot
  · decide
  · rintro t call ⟨⟩
  · decide

end TcpQuicProxy.Tunnel
