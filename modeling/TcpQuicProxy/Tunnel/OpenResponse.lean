import TcpQuicProxy.Tunnel.Step

/-!
# The OPEN responses of the server

The server must answer an OPEN request at most once. Whether it has answered is
recorded nowhere, so the argument counts tokens: a response is paid for by the
one request of the stream, which is held by the opening buffer, by the dial or
by a call that can still lead to a response. Only a relay that fails to start
brings in a token of its own.
-/

namespace TcpQuicProxy.Tunnel

set_option maxRecDepth 2000
open Protocol

def openResponses (log : List Effect) : List OpenResponse :=
  log.filterMap fun | .openResponse response => some response | _ => none

@[simp] theorem openResponses_nil : openResponses [] = [] := rfl

@[simp] theorem openResponses_cons (e : Effect) (l : List Effect) :
    openResponses (e :: l) =
      (match e with | .openResponse response => [response] | _ => []) ++ openResponses l := by
  cases e <;> rfl

@[simp] theorem openResponses_ite (p : Prop) [Decidable p] (l : List Effect) :
    openResponses (if p then l else []) = if p then openResponses l else [] := apply_ite ..

@[simp] theorem openResponses_append (l l' : List Effect) :
    openResponses (l ++ l') = openResponses l ++ openResponses l' :=
  List.filterMap_append ..

/-- Calls that submit a response. -/
def Call.submits : Call → Nat
  | .sendOpenOk _ | .sendOpenFailureResponse _ => 1
  | _ => 0

/-- Calls that submit a response or lead to one. -/
def Call.leads : Call → Nat
  | .submitDial _ | .submitFailed | .beginServerDialCallback _ | .finishServerOpen ..
  | .checkAborted _
  | .recheckAborted _ | .sendOpenOk _ | .openOkFailed | .guardOpenFailure _
  | .sendOpenFailureResponse _ => 1
  | _ => 0

/-- The server learns that its relay did not start. -/
def Call.relayFailed : Call → Nat
  | .startRelayReturned false .startPendingServerRelay => 1
  | _ => 0

/-- The responses that the request and its dial can still lead to. -/
def Context.opens (c : Context) : Nat :=
  (!c.serverOpenDispatched).toNat + c.dialRequest.isSome.toNat

def Context.responses (c : Context) : Nat := (openResponses c.log).length

namespace Context

variable {c : Context} {io : Io} {call : Call}

/-- `n` tokens pay for what a call has done and for what follows it. -/
def Pays (c : Context) (n : Nat) (r : Context × List Call) : Prop :=
  r.1.responses + r.1.opens + Machine.total Call.leads r.2 ≤ c.responses + c.opens + n

/-- Except for a failed start of the relay, a call never brings in tokens, and
no call starts to submit a response on a stream that is down. -/
theorem pays_execute : c.Pays (call.leads + call.relayFailed) (c.execute io call) ∧
    (c.isAbortedOrShutdown →
      (c.execute io call).1.responses + Machine.total Call.submits (c.execute io call).2 ≤
      c.responses + call.submits) := by
  cases call with
  | startRelayReturned ok caller =>
    cases ok <;> cases caller <;>
      simp [Pays, execute, Call.leads, Call.submits, Call.relayFailed]
  | _ =>
    dsimp [execute]
    repeat' split
    all_goals simp_all [Pays, responses, opens, Call.leads, Call.submits, Call.relayFailed, emit]
    all_goals omega

/-- An event hands tokens over and brings in none. -/
theorem responses_handle {e : Event} {r : Context × List Call} (h : c.handle e = some r) :
    c.Pays 0 r ∧ Machine.total Call.submits r.2 = 0 ∧ r.1.responses = c.responses := by
  cases e
  all_goals dsimp [handle] at h
  all_goals repeat' split at h
  all_goals cases h
  all_goals simp_all [Pays, responses, opens, Call.leads, Call.submits, emit, Nat.add_assoc]

end Context

/-! ### Runs -/

/-- The responses that were submitted or are about to be. -/
def submitted (s : System) : Nat := s.potential Thread.all Context.responses Call.submits

/-- The responses that were submitted or may still be. -/
def budget (s : System) : Nat := s.potential Thread.all (fun c => c.responses + c.opens) Call.leads

/-- This action lets the server learn that its relay did not start. -/
def relayFails (s : System) : Action → Bool
  | .call t _ => (s.calls t).head? = some (.startRelayReturned false .startPendingServerRelay)
  | .event _ => false

theorem submitted_le_budget (s : System) : submitted s ≤ budget s := by
  have hle : ∀ call : Call, call.submits ≤ call.leads := by
    intro call
    cases call <;> simp [Call.submits, Call.leads]
  exact Nat.add_le_add (Nat.le_add_right ..) (Machine.Pool.tokens_mono hle)

theorem budget_step {s s' : System} {a : Action} (h : step s a = some s') :
    budget s' ≤ budget s + (relayFails s a).toNat := by
  apply potential_step h
  · rintro e r rfl hh
    exact (Context.responses_handle hh).1
  · rintro t io call rest rfl hcalls
    have hfails : call.relayFailed = (relayFails s (.call t io)).toNat := by
      rw [relayFails, hcalls]
      unfold Call.relayFailed
      split <;> simp_all
    have hpays := (@Context.pays_execute s.shared io call).1
    rwa [hfails, Context.Pays, ← Nat.add_assoc (_ + _) call.leads] at hpays

/-- A stream that is down gets no response that was not about to be submitted. -/
theorem submitted_step {s s' : System} {a : Action} (hdown : s.shared.isAbortedOrShutdown)
    (h : step s a = some s') :
    submitted s' ≤ submitted s := by
  apply @potential_step _ _ _ _ _ 0 h
  · rintro e r rfl hh
    obtain ⟨-, hsubmits, hresponses⟩ := Context.responses_handle hh
    rw [hsubmits, hresponses]
  · rintro t io call rest rfl -
    exact Context.pays_execute.2 hdown

/-- The one request of the stream pays for every response. -/
def OneResponse (s : System) : Prop :=
  submitted s ≤ 1 ∧ (s.shared.isAbortedOrShutdown = false → budget s ≤ 1)

/-- A relay of the server may fail to start only on a stream that was aborted or
shut down. -/
def RelayStarts (s : System) (a : Action) : Prop :=
  relayFails s a = true → s.shared.isAbortedOrShutdown = true

instance (s : System) (a : Action) : Decidable (RelayStarts s a) :=
  inferInstanceAs (Decidable (_ → _))

theorem oneResponse_step (s : System) (a : Action) (s' : System) (hs : OneResponse s)
    (hcond : RelayStarts s a) (h : step s a = some s') : OneResponse s' := by
  obtain ⟨hsubmitted, hbudget⟩ := hs
  by_cases hdown : s.shared.isAbortedOrShutdown = true
  · refine ⟨le_trans (submitted_step hdown h) hsubmitted, ?_⟩
    intro hup
    have hdown' := (grows_step h).down hdown
    rw [hup] at hdown'
    cases hdown'
  · have hfails : relayFails s a = false := by
      rw [← Bool.not_eq_true]
      exact fun hf => hdown (hcond hf)
    have hle : budget s' ≤ 1 := by
      have hstep := budget_step h
      rw [hfails] at hstep
      exact le_trans hstep (hbudget (Bool.eq_false_iff.mpr hdown))
    exact ⟨le_trans (submitted_le_budget s') hle, fun _ => hle⟩

/-- An OPEN request for 127.0.0.1:80 without flags. -/
def loopbackRequest : Bytes :=
  [0x54, 0x51, 0x01, 0x01, 0x00, 0x01, 0x00, 0x50, 0x00, 0x04, 127, 0, 0, 1, 0x00]

/-- The request arrives, its dial ends well and the server answers OPEN_OK. -/
def openedServer : List Action :=
  .event (.receive [loopbackRequest] false) :: List.replicate 6 (.call .callback {}) ++
    .event .dialCompleted :: List.replicate 7 (.call .dial {})

/-- Unless a relay fails to start on a stream that is still up, the server
submits at most one OPEN response. -/
theorem single_open_response {as : List Action} {s : System}
    (hstarts : Machine.Meets step RelayStarts (start .server) as)
    (hrun : Machine.run step (start .server) as = some s) :
    (openResponses s.shared.log).length ≤ 1 := by
  have hinit : OneResponse (start .server) := by
    constructor
    · decide
    · intro _
      decide
  obtain ⟨hsubmitted, -⟩ := Machine.invariant_of_meets oneResponse_step hinit hstarts hrun
  exact le_trans (Nat.le_add_right ..) hsubmitted

theorem single_open_response_opened :
    ∃ s, Machine.run step (start .server) openedServer = some s ∧
      openResponses s.shared.log = [⟨true, 0, 0⟩] ∧
      (openResponses s.shared.log).length ≤ 1 := by
  have hrun :
    (Machine.run step (start .server) openedServer).map (fun s => openResponses s.shared.log) =
      some [⟨true, 0, 0⟩] := by decide +kernel
  obtain ⟨s, hs, hlog⟩ := Option.map_eq_some_iff.mp hrun
  exact ⟨s, hs, hlog, single_open_response (by decide +kernel) hs⟩

/-- The worker cannot commit the relay, and the server sends OPEN_FAIL behind
the OPEN_OK that the client may have seen already. -/
def relayFailure : List Action :=
  openedServer ++
    [.event (.sendComplete 0), .call .callback {}, .call .callback {}, .call .callback {},
    .call .callback {}, .call .callback { relayCommitted := false }] ++
      List.replicate 6 (.call .callback {})

theorem open_fail_after_open_ok :
    ¬ ∀ as s, Machine.run step (start .server) as = some s →
      (openResponses s.shared.log).length ≤ 1 := by
  intro h
  have hrun :
    (Machine.run step (start .server) relayFailure).map (fun s => openResponses s.shared.log) =
      some [⟨true, 0, 0⟩, ⟨false, 5, 0⟩] := by decide +kernel
  obtain ⟨s, hs, hlog⟩ := Option.map_eq_some_iff.mp hrun
  have hle := h _ s hs
  rw [hlog] at hle
  exact absurd hle (by decide)

end TcpQuicProxy.Tunnel
