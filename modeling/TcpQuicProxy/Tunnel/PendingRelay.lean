import TcpQuicProxy.Tunnel.ServerRun

/-!
# The wake-up that starts the relay of a server

The thread that finishes the dial sends OPEN_OK and records afterwards that a
relay is pending. The completion of the send starts the pending relay, once. A
completion that comes before the record finds nothing to start, and nothing
else ever looks again.
-/

namespace TcpQuicProxy.Tunnel

set_option maxRecDepth 4000
open Machine Protocol List

/-- What the start of the relay waits for. -/
structure OpenSide where
  responses : List OpenResponse
  sends : List Target
  pendingServerRelay : Bool
  pendingOpenFailureShutdown : Bool

def Context.openSide (c : Context) : OpenSide where
  responses := openResponses c.log
  sends := c.sends
  pendingServerRelay := c.pendingServerRelay
  pendingOpenFailureShutdown := c.pendingOpenFailureShutdown

/-- The calls that change it. -/
def Call.answers : Call → Bool
  | .sendOpenOk _ | .sendOpenFailureResponse _ | .notePendingServerRelay _
  | .notePendingOpenFailureShutdown
  | .onSendComplete | .startPendingServerRelay => true
  | _ => false

/-- The section that records the pending relay. -/
def Call.notes : Call → Nat
  | .notePendingServerRelay _ => 1
  | _ => 0

/-- The handler of SEND_COMPLETE up to its look at the record. -/
def Call.completes : Call → Nat
  | .onSendComplete | .startPendingServerRelay => 1
  | _ => 0

def Call.startsRelay : Call → Nat
  | .startRelay .. => 1
  | _ => 0

def Call.notesFailure : Call → Nat
  | .notePendingOpenFailureShutdown => 1
  | _ => 0

namespace Context

variable {c : Context} {io : Io} {call : Call} {e : Event} {r : Context × List Call}

theorem openSide_execute (hquiet : call.answers = false) :
    (c.execute io call).1.openSide = c.openSide ∧
      total Call.notesFailure (c.execute io call).2 = 0 := by
  cases call
  case startRelayReturned ok caller =>
    cases ok <;> cases caller <;> simp [execute, Call.notesFailure]
  all_goals simp only [Call.answers, Bool.true_eq_false] at hquiet
  all_goals dsimp [execute]
  all_goals repeat' split
  all_goals simp_all [openSide, Call.notesFailure, emit]

/-- Only a completion takes a send away, and on a server that stays up only the
callback and the dial get something to do. -/
theorem openSide_handle (hhandle : c.asyncClientOpenHandle = false)
    (hup : r.1.isAbortedOrShutdown = false) (h : c.handle e = some r) :
    (r.1.openSide = c.openSide ∨
      ∃ index target, c.sends[index]? = some target ∧
        r.1.openSide = { c.openSide with sends := c.sends.eraseIdx index } ∧
        (target = .context → r.2 = [.onSendComplete])) ∧
      total Call.notesFailure r.2 = 0 ∧ (e.thread = .ingress ∨ e.thread = .control → r.2 = []) := by
  cases e
  case sendComplete index =>
    simp only [handle, sendComplete] at h
    split at h
    · next htarget =>
      cases h
      exact ⟨.inr ⟨index, _, htarget, rfl, fun _ => rfl⟩, rfl, by simp [Event.thread]⟩
    · next target hne htarget =>
      cases h
      exact ⟨.inr ⟨index, target, htarget, rfl, fun hcontext => absurd hcontext hne⟩, rfl, by
        simp [Event.thread]⟩
    · cases h
  all_goals dsimp [handle] at h
  all_goals repeat' split at h
  all_goals cases h
  all_goals simp_all [openSide, Call.notesFailure, Event.thread, isAbortedOrShutdown, emit]

end Context

def Accepted (responses : List OpenResponse) : Prop := ∃ response ∈ responses, response.ok = true

def Refused (responses : List OpenResponse) : Prop := ∃ response ∈ responses, response.ok = false

theorem not_accepted_and_refused {responses : List OpenResponse} (h : responses.length ≤ 1) :
    ¬ (Accepted responses ∧ Refused responses) := by
  rintro ⟨⟨r, hr, hok⟩, ⟨r', hr', hfail⟩⟩
  match responses, h with
  | [], _ => cases hr
  | [x], _ =>
    obtain rfl := mem_singleton.mp hr
    obtain rfl := mem_singleton.mp hr'
    rw [hok] at hfail
    cases hfail

/-- A context that has answered and not begun to start its relay has the relay
on record or is about to, and a completion is on its way or being handled. The
numbers count the outstanding calls that matter. -/
structure Context.Waits (c : Context) (notes completes starts failures : Nat) : Prop where
  sends : ∀ target ∈ c.sends, target = .context
  failure : 0 < c.pendingOpenFailureShutdown.toNat + failures → Refused (openResponses c.log)
  progress : Accepted (openResponses c.log) →
    0 < starts ∨ 0 < c.pendingServerRelay.toNat + notes ∧ 0 < c.sends.length + completes

namespace Context

variable {c c' : Context} {io : Io} {call : Call} {notes completes starts failures : Nat}

section

variable (h : c.Waits notes completes starts failures)
include h

theorem waits_of_openSide (hside : c'.openSide = c.openSide) :
    c'.Waits notes completes starts failures := by
  have hresponses : openResponses c'.log = openResponses c.log := congrArg OpenSide.responses hside
  have hsends : c'.sends = c.sends := congrArg OpenSide.sends hside
  have hpending : c'.pendingServerRelay = c.pendingServerRelay :=
    congrArg OpenSide.pendingServerRelay hside
  have hshutdown : c'.pendingOpenFailureShutdown = c.pendingOpenFailureShutdown :=
    congrArg OpenSide.pendingOpenFailureShutdown hside
  exact ⟨hsends ▸ h.sends, hresponses ▸ hshutdown ▸ h.failure,
    hresponses ▸ hpending ▸ hsends ▸ h.progress⟩

theorem Waits.mono {notes' completes' starts' : Nat} (hnotes : notes ≤ notes')
    (hcompletes : completes ≤ completes') (hstarts : starts ≤ starts') :
    c.Waits notes' completes' starts' failures := by
  refine ⟨h.sends, h.failure, fun haccepted => ?_⟩
  rcases h.progress haccepted with hstart | ⟨hnote, hcomplete⟩
  · exact .inl (by omega)
  · exact .inr ⟨by omega, by omega⟩

/-- A completion that is delivered takes the place of the send. -/
theorem waits_eraseIdx {index : Nat} {target : Target} (htarget : c.sends[index]? = some target)
    (hside : c'.openSide = { c.openSide with sends := c.sends.eraseIdx index }) :
    target = .context ∧ c'.Waits notes (completes + 1) starts failures := by
  have hresponses : openResponses c'.log = openResponses c.log := congrArg OpenSide.responses hside
  have hsends : c'.sends = c.sends.eraseIdx index := congrArg OpenSide.sends hside
  have hpending : c'.pendingServerRelay = c.pendingServerRelay :=
    congrArg OpenSide.pendingServerRelay hside
  have hshutdown : c'.pendingOpenFailureShutdown = c.pendingOpenFailureShutdown :=
    congrArg OpenSide.pendingOpenFailureShutdown hside
  refine ⟨h.sends target (mem_of_getElem? htarget),
    ⟨fun t ht => ?_, hresponses ▸ hshutdown ▸ h.failure, ?_⟩⟩
  · rw [hsends] at ht
    exact h.sends t (mem_of_mem_eraseIdx ht)
  · rw [hresponses, hpending]
    intro haccepted
    rcases h.progress haccepted with hstart | ⟨hnote, -⟩
    · exact .inl hstart
    · exact .inr ⟨hnote, by omega⟩

end

theorem length_sends_submitResponse (resp : OpenResponse) :
    (c.submitResponse resp).sends.length = c.sends.length + 1 := by
  simp [emit]

/-- One call of a server that is up and has not begun to start its relay. `hfirst`
says that a completion does not come before the record it looks for. -/
theorem waits_execute (hrole : c.role = .serverOpen) (hup : c.isAbortedOrShutdown = false)
    (hstarted : c.relayStarted = false) (hlength : (openResponses c.log).length ≤ 1)
    (htarget : ∀ resp, c.sendBytes io resp = true → call.answers = true → c.target = .context)
    (hfirst : call = .startPendingServerRelay → notes = 0)
    (hnot : .startRelay ∉ (c.execute io call).1.log)
    (h : c.Waits (notes + call.notes) (completes + call.completes) (starts + call.startsRelay)
      (failures + call.notesFailure)) :
    (c.execute io call).1.Waits (notes + total Call.notes (c.execute io call).2)
      (completes + total Call.completes (c.execute io call).2)
      (starts + total Call.startsRelay (c.execute io call).2)
      (failures + total Call.notesFailure (c.execute io call).2) := by
  by_cases hquiet : call.answers = false
  · obtain ⟨hside, hnone⟩ := @openSide_execute c io call hquiet
    have hweights :
        call.notesFailure = 0 ∧ call.notes = 0 ∧ call.completes = 0 ∧ call.startsRelay = 0 := by
      cases call <;>
        simp_all [Call.answers, Call.notesFailure, Call.notes, Call.completes, Call.startsRelay]
      case startRelay flags caller =>
        simp only [execute, startRelay] at hnot
        split_ifs at hnot <;> simp [emit] at hnot
    obtain ⟨hfailure, hnotes, hcompletes, hstarts⟩ := hweights
    rw [hnone]
    rw [hfailure, hnotes, hcompletes, hstarts] at h
    exact (waits_of_openSide h hside).mono (by omega) (by omega) (by omega)
  cases call <;> simp only [Call.answers, not_true_eq_false] at hquiet
  case sendOpenOk flags =>
    simp only [execute, sendOpenOk]
    split
    · next hsend =>
      have hcontext := htarget _ hsend rfl
      refine ⟨?_, ?_, fun _ => .inr ⟨?_, ?_⟩⟩
      · exact forall_mem_append.mpr ⟨h.sends, forall_mem_singleton.mpr hcontext⟩
      · intro hpos
        obtain ⟨r, hr, hrefused⟩ := h.failure hpos
        exact ⟨r, by simp [emit, hr], hrefused⟩
      · simp only [total_cons, Call.notes]
        omega
      · rw [length_sends_submitResponse]
        omega
    · exact h
  case sendOpenFailureResponse error =>
    simp only [execute, sendOpenFailureResponse]
    split
    · next hsend =>
      have hcontext := htarget _ hsend rfl
      refine ⟨?_, fun _ => ?_, fun haccepted => ?_⟩
      · exact forall_mem_append.mpr ⟨h.sends, forall_mem_singleton.mpr hcontext⟩
      · exact ⟨{ ok := false, error := error.code, connId := 0 }, by simp [emit], rfl⟩
      · have hold : Accepted (openResponses c.log) := by
          obtain ⟨r, hr, hok⟩ := haccepted
          simp only [submitResponse, emit, openResponses_append, openResponses_cons,
            openResponses_nil, mem_append,
            mem_cons, not_mem_nil, or_false] at hr
          rcases hr with hr | rfl
          · exact ⟨r, hr, hok⟩
          · cases hok
        rcases h.progress hold with hstart | ⟨hnote, hcomplete⟩
        · exact .inl hstart
        · refine .inr ⟨hnote, ?_⟩
          rw [length_sends_submitResponse]
          omega
    · exact h
  case notePendingServerRelay flags =>
    simp only [execute, notePendingServerRelay, hup, Bool.false_eq_true, ↓reduceIte]
    refine ⟨h.sends, h.failure, fun haccepted => ?_⟩
    rcases h.progress haccepted with hstart | ⟨-, hcomplete⟩
    · exact .inl hstart
    · exact .inr ⟨Nat.lt_of_lt_of_le Nat.one_pos (Nat.le_add_right 1 _), hcomplete⟩
  case notePendingOpenFailureShutdown =>
    have hrefused := h.failure (by simp only [Call.notesFailure]; omega)
    exact ⟨h.sends, fun _ => hrefused, h.progress⟩
  case onSendComplete =>
    simp only [execute, onSendComplete, hrole]
    split
    · next hshutdown =>
      -- a refused open has no relay to wait for
      have hrefused := h.failure (by rw [hshutdown, Bool.toNat_true]; omega)
      exact ⟨h.sends, fun _ => hrefused,
        fun haccepted => absurd ⟨haccepted, hrefused⟩ (not_accepted_and_refused hlength)⟩
    · exact h
  case startPendingServerRelay =>
    have hnone : notes = 0 := hfirst rfl
    have hcomplete : c.shutdownComplete = false ∧ c.streamShutdownQueued = false := by
      simp only [isAbortedOrShutdown, Bool.or_eq_false_iff] at hup
      exact ⟨hup.1.2, hup.2⟩
    simp only [execute, startPendingServerRelay]
    split
    · next hidle =>
      have hpending : c.pendingServerRelay = false := by
        simpa [hstarted, hcomplete.1, hcomplete.2] using hidle
      refine ⟨h.sends, h.failure, fun haccepted => ?_⟩
      rcases h.progress haccepted with hstart | ⟨hnote, -⟩
      · exact .inl hstart
      · rw [hpending, hnone] at hnote
        cases hnote
    · exact ⟨h.sends, h.failure, fun _ => .inl (by simp [Call.startsRelay])⟩

end Context

/-! ### Runs -/

/-- A server that is up waits for its relay, and neither the ingress nor the
connection has anything to do for it. -/
structure Waiting (s : System) : Prop where
  ingress : s.calls .ingress = []
  control : s.calls .control = []
  context : s.shared.Waits (s.tokens Thread.all Call.notes) (s.tokens Thread.all Call.completes)
    (s.tokens Thread.all Call.startsRelay) (s.tokens Thread.all Call.notesFailure)

/-- A completion looks for a pending relay only after the thread that sent the
response has recorded it. -/
def NotedFirst (s : System) : Action → Prop
  | .event _ => True
  | .call t _ => (s.calls t).head? = some .startPendingServerRelay →
      s.tokens Thread.all Call.notes = 0

instance (s : System) : ∀ a, Decidable (NotedFirst s a)
  | .event _ => isTrue trivial
  | .call _ _ => inferInstanceAs (Decidable (_ → _))

namespace Waiting

variable {s : System}

theorem handle (h : Waiting s) (hhandle : s.shared.asyncClientOpenHandle = false) {e : Event}
    {c : Context} {cs : List Call} (hup : c.isAbortedOrShutdown = false)
    (hh : s.shared.handle e = some (c, cs)) (hidle : s.calls e.thread = []) :
    Waiting ({ s with shared := c }.setCalls e.thread cs) := by
  obtain ⟨hside, hfailure, hothers⟩ := Context.openSide_handle hhandle hup hh
  have htokens (weight : Call → Nat) :
      ({ s with shared := c }.setCalls e.thread cs).tokens Thread.all weight =
      s.tokens Thread.all weight + total weight cs :=
    Pool.tokens_enter Thread.nodup_all (Thread.mem_all e.thread) hidle c cs
  have hidle' (t : Thread) (ht : t = .ingress ∨ t = .control) (hold : s.calls t = []) :
      ({ s with shared := c }.setCalls e.thread cs).calls t = [] := by
    by_cases hte : t = e.thread
    · subst hte
      rw [Pool.setCalls_calls_self]
      exact hothers ht
    · rw [Pool.setCalls_calls_of_ne hte]
      exact hold
  refine ⟨hidle' .ingress (.inl rfl) h.ingress, hidle' .control (.inr rfl) h.control, ?_⟩
  rw [htokens, htokens, htokens, htokens, hfailure]
  rcases hside with hside | ⟨index, target, htarget, hside, hcs⟩
  · exact (Context.waits_of_openSide h.context hside).mono (by omega) (by omega) (by omega)
  · obtain ⟨hcontext, hwaits⟩ := Context.waits_eraseIdx h.context htarget hside
    obtain rfl : cs = [.onSendComplete] := hcs hcontext
    exact hwaits

variable {t : Thread} {io : Io} {call : Call} {rest : List Call}

/-- The context is the target of a stream whose server has something to answer. -/
theorem target_of_sendBytes (hrun : ServerRun s) (hun : Unstarted s)
    (hcalls : s.calls t = call :: rest) (hcall : call.early = false) {resp : OpenResponse}
    (hsend : s.shared.sendBytes io resp = true) :
    s.shared.target = .context := by
  have hlate : ¬ s.shared.AtDispatcher := by
    intro hat
    have hunhanded := hrun.dispatching.early hat
    by_cases ht : t = .callback
    · subst ht
      obtain ⟨hearly, -⟩ := EarlyCalls.cons (hcalls ▸ hunhanded.calls)
      rw [hcall] at hearly
      cases hearly
    · rw [hunhanded.idle t ht] at hcalls
      cases hcalls
  have hgone : s.shared.target ≠ .gone := by
    intro hgone
    simp [Context.sendBytes, hgone] at hsend
  have hrelay := hun.target
  unfold Context.AtDispatcher at hlate
  cases htarget : s.shared.target <;> simp_all

theorem execute (h : Waiting s) (hrun : ServerRun s) (hup : s.shared.isAbortedOrShutdown = false)
    (hnot : .startRelay ∉ (s.shared.execute io call).1.log) (hcond : NotedFirst s (.call t io))
    (hcalls : s.calls t = call :: rest) :
    Waiting ({ s with shared := (s.shared.execute io call).1 }.setCalls t
      ((s.shared.execute io call).2 ++ rest)) := by
  have hun : Unstarted s := hrun.unstarted fun hmem => hnot (Context.grows_execute.log.subset hmem)
  have hlength : (openResponses s.shared.log).length ≤ 1 := by
    have hbudget : (openResponses s.shared.log).length + s.shared.opens +
        s.tokens Thread.all Call.leads ≤ 1 := hun.budget
    omega
  have hothers (t' : Thread) (hold : s.calls t' = []) :
      ({ s with shared := (s.shared.execute io call).1 }.setCalls t
      ((s.shared.execute io call).2 ++ rest)).calls t' = [] := by
    have hne : t' ≠ t := by
      rintro rfl
      rw [hcalls] at hold
      cases hold
    rw [Pool.setCalls_calls_of_ne hne]
    exact hold
  -- the outstanding calls besides this one
  have hsplit (weight : Call → Nat) : ∃ n, s.tokens Thread.all weight = n + weight call ∧
      ({ s with shared := (s.shared.execute io call).1 }.setCalls t
        ((s.shared.execute io call).2 ++ rest)).tokens
        Thread.all weight = n + total weight (s.shared.execute io call).2 := by
    have htokens :=
      @Pool.tokens_advance _ _ _ _ s t call rest _ weight Thread.nodup_all (Thread.mem_all t) hcalls
      (s.shared.execute io call).1 (s.shared.execute io call).2
    have hle : weight call ≤ s.tokens Thread.all weight :=
      Pool.weight_le_tokens (Thread.mem_all t) (by simp [hcalls])
    exact ⟨s.tokens Thread.all weight - weight call, by omega, by omega⟩
  obtain ⟨notes, hnotes, hnotes'⟩ := hsplit Call.notes
  obtain ⟨completes, hcompletes, hcompletes'⟩ := hsplit Call.completes
  obtain ⟨starts, hstarts, hstarts'⟩ := hsplit Call.startsRelay
  obtain ⟨failures, hfailures, hfailures'⟩ := hsplit Call.notesFailure
  have hcontext := h.context
  rw [hnotes, hcompletes, hstarts, hfailures] at hcontext
  refine ⟨hothers .ingress h.ingress, hothers .control h.control, ?_⟩
  rw [hnotes', hcompletes', hstarts', hfailures']
  refine Context.waits_execute hrun.role hup hun.started hlength ?_ ?_ hnot hcontext
  · intro resp hsend hanswers
    have hearly : call.early = false := by
      cases call <;> first | rfl | cases hanswers
    exact target_of_sendBytes hrun hun hcalls hearly hsend
  · rintro rfl
    have hzero := hcond (by rw [hcalls]; rfl)
    omega

end Waiting

/-- The invariant of the runs of a server in which every record comes first. -/
structure AwaitsRelay (s : System) : Prop where
  run : ServerRun s
  waiting : s.shared.isAbortedOrShutdown = false → .startRelay ∉ s.shared.log → Waiting s

theorem awaitsRelay_step {s s' : System} {a : Action} (h : AwaitsRelay s) (hcond : NotedFirst s a)
    (hstep : step s a = some s') : AwaitsRelay s' := by
  refine ⟨h.run.step hstep, fun hup hnot => ?_⟩
  have hgrows := grows_step hstep
  have hup' : s.shared.isAbortedOrShutdown = false := by
    rw [Bool.eq_false_iff]
    intro hdown
    exact absurd (hgrows.down hdown) (by simp [hup])
  have hwaiting := h.waiting hup' fun hmem => hnot (hgrows.log.subset hmem)
  obtain ⟨e, c, cs, rfl, hh, hidle, rfl⟩ | ⟨t, io, call, rest, rfl, hcalls, rfl⟩ := step_cases hstep
  · exact hwaiting.handle (h.run.sides.sided.server h.run.role) hup hh hidle
  · exact hwaiting.execute h.run hup' hnot hcond hcalls

theorem awaitsRelay_server : AwaitsRelay (start .server) := by
  refine ⟨serverRun_server, fun _ _ => ⟨rfl, rfl, ⟨?_, ?_, ?_⟩⟩⟩
  · rintro t ⟨⟩
  · intro hpos
    cases hpos
  · rintro ⟨r, ⟨⟩, -⟩

/-- **The start of the relay is not lost.** If every completion finds the record
it looks for, a server that sent OPEN_OK, got the completion and is done with
the dial has begun to start its relay, unless its stream was aborted or shut
down. -/
theorem relay_start_attempted (as : List Action) (s : System)
    (hfirst : Meets step NotedFirst (start .server) as)
    (hrun : run step (start .server) as = some s) (hup : s.shared.isAbortedOrShutdown = false)
    (hok : ∃ response ∈ openResponses s.shared.log, response.ok = true)
    (hcompleted : s.shared.sends = []) (hcallback : s.calls .callback = [])
    (hdial : s.calls .dial = []) : .startRelay ∈ s.shared.log := by
  have hawaits :=
    invariant_of_meets (fun _ _ _ h hc hs => awaitsRelay_step h hc hs)
      awaitsRelay_server hfirst hrun
  by_contra hnot
  have hwaiting := hawaits.waiting hup hnot
  have hnone (weight : Call → Nat) : s.tokens Thread.all weight = 0 := by
    simp [Pool.tokens, Thread.all, hcallback, hdial, hwaiting.ingress, hwaiting.control]
  rcases hwaiting.context.progress hok with hstart | ⟨-, hcomplete⟩
  · rw [hnone] at hstart
    cases hstart
  · rw [hnone, hcompleted] at hcomplete
    cases hcomplete

/-- The completion comes after the record, and the relay starts. -/
def startedServer : List Action :=
  openedServer ++ .event (.sendComplete 0) :: List.replicate 8 (.call .callback {})

theorem startedServer_attempted :
    ∃ s, run step (start .server) startedServer = some s ∧ s.shared.isAbortedOrShutdown = false ∧
      .startRelay ∈ s.shared.log := by
  have htrace :
    (run step (start .server) startedServer).map (fun s => (s.shared.isAbortedOrShutdown,
      openResponses s.shared.log, s.shared.sends, s.calls .callback, s.calls .dial)) =
        some (false, [⟨true, 0, 0⟩], [], [], []) := by decide +kernel
  obtain ⟨s, hs, hobs⟩ := Option.map_eq_some_iff.mp htrace
  simp only [Prod.mk.injEq] at hobs
  obtain ⟨hup, hresponses, hsends, hcallback, hdial⟩ := hobs
  exact ⟨s, hs, hup, relay_start_attempted startedServer s (by decide +kernel) hs hup
    ⟨_, hresponses ▸ mem_singleton_self _, rfl⟩
    hsends hcallback hdial⟩

/-- The completion comes between the send and the record. -/
def lostWakeup : List Action :=
  .event (.receive [loopbackRequest] false) :: List.replicate 6 (.call .callback {}) ++
    .event .dialCompleted :: List.replicate 5 (.call .dial {}) ++
    [.event (.sendComplete 0), .call .callback {}, .call .callback {}, .call .dial {},
      .call .dial {}]

theorem relay_start_lost :
    ¬ ∀ as s, run step (start .server) as = some s → s.shared.isAbortedOrShutdown = false →
      (∃ response ∈ openResponses s.shared.log, response.ok = true) → s.shared.sends = [] →
        s.calls .callback = [] →
      s.calls .dial = [] → .startRelay ∈ s.shared.log := by
  intro h
  have htrace : (run step (start .server) lostWakeup).map (fun s =>
      (s.shared.isAbortedOrShutdown || decide (.startRelay ∈ s.shared.log),
        openResponses s.shared.log, s.shared.sends,
        s.calls .callback, s.calls .dial)) = some (false, [⟨true, 0, 0⟩], [], [], []) := by
          decide +kernel
  obtain ⟨s, hs, hobs⟩ := Option.map_eq_some_iff.mp htrace
  simp only [Prod.mk.injEq, Bool.or_eq_false_iff, decide_eq_false_iff_not] at hobs
  obtain ⟨⟨hup, hnot⟩, hresponses, hsends, hcallback, hdial⟩ := hobs
  exact hnot (h _ s hs hup ⟨_, hresponses ▸ mem_singleton_self _, rfl⟩ hsends hcallback hdial)

end TcpQuicProxy.Tunnel
