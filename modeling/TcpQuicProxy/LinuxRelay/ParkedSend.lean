import TcpQuicProxy.LinuxRelay.SendSide
import TcpQuicProxy.LinuxRelay.Steps

/-!
# Who wakes a parked send

A send that meets backpressure is parked, and reading from TCP is paused. The
worker tries parked sends again at the end of a pass over its event queue, and
it resumes reading when a completion has made room; there is no timer. So a
relay with something parked or paused goes on only if a completion is still to
come. That holds as long as backpressure is reported beside an outstanding send
and no retried send is refused.
-/

namespace TcpQuicProxy.LinuxRelay

open Machine List Relay

/-- Nothing besides stop signals; above all no send is parked alone. -/
def regulated : Permits where
  stops := True
  parksAlone := False

/-- An upload that goes on by itself. `done` are the completions on their way to
the worker; `retry` and `resume` say that the worker will still get to a retry
and to the resume behind a completion. -/
structure SendSide.Flows (done : List SendOperation) (retry resume : Prop)
    (s : SendSide) : Prop where
  stream : s.streamOpen = true
  sends : s.outstandingQuicSends = (s.inFlight ++ done).length
  bytes : s.outstandingQuicSendBytes = total SendOperation.totalBytes (s.inFlight ++ done)
  parked : s.pendingQuicSendRetries ≠ [] → 0 < s.outstandingQuicSends ∨ retry
  paused : s.tcpReadPaused = true → s.tcpReadClosed = true ∨ 0 < s.outstandingQuicSends ∨ resume

def SendSide.Flowing (done : List SendOperation) (retry resume : Prop) (s : SendSide) : Prop :=
  s.closing = true ∨ s.Flows done retry resume

namespace SendSide

variable {s s' : SendSide} {done done' : List SendOperation} {retry retry' resume resume' : Prop}

theorem threshold_pos : 0 < s.threshold := by
  unfold threshold
  split
  · exact Nat.succ_pos _
  next h => exact Nat.pos_of_ne_zero h

namespace Flows

section

variable (h : s.Flows done retry resume)
include h

theorem mono (hdone : done.Perm done') (hretry : retry → retry')
    (hresume : resume → resume') : s.Flows done' retry' resume' where
  stream := h.stream
  sends := h.sends.trans (hdone.append_left s.inFlight).length_eq
  bytes := h.bytes.trans (total_perm (hdone.append_left s.inFlight))
  parked hp := (h.parked hp).imp_right hretry
  paused hp := (h.paused hp).imp_right (.imp_right hresume)

/-- Bytes are outstanding only with a send that carries them. -/
theorem outstanding_of_bytes (hbytes : 0 < s.outstandingQuicSendBytes) :
    0 < s.outstandingQuicSends := by
  rw [h.bytes] at hbytes
  rw [h.sends, length_pos_iff]
  intro hnil
  rw [hnil, total_nil] at hbytes
  exact Nat.lt_irrefl 0 hbytes

theorem outstanding_of_threshold (hfull : s.threshold ≤ s.outstandingQuicSendBytes) :
    0 < s.outstandingQuicSends :=
  h.outstanding_of_bytes (Nat.lt_of_lt_of_le threshold_pos hfull)

theorem send (op : SendOperation) : (s.send op).Flows done retry' resume' := by
  have hmoved : (s.inFlight ++ [op] ++ done).Perm (op :: (s.inFlight ++ done)) := by
    rw [append_assoc]
    exact perm_middle
  refine { stream := h.stream, sends := ?_, bytes := ?_, parked := fun _ => .inl ?_,
           paused := fun _ => .inr (.inl ?_) }
  · show s.outstandingQuicSends + 1 = (s.inFlight ++ [op] ++ done).length
    rw [hmoved.length_eq, length_cons, h.sends]
  · show s.outstandingQuicSendBytes + op.totalBytes =
      total SendOperation.totalBytes (s.inFlight ++ [op] ++ done)
    rw [total_perm hmoved, total_cons, h.bytes, Nat.add_comm]
  · exact Nat.succ_pos _
  · exact Nat.succ_pos _

theorem park (op : SendOperation) (hpos : 0 < s.outstandingQuicSends) :
    (s.park op).Flows done retry' resume' where
  stream := h.stream
  sends := h.sends
  bytes := h.bytes
  parked _ := .inl hpos
  paused _ := .inr (.inl hpos)

end
end Flows

section

variable (h : s.Flowing done retry resume)
include h

theorem Flowing.move (hmove : s.Move regulated s') : s'.Flowing done retry resume := by
  rcases h with hclosing | h
  · exact .inl (hmove.closing hclosing)
  cases hmove with
  | handoff graceful _ => exact .inl (closing_handoff graceful)
  | stop _ => exact .inr ⟨h.stream, h.sends, h.bytes, h.parked, h.paused⟩
  | send op _ => exact .inr (h.send op)
  | park op _ hpark => exact .inr (h.park op (hpark.resolve_left id))
  | pause hfull =>
    exact .inr ⟨h.stream, h.sends, h.bytes, h.parked,
      fun _ => .inr (.inl (h.outstanding_of_threshold hfull))⟩
  | resume => exact .inr ⟨h.stream, h.sends, h.bytes, h.parked, fun hp => (by cases hp)⟩
  | eof => exact .inr ⟨h.stream, h.sends, h.bytes, h.parked, fun _ => .inl rfl⟩

theorem Flowing.leads (hleads : s.Leads regulated s') : s'.Flowing done retry resume := by
  induction hleads with
  | refl => exact h
  | tail _ hmove ih => exact ih.move hmove

theorem Flowing.mono (hdone : done.Perm done') (hretry : retry → retry')
    (hresume : resume → resume') : s.Flowing done' retry' resume' :=
  h.imp_right fun h => h.mono hdone hretry hresume

end
end SendSide

/-! ### The functions that end an outstanding send or try one again -/

namespace Relay

variable (cfg : Config) {r : Relay} {done : List SendOperation} {retry resume : Prop}

abbrev Flowing (done : List SendOperation) (retry resume : Prop) (r : Relay) : Prop :=
  r.sendSide.Flowing done retry resume

theorem Flowing.answering (h : r.Flowing done retry resume) (io : Io) :
    (r.answering io).Flowing done retry resume :=
  h.imp_right fun h => ⟨h.stream, h.sends, h.bytes, h.parked, h.paused⟩

theorem closing_accountQuicSend {op : SendOperation} (hclosing : r.closing = true) :
    (r.accountQuicSend op).closing = true := by
  simp only [accountQuicSend, if_pos hclosing]
  split <;> exact hclosing

/-- `accountQuicSend` takes the report of a completion. What is parked now needs
the retry, and a paused TCP side the resume. -/
theorem Flowing.accountQuicSend {op : SendOperation} (h : r.Flowing (op :: done) retry resume) :
    (r.accountQuicSend op).Flowing done True True := by
  rcases h with hclosing | h
  · exact .inl (closing_accountQuicSend hclosing)
  have hmoved : (r.inFlight ++ op :: done).Perm (op :: (r.inFlight ++ done)) := perm_middle
  have hsends : r.outstandingQuicSends = (r.inFlight ++ op :: done).length := h.sends
  have hbytes : r.outstandingQuicSendBytes =
      total SendOperation.totalBytes (r.inFlight ++ op :: done) := h.bytes
  rw [hmoved.length_eq, length_cons] at hsends
  rw [total_perm hmoved, total_cons] at hbytes
  simp only [Relay.accountQuicSend]
  split
  next hclosing => exact .inl (by split <;> exact hclosing)
  · refine .inr
      { stream := h.stream
        sends := ?_
        bytes := ?_
        parked := fun _ => .inr trivial
        paused := fun _ => .inr (.inr trivial) }
    · show r.outstandingQuicSends - 1 = (r.inFlight ++ done).length
      omega
    · show r.outstandingQuicSendBytes - op.totalBytes =
        total SendOperation.totalBytes (r.inFlight ++ done)
      omega

/-- Behind `resumeTcpRead` a pause has an outstanding send as its reason. -/
theorem Flowing.resumeTcpRead (h : r.Flowing done retry True) :
    r.resumeTcpRead.Flowing done retry resume := by
  rcases h with hclosing | h
  · exact SendSide.Flowing.leads (.inl hclosing) leads_resumeTcpRead
  unfold Relay.resumeTcpRead
  split
  · unfold Flowing
    rw [sendSide_of_sides (sides_armTcpReadable _ _)]
    exact .inr ⟨h.stream, h.sends, h.bytes, h.parked, fun hp => (by cases hp)⟩
  next hstays =>
    refine .inr ⟨h.stream, h.sends, h.bytes, h.parked, fun _ => ?_⟩
    simp only [Bool.and_eq_true, Bool.not_eq_true', not_and, Bool.not_eq_true] at hstays
    cases hread : r.tcpReadClosed with
    | true => exact .inl hread
    | false =>
      have hfull := hstays hread
      simp only [shouldResumeTcpReadForQuicBacklog, Bool.or_eq_false_iff, decide_eq_false_iff_not,
        not_lt] at hfull
      exact .inr (.inl (h.outstanding_of_threshold hfull.2))

theorem Flowing.handleQuicIdealSendBuffer (h : r.Flowing done retry resume) (byteCount : Nat) :
    (r.handleQuicIdealSendBuffer byteCount).Flowing done retry resume := by
  unfold Relay.handleQuicIdealSendBuffer
  split
  · exact h
  · let r' : Relay := { r with idealSendBufferBytes := max r.idealSendBufferBytes byteCount }
    have hlarger : r'.Flowing done retry resume :=
      h.imp_right fun h => ⟨h.stream, h.sends, h.bytes, h.parked, h.paused⟩
    exact SendSide.Flowing.leads hlarger leads_resumeTcpRead

/-- A retry is not refused, and meets backpressure only beside an outstanding
send. -/
def retriesBeside (r : Relay) : Bool :=
  r.retryGranted && (r.closing || r.pendingQuicSendRetries = [] || r.parksBeside)

theorem Flowing.retryPendingQuicSends (h : r.Flowing done retry resume)
    (hretries : r.retriesBeside = true) {retry' : Prop} :
    r.retryPendingQuicSends.Flowing done retry' resume := by
  rcases h with hclosing | h
  · have hsame : r.retryPendingQuicSends = r := if_pos hclosing
    rw [hsame]
    exact .inl hclosing
  rw [retriesBeside, Bool.and_eq_true] at hretries
  obtain ⟨hgranted, hbeside⟩ := hretries
  have hpopped (rest : List SendOperation) :
      SendSide.Flows done True True { r.sendSide with pendingQuicSendRetries := rest } :=
    ⟨h.stream, h.sends, h.bytes, fun _ => .inr trivial, fun _ => .inr (.inr trivial)⟩
  have hspec : Retries regulated r r.retryPendingQuicSends :=
    retries_retryPendingQuicSends (fun _ => h.stream) hgranted
  generalize r.retryPendingQuicSends = r' at hspec ⊢
  cases hspec with
  | closed hclosing => exact .inl hclosing
  | drained hnil =>
    exact SendSide.Flowing.leads
      (.inr ⟨h.stream, h.sends, h.bytes, fun hp => absurd hnil hp, h.paused⟩) leads_resumeTcpRead
  | sent op rest _ _ hside => exact SendSide.Flowing.leads (.inr ((hpopped rest).send op)) hside
  | parked op rest hcons hfull _ hside =>
    simp only [hcons, reduceCtorEq, decide_false, Bool.or_false, Bool.or_eq_true] at hbeside
    rcases hbeside with hclosing | hbeside
    · exact SendSide.Flowing.leads (.inl hclosing) hside
    · exact SendSide.Flowing.leads
        (.inr ((hpopped rest).park op (outstanding_of_parksBeside hbeside hfull))) hside

theorem Flowing.processQuicShutdownComplete (h : r.Flowing done retry resume) :
    (r.processQuicShutdownComplete cfg).Flowing done retry resume := by
  simp only [Relay.processQuicShutdownComplete]
  split_ifs
  · exact h
  · exact .inl (congrArg SendSide.closing (sendSide_abortRelayAndRelease cfg _))
  · exact .inl (closing_unregisterRelayLocal cfg _)

end Relay

/-! ### The worker -/

def Call.sent : Call → Option SendOperation
  | .completeQuicSend op => some op
  | _ => none

/-- Calls that may take up the report of a completion. -/
def Call.takesReports : Call → Bool
  | .drainQuicSendCompletionFallbacks => true
  | .popEvents _ => true
  | .completeQuicSend _ => true
  | _ => false

/-- The worker takes up reports only in a pass that ends with a retry. -/
def retryFollows : List Call → Bool
  | [] => true
  | c :: rest => (!c.takesReports || rest.contains .retryPendingQuicSends) && retryFollows rest

theorem retryFollows_append {calls rest : List Call} (h : retryFollows rest = true)
    (hcalls : rest.contains .retryPendingQuicSends = true ∨
      calls.all (fun c => !c.takesReports) = true) :
    retryFollows (calls ++ rest) = true := by
  induction calls with
  | nil => exact h
  | cons c calls ih =>
    rw [cons_append, retryFollows, Bool.and_eq_true]
    rcases hcalls with hretry | hquiet
    · refine ⟨?_, ih (.inl hretry)⟩
      have hmem : (calls ++ rest).contains .retryPendingQuicSends = true := by
        rw [contains_iff_mem] at hretry ⊢
        exact mem_append_right calls hretry
      rw [hmem, Bool.or_true]
    · rw [all_cons, Bool.and_eq_true] at hquiet
      refine ⟨?_, ih (.inr hquiet.2)⟩
      rw [hquiet.1, Bool.true_or]

theorem QueueEvent.calls_sent (e : QueueEvent) : e.calls.filterMap Call.sent = e.sent.toList := by
  cases e with
  | terminal event => cases event <;> rfl
  | _ => rfl

namespace Worker

variable (cfg : Config) {w w' : Worker}

/-- Completions that the worker has not accounted for. -/
def completions (w : Worker) : List SendOperation := w.reported ++ w.calls.filterMap Call.sent

structure Flowing (w : Worker) : Prop where
  retries : retryFollows w.calls = true
  relay : w.relay.Flowing w.completions (.retryPendingQuicSends ∈ w.calls)
    (.resumeAfterQuicSend ∈ w.calls)

theorem Flowing.delivers (h : w.Flowing) (hdelivers : Delivers w w') : w'.Flowing := by
  cases hdelivers with
  | spares hspares =>
    obtain ⟨hcalls, hreported, ready, hside⟩ := hspares
    have hdone : w'.completions = w.completions := by
      rw [completions, completions, hreported, hcalls]
    refine ⟨by rw [hcalls]; exact h.retries, ?_⟩
    rw [hdone, hcalls, Relay.Flowing, hside]
    exact h.relay.imp_right fun h => ⟨h.stream, h.sends, h.bytes, h.parked, h.paused⟩
  | failed hspares =>
    obtain ⟨hcalls, hreported, ready, hside⟩ := hspares
    have hcalls : w'.calls = w.calls := hcalls
    have hdone : w'.completions = w.completions := by
      rw [completions, completions, hreported, hcalls]
      rfl
    refine ⟨by rw [hcalls]; exact h.retries, ?_⟩
    rw [hdone, hcalls, Relay.Flowing, hside, sendSide_failManagedBinding]
    exact h.relay.imp_right fun h => ⟨h.stream, h.sends, h.bytes, h.parked, h.paused⟩
  | sent index op hop hcalls hreported hside =>
    refine ⟨by rw [hcalls]; exact h.retries, ?_⟩
    have hdone : (op :: w.completions).Perm w'.completions := by
      rw [completions, completions, hcalls]
      exact (hreported.append_right _).symm
    rw [hcalls, Relay.Flowing, hside]
    refine SendSide.Flowing.mono ?_ hdone id id
    refine h.relay.imp_right fun h => ?_
    have hmoved : (w.relay.inFlight.eraseIdx index ++ op :: w.completions).Perm
        (w.relay.inFlight ++ w.completions) := by
      obtain ⟨hindex, rfl⟩ := List.getElem?_eq_some_iff.mp hop
      exact perm_middle.trans ((getElem_cons_eraseIdx_perm hindex).append_right _)
    exact ⟨h.stream, h.sends.trans hmoved.length_eq.symm, h.bytes.trans (total_perm hmoved).symm,
      h.parked, h.paused⟩

theorem filterMap_sent_eq_nil {new : List Call} (hnew : new.all (fun c => !c.takesReports) = true) :
    new.filterMap Call.sent = [] := by
  rw [filterMap_eq_nil_iff]
  intro c hc
  have hquiet := all_eq_true.mp hnew c hc
  cases c with
  | completeQuicSend op => cases hquiet
  | _ => rfl

section Call

variable {c : Call} {l : List Call}

/-- A call that is neither the retry nor the resume. Behind it the reports that
it took up are accounted for by the calls it leaves. -/
theorem Flowing.call (h : ({ w with calls := c :: w.calls } : Worker).Flowing)
    (hc : c ≠ .retryPendingQuicSends ∧ c ≠ .resumeAfterQuicSend) (hcalls : w'.calls = l ++ w.calls)
    (hnew : c.takesReports = true ∨ l.all (fun c => !c.takesReports) = true)
    (hdone : ({ w with calls := c :: w.calls } : Worker).completions.Perm w'.completions)
    (hrelay : ∀ done retry resume, w.relay.Flowing done retry resume →
      w'.relay.Flowing done retry resume) : w'.Flowing := by
  have hretries := h.retries
  rw [retryFollows, Bool.and_eq_true] at hretries
  constructor
  · rw [hcalls]
    refine retryFollows_append hretries.2 ?_
    rcases hnew with htakes | hnew
    · exact .inl (by simpa [htakes] using hretries.1)
    · exact .inr hnew
  · rw [hcalls]
    refine hrelay _ _ _ (h.relay.mono hdone ?_ ?_)
    · intro hmem
      exact mem_append_right l (mem_of_ne_of_mem hc.1.symm hmem)
    · intro hmem
      exact mem_append_right l (mem_of_ne_of_mem hc.2.symm hmem)

/-- A call that takes no report up. -/
theorem Flowing.quietCall (h : ({ w with calls := c :: w.calls } : Worker).Flowing)
    (htakes : c.takesReports = false) (hc : c ≠ .retryPendingQuicSends ∧ c ≠ .resumeAfterQuicSend)
    (hcalls : w'.calls = l ++ w.calls) (hnew : l.all (fun c => !c.takesReports) = true)
    (hreported : w'.reported = w.reported)
    (hrelay : ∀ done retry resume, w.relay.Flowing done retry resume →
      w'.relay.Flowing done retry resume) : w'.Flowing := by
  refine h.call hc hcalls (.inr hnew) ?_ hrelay
  have hsent : (c :: w.calls).filterMap Call.sent = w.calls.filterMap Call.sent := by
    rw [← singleton_append, filterMap_append, filterMap_sent_eq_nil (by simp [htakes]), nil_append]
  have hdone : ({ w with calls := c :: w.calls } : Worker).completions = w'.completions := by
    show w.reported ++ (c :: w.calls).filterMap Call.sent = w'.completions
    rw [completions, hcalls, filterMap_append, filterMap_sent_eq_nil hnew, nil_append,
      hsent, hreported]
  rw [hdone]

end Call

/-- Backpressure is reported only beside an outstanding send, and no retried
send is refused. -/
def parksBeside (w : Worker) : Action → Bool
  | .call io =>
    match w.calls with
    | .drainTcpReadableTurn _ :: _ => (w.relay.answering io).parksBeside
    | .retryPendingQuicSends :: _ => (w.relay.answering io).retriesBeside
    | _ => true
  | _ => true

theorem flowing_execute {c : Call} (h : ({ w with calls := c :: w.calls } : Worker).Flowing)
    (hturn : ∀ n, c = .drainTcpReadableTurn n → w.relay.parksBeside = true)
    (hretry : c = .retryPendingQuicSends → w.relay.retriesBeside = true) :
    (w.execute cfg c).Flowing := by
  have hleads {r' : Relay} (hr : Relay.Drives regulated True w.relay r') (done : List SendOperation)
      (retry resume : Prop)
      (hf : w.relay.Flowing done retry resume) : r'.Flowing done retry resume :=
        SendSide.Flowing.leads hf hr.leads
  have hnone : ([] : List Call).all (fun c => !c.takesReports) = true := rfl
  have hviews (views : List ReceiveView) :
      (views.map Call.processQuicReceiveView).all (fun c => !c.takesReports) = true := by
    simp [Call.takesReports]
  cases c with
  | commitRelay =>
    refine h.quietCall rfl (by decide) (l := []) ?_ hnone ?_ ?_
    · simp only [execute, commitRelay]
      split_ifs <;> rfl
    · simp only [execute, commitRelay]
      split_ifs <;> rfl
    · intro done retry resume hf
      simp only [execute, commitRelay]
      split_ifs
      · exact .inl (closing_erase _)
      · exact .inl (closing_erase _)
      · exact hf
  | activateManagedBinding =>
    simp only [execute, activateManagedBinding]
    split
    · exact h.quietCall rfl (by decide) (l := []) rfl hnone rfl (hleads (.refl _))
    · exact h.quietCall rfl (by decide) rfl (hviews _) rfl (hleads (.refl _))
  | drainQuicSendCompletionFallbacks =>
    refine h.call (by decide) rfl (.inl rfl) ?_ (hleads (.refl _))
    have hsent : (w.sendCompletionFallback.map Call.completeQuicSend).filterMap Call.sent =
        w.sendCompletionFallback := by
      rw [filterMap_map]
      exact filterMap_some
    simp only [completions, reported, execute, filterMap_append, hsent, append_nil, append_assoc]
    exact .refl _
  | drainQuicTerminalFallbacks =>
    refine h.quietCall rfl (by decide) rfl ?_ rfl (hleads (.refl _))
    rw [all_map, all_eq_true]
    intro e _
    cases e <;> rfl
  | popEvents processed =>
    simp only [execute]
    split
    · exact h.call (by simp) (l := []) rfl (.inl rfl) (.refl _) (hleads (.refl _))
    next e queue hqueue =>
      split
      · exact h.call (by simp) (l := []) rfl (.inl rfl) (.refl _) (hleads (.refl _))
      · refine h.call (by simp) (l := e.calls ++ [.popEvents (processed + 1)]) (by simp) (.inl rfl)
          ?_ (hleads (.refl _))
        have hevent : (e :: queue).filterMap QueueEvent.sent =
            e.sent.toList ++ queue.filterMap QueueEvent.sent := by
          cases hsent : e.sent <;> simp [hsent]
        simp only [completions, reported, hqueue, hevent, filterMap_append, e.calls_sent,
          append_assoc]
        exact (perm_append_comm_assoc _ _ _).trans ((perm_append_comm_assoc _ _ _).append_left _)
  | processQuicReceiveView view =>
    simp only [execute]
    split
    · exact h.quietCall rfl (by simp) (l := []) rfl hnone rfl (hleads (.of_sides (by simp)))
    · exact h.quietCall rfl (by simp) (l := [.flushDeferredQuicReceives]) rfl rfl rfl
        (hleads (.of_sides (by simp)))
  | completeQuicSend op =>
    have hretries := h.retries
    rw [retryFollows, Bool.and_eq_true] at hretries
    have hretry : .retryPendingQuicSends ∈ w.calls :=
      contains_iff_mem.mp (by simpa [Call.takesReports] using hretries.1)
    have hrelay : w.relay.Flowing (op :: w.completions) True True :=
      h.relay.mono perm_middle (fun _ => trivial) (fun _ => trivial)
    have haccounted := hrelay.accountQuicSend
    simp only [execute]
    split
    next hclosing => exact ⟨hretries.2, .inl (closing_accountQuicSend hclosing)⟩
    · exact ⟨@retryFollows_append [_, _] _ hretries.2 (.inr rfl),
        haccounted.mono (.refl _) (fun _ => mem_append_right [_, _] hretry) (fun _ => by simp)⟩
  | resumeAfterQuicSend =>
    have hretries := h.retries
    rw [retryFollows, Bool.and_eq_true] at hretries
    refine ⟨hretries.2, ?_⟩
    have hrelay : w.relay.Flowing w.completions (.retryPendingQuicSends ∈ w.calls) True :=
      h.relay.mono (.refl _) (mem_of_ne_of_mem (by simp)) (fun _ => trivial)
    have hstop : Relay.Drives regulated True _ _ :=
      drives_maybeStopFullyClosedRelay cfg w.relay.resumeTcpRead
    exact SendSide.Flowing.leads hrelay.resumeTcpRead hstop.leads
  | handleQuicIdealSendBuffer byteCount =>
    exact h.quietCall rfl (by simp) (l := []) rfl hnone rfl fun _ _ _ hf =>
      hf.handleQuicIdealSendBuffer byteCount
  | processTerminalHandoffRequest =>
    simp only [execute]
    split
    · exact h.quietCall rfl (by simp) (l := []) rfl hnone rfl fun _ _ _ _ =>
        .inl (closing_beginTerminalHandoff cfg _ false)
    · exact h.quietCall rfl (by simp) (l := []) rfl hnone rfl (hleads (.refl _))
  | abortRelayAndRelease =>
    exact h.quietCall rfl (by simp) (l := []) rfl hnone rfl fun _ _ _ _ =>
      .inl (closing_beginTerminalHandoff cfg _ false)
  | processQuicShutdownComplete =>
    exact h.quietCall rfl (by simp) (l := []) rfl hnone rfl fun _ _ _ hf =>
      hf.processQuicShutdownComplete cfg
  | unregisterRelay =>
    exact h.quietCall rfl (by simp) (l := []) rfl hnone rfl fun _ _ _ _ =>
      .inl (closing_unregisterRelayLocal cfg _)
  | flushTcpWrites =>
    exact h.quietCall rfl (by simp) (l := []) rfl hnone rfl (hleads (drives_flushTcpWrites cfg))
  | flushDeferredQuicReceives =>
    exact h.quietCall rfl (by simp) (l := []) rfl hnone rfl
      (hleads (drives_flushDeferredQuicReceives cfg (.inl trivial)))
  | drainTcpReadable =>
    simp only [execute]
    split
    · exact h.quietCall rfl (by simp) (l := [.drainTcpReadableTurn 0]) rfl rfl rfl
        (hleads drives_drainTcpReadable)
    · exact h.quietCall rfl (by simp) (l := []) rfl hnone rfl (hleads drives_drainTcpReadable)
  | drainTcpReadableTurn readBytes =>
    have hnext (next : Option Nat) :
        (next.map Call.drainTcpReadableTurn).toList.all (fun c => !c.takesReports) = true := by
      cases next <;> rfl
    exact h.quietCall rfl (by simp) rfl (hnext _) rfl
      (hleads (drives_drainTcpReadableTurn cfg (.inr (hturn readBytes rfl)) (.inl trivial)))
  | retryPendingQuicSends =>
    have hretries := h.retries
    rw [retryFollows, Bool.and_eq_true] at hretries
    refine ⟨hretries.2, ?_⟩
    have hrelay : w.relay.Flowing w.completions True (.resumeAfterQuicSend ∈ w.calls) :=
      h.relay.mono (.refl _) (fun _ => trivial) (mem_of_ne_of_mem (by simp))
    exact hrelay.retryPendingQuicSends (hretry rfl)
  | drainCallbackPendingQuicReceives =>
    simp only [execute]
    split
    · exact h.quietCall rfl (by simp) (l := []) rfl hnone rfl (hleads (.refl _))
    · refine h.quietCall rfl (by simp)
        (l := w.relay.callbackPendingQuicReceives.map .processQuicReceiveView ++
        [.maybeResumeQuicReceive])
        (by simp) ?_ rfl (hleads (.of_sides rfl))
      rw [all_append, hviews]
      rfl
  | maybeResumeQuicReceive =>
    exact h.quietCall rfl (by simp) (l := []) rfl hnone rfl
      (hleads (.of_sides (w.relay.sides_maybeResumeQuicReceive cfg)))

theorem processTcpEvents_quiet (e : EpollEvent) :
    (w.processTcpEvents e).all (fun c => !c.takesReports) = true := by
  unfold processTcpEvents
  split_ifs <;> rfl

/-- A handler that an idle worker enters. -/
theorem Flowing.enter (h : w.Flowing) (hidle : w.calls = []) {calls : List Call}
    (hretries : retryFollows calls = true) (hsent : calls.filterMap Call.sent = []) :
    ({ w with calls := calls } : Worker).Flowing := by
  refine ⟨hretries, h.relay.mono ?_ (fun hmem => ?_) (fun hmem => ?_)⟩
  · have hdone : w.completions = ({ w with calls := calls } : Worker).completions := by
      show w.reported ++ w.calls.filterMap Call.sent = w.reported ++ calls.filterMap Call.sent
      rw [hidle, hsent]
      rfl
    rw [hdone]
  · rw [hidle] at hmem
    cases hmem
  · rw [hidle] at hmem
    cases hmem

theorem flowing_step {a : Action} (h : w.Flowing) (hparks : w.parksBeside a = true)
    (hstep : w.step cfg a = some w') :
    w'.Flowing := by
  cases hworker : a.ofWorker with
  | false => exact h.delivers (delivers_step cfg hworker hstep)
  | true =>
    cases a with
    | drainEvents =>
      simp only [step] at hstep
      split at hstep
      next hidle =>
        cases hstep
        exact h.enter hidle rfl rfl
      · cases hstep
    | epoll event =>
      simp only [step] at hstep
      split at hstep
      next hidle =>
        cases hstep
        have hquiet := w.processTcpEvents_quiet event
        have hretries := @retryFollows_append _ [] rfl (.inr hquiet)
        rw [append_nil] at hretries
        exact h.enter hidle hretries (filterMap_sent_eq_nil hquiet)
      · cases hstep
    | call io =>
      obtain ⟨c, rest, hcalls, rfl⟩ := step_call cfg hstep
      simp only [parksBeside, hcalls] at hparks
      have hanswering :
          ({ w with relay := w.relay.answering io, calls := c :: rest } : Worker).Flowing := by
        rw [← hcalls]
        exact ⟨h.retries, h.relay.answering io⟩
      refine flowing_execute (w := { w with relay := w.relay.answering io, calls := rest })
        cfg hanswering ?_ ?_
      · rintro n rfl
        exact hparks
      · rintro rfl
        exact hparks
    | _ => cases hworker

theorem flowing_start (reg : Registration) (tcpInput : Bytes) :
    (start cfg reg tcpInput).Flowing where
  retries := rfl
  relay := .inr
    { stream := rfl
      sends := rfl
      bytes := rfl
      parked := fun h => absurd rfl h
      paused := fun h => (by cases h) }

/-- The worker waits for epoll: it has no call left, and nothing is queued for
it, neither in its event queue nor on the lists beside it. -/
def Idle (w : Worker) : Prop :=
  w.calls = [] ∧ w.eventQueue = [] ∧ w.sendCompletionFallback = [] ∧ w.terminalFallback = []

/-- A send is parked, or reading from TCP is paused for the backlog before its
end has been reached. -/
def Held (r : Relay) : Prop :=
  r.pendingQuicSendRetries ≠ [] ∨ r.tcpReadPausedByQuicBacklog = true ∧ r.tcpReadClosed = false

instance (w : Worker) : Decidable w.Idle := inferInstanceAs (Decidable (_ ∧ _))

instance (r : Relay) : Decidable (Held r) := inferInstanceAs (Decidable (_ ∨ _))

theorem Flowing.awaited (h : w.Flowing) (hidle : w.Idle) (hopen : w.relay.closing = false)
    (hheld : Held w.relay) :
    w.relay.inFlight ≠ [] := by
  obtain ⟨hcalls, hqueue, hfallback, -⟩ := hidle
  have hdone : w.completions = [] := by simp [completions, reported, hcalls, hqueue, hfallback]
  have hflows :=
    h.relay.resolve_left
      (by rw [show w.relay.sendSide.closing = false from hopen]; exact Bool.false_ne_true)
  rw [hcalls, hdone] at hflows
  have hpos : 0 < w.relay.outstandingQuicSends := by
    rcases hheld with hparked | ⟨hpaused, hreading⟩
    · exact (hflows.parked hparked).resolve_right not_mem_nil
    · have hreason :=
        (hflows.paused hpaused).resolve_left
        (by
          rw [show w.relay.sendSide.tcpReadClosed = false from hreading]
          exact Bool.false_ne_true)
      exact hreason.resolve_right not_mem_nil
  have hsends : w.relay.outstandingQuicSends = w.relay.inFlight.length := by
    have hsends := hflows.sends
    rwa [append_nil] at hsends
  rw [hsends] at hpos
  exact length_pos_iff.mp hpos

/-- **No stranded send.** In every run in which backpressure is reported only
beside an outstanding send and no retried send is refused, an idle worker with
an open relay that has a send parked or its reading paused has a send whose
completion is still to come. -/
theorem held_upload_is_awaited (cfg : Config) (reg : Registration) (tcpInput : Bytes)
    (as : List Action) (w : Worker)
    (hparks : Meets (step cfg) (fun w a => w.parksBeside a = true) (start cfg reg tcpInput) as)
    (hrun : run (step cfg) (start cfg reg tcpInput) as = some w) (hidle : w.Idle)
    (hopen : w.relay.closing = false) (hheld : Held w.relay) : w.relay.inFlight ≠ [] :=
  (invariant_of_meets (fun _ _ _ h hp hs => flowing_step cfg h hp hs)
    (flowing_start cfg reg tcpInput) hparks
    hrun).awaited hidle hopen hheld

/-- The second of two batches meets backpressure while the first is outstanding. -/
def parkedBesideASend : List Action :=
  registration ++ [.epoll { readable := true }, .call {}, .call { read := .data 2 },
    .call { read := .data 2, status := .outOfMemory }, .call {}]

theorem parkedBesideASend_awaited :
    ∃ w, run (step {}) (start {} {} [1, 2, 3, 4]) parkedBesideASend = some w ∧ Held w.relay ∧
      w.relay.inFlight ≠ [] := by
  refine run_observed (f := fun w => (decide w.Idle, w.relay.closing, decide (Held w.relay)))
    (o := (true, false, true)) (by decide +kernel) fun w hw hend => ?_
  simp only [Prod.mk.injEq, decide_eq_true_eq] at hend
  obtain ⟨hidle, hopen, hheld⟩ := hend
  exact ⟨hheld, held_upload_is_awaited {} {} [1, 2, 3, 4] parkedBesideASend w (by decide +kernel)
    hw hidle hopen hheld⟩

/-- The only batch meets backpressure, and nothing is outstanding. -/
def parkedAlone : List Action :=
  registration ++ [.epoll { readable := true }, .call {},
    .call { read := .data 2, status := .outOfMemory }, .call {}]

/-- The worker is idle with a parked send and without any completion to come. -/
theorem parkedAlone_is_stranded :
    ∃ w, run (step {}) (start {} {} [1, 2]) parkedAlone = some w ∧ w.Idle ∧
      w.relay.closing = false ∧ Held w.relay ∧
      w.relay.inFlight = [] := by
  have hend : (run (step {}) (start {} {} [1, 2]) parkedAlone).map
      (fun w => (decide w.Idle, w.relay.closing, decide (Held w.relay), w.relay.inFlight)) =
        some (true, false, true, []) := by
    decide +kernel
  obtain ⟨w, hw, hend⟩ := Option.map_eq_some_iff.mp hend
  simp only [Prod.mk.injEq, decide_eq_true_eq] at hend
  exact ⟨w, hw, hend⟩

end Worker
end TcpQuicProxy.LinuxRelay
