import TcpQuicProxy.LinuxRelay.Steps

/-!
# Order of the bytes that a relay uploads

Without compression the accepted sends should carry the bytes read from TCP in
their order. The worker keeps that order as long as its read loop does not
take further input while an operation waits for its retry: then at most one
operation is ever parked, and what was sent followed by what is parked is what
was read. A read loop that goes on behind a parked operation breaks it.
-/

namespace TcpQuicProxy.LinuxRelay

open Machine List Relay

def Effect.readBytes : Effect → Bytes
  | .tcpRead bytes => bytes
  | _ => []

def Effect.sentBytes : Effect → Bytes
  | .streamSend payload _ => payload
  | _ => []

/-- The bytes read from the TCP socket so far. -/
def bytesRead (log : List Effect) : Bytes := log.flatMap Effect.readBytes

/-- The payloads of the sends that succeeded so far, in their order. -/
def bytesSent (log : List Effect) : Bytes := log.flatMap Effect.sentBytes

/-- What was sent is a prefix of what was read, and a send that has just
carried the FIN comes after end of file and completes what was read. -/
structure UploadOrdered (log : List Effect) : Prop where
  inOrder : bytesSent log <+: bytesRead log
  finLast : ∀ before payload, log = before ++ [.streamSend payload true] →
    .tcpEof ∈ before ∧ bytesSent log = bytesRead log

/-- The upload order is only asked for until the relay is stopped. -/
def UploadOrder (log : List Effect) : Prop := .stop ∉ log → UploadOrdered log

theorem bytesRead_append (l l' : List Effect) : bytesRead (l ++ l') = bytesRead l ++ bytesRead l' :=
  flatMap_append

theorem bytesSent_append (l l' : List Effect) : bytesSent (l ++ l') = bytesSent l ++ bytesSent l' :=
  flatMap_append

variable {e : Effect} {es : List Effect}

attribute [local simp] Effect.kind

theorem readBytes_of_kind (h : e.kind ≠ .upload) : e.readBytes = [] := by
  cases e <;> simp_all [Effect.readBytes]

theorem sentBytes_of_kind (h : e.kind ≠ .upload) : e.sentBytes = [] := by
  cases e <;> simp_all [Effect.sentBytes]

variable {l log : List Effect}

theorem bytesRead_quiet (h : ∀ e ∈ es, e.kind ≠ .upload) :
    bytesRead (l ++ es) = bytesRead l := by
  have : bytesRead es = [] := flatMap_eq_nil_iff.mpr fun e he => readBytes_of_kind (h e he)
  rw [bytesRead_append, this, append_nil]

theorem bytesSent_quiet (h : ∀ e ∈ es, e.kind ≠ .upload) :
    bytesSent (l ++ es) = bytesSent l := by
  have : bytesSent es = [] := flatMap_eq_nil_iff.mpr fun e he => sentBytes_of_kind (h e he)
  rw [bytesSent_append, this, append_nil]

/-- An effect that sends nothing keeps the order if it reads at most more. -/
theorem uploadOrder_concat (h : UploadOrder log)
    (hs : ∀ payload fin, e ≠ .streamSend payload fin) : UploadOrder (log ++ [e]) := by
  intro hstop
  obtain ⟨hin, -⟩ := h (fun hm => hstop (mem_append_left _ hm))
  have hsent : e.sentBytes = [] := by
    cases e <;> first | rfl | exact absurd rfl (hs _ _)
  refine ⟨?_, ?_⟩
  · rw [bytesSent_append, bytesRead_append]
    simp only [bytesSent, flatMap_cons, flatMap_nil, hsent, append_nil]
    exact hin.trans (prefix_append _ _)
  · intro before payload heq
    obtain ⟨-, hlast⟩ := append_inj' heq rfl
    exact absurd (cons.inj hlast).1 (hs _ _)

theorem uploadOrder_quiet (h : Throughout UploadOrder log)
    (hes : ∀ e ∈ es, e.kind ≠ .upload) : Throughout UploadOrder (log ++ es) := by
  induction es generalizing log with
  | nil => simpa using h
  | cons e es ih =>
    rw [append_cons]
    refine ih ?_ (fun e' he' => hes e' (mem_cons_of_mem _ he'))
    refine throughout_concat.mpr ⟨h, uploadOrder_concat h.now ?_⟩
    rintro payload fin rfl
    exact hes _ mem_cons_self rfl

namespace Relay

/-- An open relay that has not been stopped: what was sent and what is parked
make up what was read, and at most one operation is parked. -/
structure UploadLive (r : Relay) : Prop where
  plain : r.compresses = false
  whole : r.enableQuicSends = true →
    bytesSent r.log ++ r.pendingQuicSendRetries.flatMap SendOperation.payload = bytesRead r.log
  silent : r.enableQuicSends = false → bytesSent r.log = [] ∧ r.pendingQuicSendRetries = []
  single : r.pendingQuicSendRetries.length ≤ 1
  finParked : ∀ op ∈ r.pendingQuicSendRetries, op.fin = true → .tcpEof ∈ r.log

structure UploadInv (r : Relay) : Prop where
  ordered : Throughout UploadOrder r.log
  live : r.closing = false → .stop ∉ r.log → r.UploadLive

variable {r : Relay} {fin : Bool}

theorem UploadInv.keeps {r' : Relay} (h : r.UploadInv) (hk : KeepsUpload r r') : r'.UploadInv := by
  obtain ⟨es, hlog, hes⟩ := hk.grown
  refine ⟨by rw [hlog]; exact uploadOrder_quiet h.ordered hes, ?_⟩
  intro hc hstop
  obtain ⟨hc', hside⟩ := hk.kept hc
  have hmem {e : Effect} (he : e ∈ r.log) : e ∈ r'.log := by
    rw [hlog]
    exact mem_append_left _ he
  obtain ⟨hplain, hwhole, hsilent, hsingle, hfin⟩ := h.live hc' (fun hm => hstop (hmem hm))
  simp only [uploadSide, UploadSide.mk.injEq] at hside
  obtain ⟨hretries, -, -, hcomp, hsends⟩ := hside
  have hread : bytesRead r'.log = bytesRead r.log := by rw [hlog, bytesRead_quiet hes]
  have hsent : bytesSent r'.log = bytesSent r.log := by rw [hlog, bytesSent_quiet hes]
  refine ⟨by rw [hcomp, hplain], ?_, ?_, by rw [hretries]; exact hsingle, ?_⟩
  · rw [hsends, hread, hsent, hretries]
    exact hwhole
  · rw [hsends, hsent, hretries]
    exact hsilent
  · rw [hretries]
    exact fun op hop hf => hmem (hfin op hop hf)

/-- Bytes in the hand of the worker: read, not yet sent, nothing parked. -/
structure InHand (r : Relay) (bytes : Bytes) (fin : Bool) : Prop where
  plain : r.compresses = false
  unparked : r.pendingQuicSendRetries = []
  whole : r.enableQuicSends = true → bytesSent r.log ++ bytes = bytesRead r.log
  silent : r.enableQuicSends = false → bytesSent r.log = []
  atEof : fin = true → .tcpEof ∈ r.log

theorem UploadLive.inHand (h : r.UploadLive) (hr : r.pendingQuicSendRetries = []) :
    r.InHand [] false := by
  refine ⟨h.plain, hr, ?_, fun hs => (h.silent hs).1, by simp⟩
  intro hs
  simpa [hr] using h.whole hs

/-- With nothing left in the hand the relay is in order again. -/
theorem InHand.live (h : r.InHand [] fin) : r.UploadLive := by
  refine ⟨h.plain, ?_, fun hs => ⟨h.silent hs, h.unparked⟩, by simp [h.unparked], by
    simp [h.unparked]⟩
  intro hs
  simpa [h.unparked] using h.whole hs

theorem armTcpReadable_eq (r : Relay) (enabled : Bool) :
    r.armTcpReadable enabled =
      { r with tcpReadArmed := (r.armTcpReadable enabled).tcpReadArmed } := by
  unfold armTcpReadable
  split <;> rfl

theorem pauseTcpRead_eq (r : Relay) :
    r.pauseTcpRead = { r with
      tcpReadPausedByQuicBacklog := true
      tcpReadArmed := r.pauseTcpRead.tcpReadArmed } :=
  armTcpReadable_eq (r.setTcpReadBackpressure true) false

/-- The result of submitting what was in the hand. A failure stops the relay. -/
structure Submitted (p : Bool × Relay) : Prop where
  ordered : Throughout UploadOrder p.2.log
  live : p.1 = true → p.2.closing = false → .stop ∉ p.2.log → p.2.UploadLive

theorem Submitted.of_inv (h : r.UploadInv) (ok : Bool) : Submitted (ok, r) :=
  ⟨h.ordered, fun _ => h.live⟩

theorem Submitted.failed (h : Throughout UploadOrder r.log) : Submitted (false, r) :=
  ⟨h, by simp⟩

theorem UploadInv.stopped (h : Throughout UploadOrder r.log) : r.setRelayStop.UploadInv := by
  refine ⟨throughout_concat.mpr ⟨h, uploadOrder_concat h.now (by simp)⟩, ?_⟩
  intro _ hstop
  exact absurd (mem_append_right _ (mem_singleton.mpr rfl)) hstop

theorem submitted_trySubmitQuicSendOperation {op : SendOperation}
    (ho : Throughout UploadOrder r.log)
    (hh : r.closing = false → .stop ∉ r.log →
      r.enableQuicSends = true ∧ r.InHand op.payload op.fin) :
    Submitted (r.trySubmitQuicSendOperation op) := by
  unfold trySubmitQuicSendOperation
  split_ifs with hlease hopen hok hback
  · exact .failed ho
  · exact .failed ho
  · -- accepted: the payload completes what was read
    have hc : r.closing = false := by simp_all
    refine ⟨throughout_concat.mpr ⟨ho, ?_⟩, ?_⟩
    · intro hstop
      obtain ⟨hs, hin⟩ := hh hc (fun hm => hstop (mem_append_left _ hm))
      have heq : bytesSent (r.log ++ [.streamSend op.payload op.fin])
          = bytesRead (r.log ++ [.streamSend op.payload op.fin]) := by
        rw [bytesSent_append, bytesRead_append]
        simpa [bytesSent, bytesRead, Effect.sentBytes, Effect.readBytes] using hin.whole hs
      refine ⟨by rw [heq], ?_⟩
      intro before payload hlog
      obtain ⟨rfl, hlast⟩ := append_inj' hlog rfl
      have hf := (Effect.streamSend.inj (cons.inj hlast).1).2
      exact ⟨hin.atEof hf, heq⟩
    · intro _ _ hstop
      obtain ⟨hs, hin⟩ := hh hc (fun hm => hstop (mem_append_left _ hm))
      refine @InHand.live _ false ⟨hin.plain, hin.unparked, ?_, ?_, by simp⟩
      · intro _
        have := hin.whole hs
        simpa [emit, bytesSent, bytesRead, Effect.sentBytes, Effect.readBytes] using this
      · intro hf
        exact absurd hf (by simp [emit, hs])
  · -- parked: it is the only one
    have hc : r.closing = false := by simp_all
    rw [pauseTcpRead_eq]
    refine ⟨ho, ?_⟩
    intro _ _ hstop
    obtain ⟨hs, hin⟩ := hh hc hstop
    refine ⟨hin.plain, ?_, ?_, ?_, ?_⟩
    · intro _
      simpa [hin.unparked] using hin.whole hs
    · intro hf
      exact absurd hf (by simp [hs])
    · simp [hin.unparked]
    · simpa [hin.unparked] using hin.atEof
  · exact .failed ho

variable {bytes : Bytes} {views : List Bytes}

theorem InHand.markQuicSendFin (h : r.InHand bytes fin) (b : Bool) :
    (r.markQuicSendFin b).InHand bytes fin :=
  ⟨h.plain, h.unparked, h.whole, h.silent, h.atEof⟩

theorem upload_completeWithoutSend (cfg : Config) (r : Relay) (fin : Bool) :
    KeepsUpload r (r.completeWithoutSend cfg fin) := by
  unfold completeWithoutSend
  split
  · have hset : KeepsUpload r { r with quicSendFinCompleted := true } :=
      .of_core (.of_eq rfl rfl rfl rfl)
    have hstop : Moves KeepsCore False _ _ :=
      moves_maybeStopFullyClosedRelay cfg { r with quicSendFinCompleted := true }
    exact hset.trans hstop.upload
  · exact .of_core (.refl r)

theorem upload_failRelayFatal (cfg : Config) (r : Relay) :
    KeepsUpload r (r.failRelayFatal cfg) := by
  unfold failRelayFatal
  split
  · exact .of_core (.refl r)
  · exact (r.shuts_beginTerminalHandoff cfg false).upload

/-- With sends disabled the bytes only go to the test capture. -/
theorem UploadInv.of_disabled (ho : Throughout UploadOrder r.log)
    (hh : r.closing = false → .stop ∉ r.log → r.InHand bytes fin) (hs : r.enableQuicSends = false) :
    r.UploadInv := by
  refine ⟨ho, fun hc hstop => ?_⟩
  have h := hh hc hstop
  exact ⟨h.plain, fun hs' => absurd hs (by simp [hs']), fun _ => ⟨h.silent hs, h.unparked⟩, by
    simp [h.unparked],
    by simp [h.unparked]⟩

theorem submitted_submitTcpBatchToQuic (cfg : Config) (ho : Throughout UploadOrder r.log)
    (hh : r.closing = false → .stop ∉ r.log → r.InHand views.flatten fin) :
    Submitted (r.submitTcpBatchToQuic cfg views fin) := by
  have hdisabled (hs : r.enableQuicSends = false) :
      Submitted (true, (r.markQuicSendFin fin).completeWithoutSend cfg fin) := by
    have hmark : KeepsUpload r (r.markQuicSendFin fin) := .of_core (.of_eq rfl rfl rfl rfl)
    exact .of_inv ((UploadInv.of_disabled ho hh hs).keeps
      (hmark.trans (upload_completeWithoutSend cfg _ fin))) true
  simp only [submitTcpBatchToQuic]
  split_ifs with hv hs hf hc ha hs hc hl ha
  · exact hdisabled (by simpa [markQuicSendFin] using hs)
  · -- nothing to send and no FIN: nothing was in the hand
    refine ⟨ho, fun _ hc hstop => ?_⟩
    have h := (hh hc hstop).markQuicSendFin fin
    rw [hv] at h
    exact h.live
  · exact .failed ho
  · exact .failed ho
  · obtain rfl : fin = true := by simpa using hf
    refine submitted_trySubmitQuicSendOperation ho fun hc hstop => ⟨by simpa using hs, ?_⟩
    have h := (hh hc hstop).markQuicSendFin true
    rwa [hv] at h
  · exact hdisabled (by simpa using hs)
  · exact .failed ho
  · exact .failed ho
  · exact .failed ho
  · exact submitted_trySubmitQuicSendOperation ho fun hc hstop =>
      ⟨by simpa [markQuicSendFin] using hs, (hh hc hstop).markQuicSendFin fin⟩

theorem submitted_finishTcpToQuic (cfg : Config) (ho : Throughout UploadOrder r.log)
    (hh : r.closing = false → .stop ∉ r.log → r.InHand [] true) :
    Submitted (r.finishTcpToQuic cfg) := by
  unfold finishTcpToQuic
  split_ifs with hc hz
  · exact .failed ho
  · have hplain (views : List Bytes) :
        r.closing = false → .stop ∉ r.log → r.InHand views.flatten true := by
      intro hc hstop
      have := (hh hc hstop).plain
      rw [hz] at this
      cases this
    split
    · exact .failed ho
    · exact submitted_submitTcpBatchToQuic cfg ho (hplain _)
  · exact submitted_submitTcpBatchToQuic cfg ho (by simpa using hh)

/-- The caller of a submission stops the relay when it failed. -/
theorem Submitted.inv {p : Bool × Relay} (h : Submitted p) :
    (if p.1 then p.2 else p.2.setRelayStop).UploadInv := by
  split
  next hok => exact ⟨h.ordered, h.live hok⟩
  · exact .stopped h.ordered

theorem splitViews_flatten (chunk : Nat) :
    ∀ (n : Nat) (bytes : Bytes), bytes.length ≤ n * chunk →
      (splitViews chunk n bytes).flatten = bytes := by
  intro n
  induction n with
  | zero =>
    intro bytes h
    have : bytes = [] := length_eq_zero_iff.mp (by omega)
    simp [splitViews, this]
  | succ n ih =>
    intro bytes h
    by_cases hb : bytes = []
    · simp [splitViews, hb]
    · have hlen : (bytes.drop chunk).length ≤ n * chunk := by
        rw [length_drop]
        rw [Nat.succ_mul] at h
        omega
      simp only [splitViews, hb, ↓reduceIte, flatten_cons, ih _ hlen, take_append_drop]

theorem inv_submitReadBatch (cfg : Config) (ho : Throughout UploadOrder r.log)
    (hh : r.closing = false → .stop ∉ r.log → r.InHand views.flatten false) :
    (r.submitReadBatch cfg views).2.UploadInv := by
  unfold submitReadBatch
  split
  · exact .stopped ho
  next sendViews hviews =>
    have hh' : r.closing = false → .stop ∉ r.log → r.InHand sendViews.flatten false := by
      intro hc hstop
      have hin := hh hc hstop
      have : sendViews = views := by
        simpa [buildTcpToQuicViews, hin.plain, eq_comm] using hviews
      rwa [this]
    have hsub := submitted_submitTcpBatchToQuic cfg ho hh'
    generalize r.submitTcpBatchToQuic cfg sendViews false = p at hsub
    have hinv := hsub.inv
    obtain ⟨ok, r'⟩ := p
    dsimp only at hinv ⊢
    cases ok with
    | false => exact hinv
    | true =>
      simp only [↓reduceIte, Bool.not_true, Bool.false_eq_true] at hinv ⊢
      split
      · exact hinv.keeps (.of_core (keeps_pauseTcpRead r'))
      · exact hinv

theorem UploadLive.read (h : r.UploadLive) (hr : r.pendingQuicSendRetries = [])
    (bytes rest : Bytes) :
    ({ r with tcpInput := rest }.emit (.tcpRead bytes)).InHand bytes false := by
  obtain ⟨hplain, hun, hwhole, hsilent, -⟩ := h.inHand hr
  refine ⟨hplain, hun, ?_, ?_, by simp⟩
  · intro hs
    have := hwhole hs
    simp only [emit, bytesSent_append, bytesRead_append]
    simpa [bytesSent, bytesRead, Effect.sentBytes, Effect.readBytes] using this
  · intro hs
    have := hsilent hs
    simpa [emit, bytesSent, Effect.sentBytes] using this

theorem UploadLive.eof (h : r.UploadLive) (hr : r.pendingQuicSendRetries = []) :
    (r.closeTcpRead.armTcpReadable false).InHand [] true := by
  obtain ⟨hplain, hun, hwhole, hsilent, -⟩ := h.inHand hr
  rw [armTcpReadable_eq]
  refine ⟨hplain, hun, ?_, ?_, by simp [closeTcpRead, emit]⟩
  · intro hs
    have := hwhole hs
    simp only [closeTcpRead, emit, bytesSent_append, bytesRead_append]
    simpa [bytesSent, bytesRead, Effect.sentBytes, Effect.readBytes] using this
  · intro hs
    have := hsilent hs
    simpa [closeTcpRead, emit, bytesSent, Effect.sentBytes] using this

section

variable (cfg : Config)
include cfg

theorem UploadInv.finishTcpRead (h : r.UploadInv) (hr : r.pendingQuicSendRetries = []) :
    (r.finishTcpRead cfg).UploadInv := by
  unfold Relay.finishTcpRead
  split
  · exact h
  have hlog : (r.closeTcpRead.armTcpReadable false).log = r.log ++ [.tcpEof] := by
    rw [armTcpReadable_eq]
    rfl
  have hclosing : (r.closeTcpRead.armTcpReadable false).closing = r.closing := by
    rw [armTcpReadable_eq]
    rfl
  have hsub := @submitted_finishTcpToQuic (r.closeTcpRead.armTcpReadable false) cfg
    (by
      rw [hlog]
      exact throughout_concat.mpr ⟨h.ordered, uploadOrder_concat h.ordered.now (by simp)⟩)
    (fun hc hstop =>
      (h.live (hclosing ▸ hc) (fun hm => hstop (hlog ▸ mem_append_left _ hm))).eof hr)
  exact hsub.inv

theorem UploadInv.readBuffers (h : r.UploadInv) (readBytes iov : Nat)
    (hr : (∃ n, r.io.read = .data n) ∨ r.io.read = .eof → r.pendingQuicSendRetries = []) :
    (r.readBuffers cfg readBytes iov).1.UploadInv := by
  unfold Relay.readBuffers
  split
  next n hdata =>
    dsimp only
    split
    · exact h
    have hflat :=
      splitViews_flatten cfg.readChunkSize iov (r.tcpInput.take (min n (iov * cfg.readChunkSize)))
      (by rw [length_take]; omega)
    generalize r.tcpInput.take (min n (iov * cfg.readChunkSize)) = bytes at hflat
    refine inv_submitReadBatch cfg
      (throughout_concat.mpr ⟨h.ordered, uploadOrder_concat h.ordered.now (by simp)⟩) ?_
    intro hc hstop
    rw [hflat]
    exact (h.live hc (fun hm => hstop (mem_append_left _ hm))).read (hr (.inl ⟨n, hdata⟩)) bytes _
  next heof => exact h.finishTcpRead cfg (hr (.inr heof))
  · exact h
  · exact h
  · exact h.keeps (upload_failRelayFatal cfg r)

theorem noteBufferLimit_io (r : Relay) (readBytes : Nat) :
    (r.noteBufferLimit cfg readBytes).io = r.io := by
  unfold noteBufferLimit
  rw [armTcpReadable_eq]
  split <;> rfl

theorem noteBufferLimit_retries (r : Relay) (readBytes : Nat) :
    (r.noteBufferLimit cfg readBytes).pendingQuicSendRetries = r.pendingQuicSendRetries := by
  unfold noteBufferLimit
  rw [armTcpReadable_eq]
  split <;> rfl

/-- **One turn of the read loop keeps the order** if it takes input only when
no operation waits for its retry. -/
theorem UploadInv.drainTcpReadableTurn (h : r.UploadInv) (readBytes : Nat)
    (hr : (∃ n, r.io.read = .data n) ∨ r.io.read = .eof → r.pendingQuicSendRetries = []) :
    (r.drainTcpReadableTurn cfg readBytes).1.UploadInv := by
  have hnote := h.keeps (.of_core (r.keeps_noteBufferLimit cfg readBytes))
  unfold Relay.drainTcpReadableTurn
  split_ifs
  · exact h
  · exact hnote
  · refine hnote.readBuffers cfg readBytes _ ?_
    rwa [noteBufferLimit_io, noteBufferLimit_retries]

end

/-- **A retry pass keeps the order**: the one parked operation is what was
read and not sent. -/
theorem UploadInv.retryPendingQuicSends (h : r.UploadInv) : r.retryPendingQuicSends.UploadInv := by
  unfold Relay.retryPendingQuicSends
  split
  · exact h
  split
  · exact h.keeps (.of_core (keeps_resumeTcpRead r))
  next op rest hretries =>
    have hsub :
        Submitted ({ r with pendingQuicSendRetries := rest }.trySubmitQuicSendOperation op) := by
      refine submitted_trySubmitQuicSendOperation h.ordered fun hc hstop => ?_
      obtain ⟨hplain, hwhole, hsilent, hsingle, hfin⟩ := h.live hc hstop
      have hrest : rest = [] := by
        rw [hretries] at hsingle
        exact length_eq_zero_iff.mp (by simpa using hsingle)
      have hs : r.enableQuicSends = true := by
        by_contra hs
        have := (hsilent (by simpa using hs)).2
        rw [hretries] at this
        cases this
      refine ⟨hs, hplain, hrest, ?_, ?_, ?_⟩
      · intro _
        simpa [hretries, hrest] using hwhole hs
      · intro hs'
        exact (hsilent hs').1
      · exact hfin op (by simp [hretries])
    generalize { r with pendingQuicSendRetries := rest }.trySubmitQuicSendOperation op = p at hsub
    have hinv := hsub.inv
    obtain ⟨ok, r'⟩ := p
    cases ok with
    | false => exact hinv
    | true =>
      simp only [↓reduceIte, Bool.not_true, Bool.false_eq_true] at hinv ⊢
      split
      · exact hinv
      · exact hinv.keeps (.of_core (keeps_resumeTcpRead r'))

end Relay

def ReadResult.takesInput : ReadResult → Bool
  | .data _ => true
  | .eof => true
  | .eintr => false
  | .eagain => false
  | .error => false

namespace Worker

/-- A step that is not a turn of the read loop taking data or end of file
behind an operation parked for retry. -/
def readsUnparked (w : Worker) : Action → Bool
  | .call io =>
    match w.calls with
    | .drainTcpReadableTurn _ :: _ => !io.read.takesInput || w.relay.pendingQuicSendRetries.isEmpty
    | _ => true
  | _ => true

theorem upload_appendQuicReceive (cfg : Config) (r : Relay) (view : ReceiveView) :
    KeepsUpload r (r.appendQuicReceive cfg view) := by
  unfold appendQuicReceive
  split
  · obtain ⟨io, es, heq, hes, -⟩ := r.completeAndDiscardQuicReceive_eq cfg view
    rw [heq]
    exact .of_effects es rfl (fun e he => by rw [hes e he]; decide) rfl rfl
  · have hqueue : KeepsUpload r (r.queueQuicReceive view) := .of_effects [_] rfl (by simp) rfl rfl
    exact hqueue.trans (.of_core (keeps_maybePauseQuicReceive cfg _))

theorem upload_failManagedBinding (w : Worker) : KeepsUpload w.relay w.failManagedBinding.relay :=
  .of_effects [.stop] rfl (by simp) rfl rfl

variable {w : Worker}

/-- Only a turn of the read loop and a retry touch the upload direction. -/
theorem keepsUpload_execute (cfg : Config) (hs : w.relay.Sound) {c : Call}
    (hturn : ∀ n, c ≠ .drainTcpReadableTurn n) (hretry : c ≠ .retryPendingQuicSends) :
    KeepsUpload w.relay (w.execute cfg c).relay := by
  have hrefl : KeepsUpload w.relay w.relay := .of_core (.refl _)
  cases c with
  | drainTcpReadableTurn readBytes => exact absurd rfl (hturn readBytes)
  | retryPendingQuicSends => exact absurd rfl hretry
  | commitRelay =>
    simp only [execute, commitRelay]
    split
    · exact (upload_failManagedBinding w).trans (shuts_erase _).upload
    · split
      · exact (upload_failManagedBinding w).trans
          ((shuts_beginTerminalHandoff cfg _ false).trans (shuts_erase _)).upload
      · exact hrefl
  | activateManagedBinding =>
    simp only [execute, activateManagedBinding]
    split <;> exact hrefl
  | drainQuicSendCompletionFallbacks | drainQuicTerminalFallbacks => exact hrefl
  | popEvents processed =>
    simp only [execute]
    split
    · exact hrefl
    · split <;> exact hrefl
  | processQuicReceiveView view => exact upload_appendQuicReceive cfg _ view
  | completeQuicSend op => exact .of_core (keeps_accountQuicSend _ op)
  | resumeAfterQuicSend =>
    have hstop : Moves KeepsCore False w.relay.resumeTcpRead _ :=
      moves_maybeStopFullyClosedRelay cfg _
    exact (KeepsUpload.of_core (keeps_resumeTcpRead _)).trans hstop.upload
  | handleQuicIdealSendBuffer byteCount =>
    exact .of_core (keeps_handleQuicIdealSendBuffer _ byteCount)
  | processTerminalHandoffRequest =>
    simp only [execute]
    split
    · exact (shuts_beginTerminalHandoff cfg _ false).upload
    · exact hrefl
  | abortRelayAndRelease => exact (shuts_beginTerminalHandoff cfg _ false).upload
  | processQuicShutdownComplete =>
    have hdone : Moves KeepsCore False w.relay _ := moves_processQuicShutdownComplete cfg _
    exact hdone.upload
  | unregisterRelay => exact (shuts_unregisterRelayLocal cfg _).upload
  | flushTcpWrites =>
    have hflush : Relay.WritesOnly False w.relay _ := writesOnly_flushTcpWrites cfg hs
    exact hflush.moves.upload
  | flushDeferredQuicReceives =>
    have hflush : Moves KeepsCore False w.relay _ :=
      moves_flushDeferredQuicReceives cfg hs False.elim
    exact hflush.upload
  | drainTcpReadable => exact .of_core (keeps_drainTcpReadable _)
  | drainCallbackPendingQuicReceives =>
    simp only [execute]
    split
    · exact hrefl
    · exact .of_effects [] (append_nil _).symm (by simp) rfl rfl
  | maybeResumeQuicReceive => exact .of_core (keeps_maybeResumeQuicReceive cfg _)

theorem upload_execute (cfg : Config) (hs : w.relay.Sound) (h : w.relay.UploadInv) (c : Call)
    (hr : ∀ n, c = .drainTcpReadableTurn n → w.relay.io.read.takesInput = true →
      w.relay.pendingQuicSendRetries = []) : (w.execute cfg c).relay.UploadInv := by
  by_cases hturn : ∃ n, c = .drainTcpReadableTurn n
  · obtain ⟨readBytes, rfl⟩ := hturn
    refine h.drainTcpReadableTurn cfg readBytes fun hread => hr readBytes rfl ?_
    rcases hread with ⟨n, hn⟩ | he
    · rw [hn]; rfl
    · rw [he]; rfl
  by_cases hretry : c = .retryPendingQuicSends
  · subst hretry
    exact h.retryPendingQuicSends
  · exact h.keeps (keepsUpload_execute cfg hs (fun n hn => hturn ⟨n, hn⟩) hretry)

theorem upload_sealBinding (r : Relay) : KeepsUpload r r.sealBinding :=
  .of_effects [] (append_nil _).symm (by simp) rfl rfl

section

variable (cfg : Config)
include cfg

variable {w' : Worker} {a : Action}

theorem upload_queueQuicReceiveView {view : ReceiveView}
    (h : w.queueQuicReceiveView cfg view = some w') : KeepsUpload w.relay w'.relay := by
  unfold queueQuicReceiveView at h
  split at h
  · cases h
    exact KeepsFlows.upload (w.placed_queueDeferredQuicReceive cfg view).relay
  · simp only [queuePrecommitQuicReceive, Option.ite_none_left_eq_some, Option.some.injEq] at h
    obtain ⟨-, rfl⟩ := h
    exact .of_core (.refl _)

theorem upload_onReceive (w : Worker) (e : ReceiveEvent) (io : Io) :
    KeepsUpload w.relay (w.onReceive cfg e io).2.relay := by
  unfold onReceive
  split
  · exact .of_core (.refl _)
  split
  · rw [abortRelayFromCallback, (enqueueTerminal_untouched cfg _ _).relay]
    exact upload_sealBinding _
  next q hq =>
    obtain ⟨view, -, hq⟩ := Option.bind_eq_some_iff.mp hq
    exact (KeepsUpload.of_core (w.relay.keeps_answering io)).trans
      (upload_queueQuicReceiveView cfg hq)

theorem upload_indicateReceive (w : Worker) (e : ReceiveEvent) (io : Io) :
    KeepsUpload w.relay (w.indicateReceive cfg e io).relay := by
  have hind : KeepsUpload w.relay (w.relay.emit (.receiveIndicated e.buffers.flatten e.fin)) :=
    .of_effects [_] rfl (by simp) rfl rfl
  have hreceive := hind.trans
    (upload_onReceive cfg
      { w with relay := w.relay.emit (.receiveIndicated e.buffers.flatten e.fin) } e io)
  unfold indicateReceive
  dsimp only
  split
  · exact hreceive.trans (.of_effects [_] rfl (by simp) rfl rfl)
  · exact hreceive

theorem upload_onTerminalEvent (w : Worker) (e : TerminalEvent) :
    KeepsUpload w.relay (w.onTerminalEvent cfg e).relay := by
  unfold onTerminalEvent
  split
  · exact .of_core (.refl _)
  · cases e with
    | terminalHandoff =>
      rw [(enqueueTerminal_untouched cfg _ _).relay]
      exact upload_sealBinding _
    | quicShutdownComplete =>
      rw [(enqueueTerminal_untouched cfg _ _).relay]
      exact upload_failManagedBinding w

/-- Nothing but a call of the worker touches the upload direction. -/
theorem upload_step_of_not_call (h : w.step cfg a = some w')
    (ha : ∀ io, a ≠ .call io) : KeepsUpload w.relay w'.relay := by
  cases a with
  | call io => exact absurd rfl (ha io)
  | receive buffers fin io =>
    cases h
    exact upload_indicateReceive cfg w _ io
  | sendComplete index =>
    simp only [step, Option.map_eq_some_iff] at h
    obtain ⟨op, -, rfl⟩ := h
    rw [(onSendComplete_untouched cfg _ op).relay]
    exact .of_core (.of_eq rfl rfl rfl rfl)
  | idealSendBufferSize byteCount =>
    cases h
    split
    · exact .of_core (.refl _)
    · rw [(w.enqueue_untouched cfg rfl).relay]
      exact .of_core (.refl _)
  | terminalEvent | shutdownComplete =>
    cases h
    exact upload_onTerminalEvent cfg w _
  | enqueue event =>
    have hkept {e : QueueEvent} (he : e.views = []) (h : some (w.enqueue cfg e).2 = some w') :
        KeepsUpload w.relay w'.relay := by
      cases h
      rw [(w.enqueue_untouched cfg he).relay]
      exact .of_core (.refl _)
    cases event with
    | foreign | unregisterRelay | tcpWritable => exact hkept rfl h
    | _ => cases h
  | drainEvents | epoll event =>
    obtain ⟨-, rfl⟩ := guarded_iff.mp h
    exact .of_core (.refl _)

theorem upload_step (hs : w.Sound) (h : w.relay.UploadInv)
    (hr : w.readsUnparked a = true) (hstep : w.step cfg a = some w') : w'.relay.UploadInv := by
  by_cases ha : ∃ io, a = .call io
  · obtain ⟨io, rfl⟩ := ha
    obtain ⟨c, rest, hcalls, rfl⟩ := step_call cfg hstep
    refine upload_execute cfg (hs.relay.keeps (keeps_answering _ io).download)
      (h.keeps (.of_core (keeps_answering _ io))) c ?_
    rintro n rfl htakes
    simp only [readsUnparked, hcalls] at hr
    have htakes' : io.read.takesInput = true := htakes
    have hnone : w.relay.pendingQuicSendRetries = [] := by simpa [htakes'] using hr
    exact hnone
  · exact h.keeps (upload_step_of_not_call cfg hstep (by simpa using ha))

theorem upload_start {reg : Registration} (tcpInput : Bytes)
    (hplain : reg.compresses = false) : (start cfg reg tcpInput).relay.UploadInv := by
  have ho : Throughout UploadOrder [] := by
    refine throughout_nil.mpr fun _ => ⟨List.nil_prefix, ?_⟩
    intro before payload h
    simp at h
  exact ⟨ho, fun _ _ =>
    ⟨hplain, fun _ => rfl, fun _ => ⟨rfl, rfl⟩, Nat.zero_le 1, by simp [start, ofRegistration]⟩⟩

end

/-- **Upload order.** In every run of a relay without compression whose read
loop takes no input behind a parked operation, the successful sends carry a
prefix of the bytes read, and the FIN follows the last of them. -/
theorem upload_in_order_of_unparked_reads (cfg : Config) (reg : Registration) (tcpInput : Bytes)
    (as : List Action) (w : Worker) (hplain : reg.compresses = false)
    (hunparked : Meets (step cfg) (fun w a => w.readsUnparked a = true) (start cfg reg tcpInput) as)
    (hrun : run (step cfg) (start cfg reg tcpInput) as = some w) :
    Throughout UploadOrder w.relay.log :=
  (invariant_of_meets
    (fun _ _ _ h hr hs => And.intro (sound_step cfg h.1 hs) (upload_step cfg h.1 h.2 hr hs))
    ⟨sound_start cfg reg tcpInput, upload_start cfg tcpInput hplain⟩ hunparked hrun).2.ordered

/-- Two short reads in order, with a refused send retried between them. -/
def retriedUpload : List Action :=
  registration ++ [.epoll { readable := true }, .call {},
    .call { read := .data 2, status := .outOfMemory }, .call {},
    .drainEvents, .call {}, .call {}, .call {}, .call {}, .call {}, .call {},
    .epoll { readable := true }, .call {}, .call { read := .data 2 }, .call { read := .eof }]

theorem retriedUpload_in_order :
    ∃ w, run (step {}) (start {} {} [1, 2, 3, 4]) retriedUpload = some w ∧
      bytesSent w.relay.log = [1, 2, 3, 4] ∧ Throughout UploadOrder w.relay.log := by
  refine run_observed (f := fun w => bytesSent w.relay.log) (o := [1, 2, 3, 4]) (by decide +kernel)
    fun w hw hsent => ?_
  exact ⟨hsent,
    upload_in_order_of_unparked_reads {} {} [1, 2, 3, 4] retriedUpload w rfl (by decide +kernel) hw⟩

/-- A refused send is parked, the read loop goes on and the next batch is
accepted before the retry. -/
def overtakenUpload : List Action :=
  registration ++
    [.epoll { readable := true }, .call {}, .call { read := .data 2, status := .outOfMemory },
    .call { read := .data 2 }]

theorem overtakenUpload_out_of_order :
    ∃ w, run (step {}) (start {} {} [1, 2, 3, 4]) overtakenUpload = some w ∧
      bytesRead w.relay.log = [1, 2, 3, 4] ∧ bytesSent w.relay.log = [3, 4] ∧
        ¬ Throughout UploadOrder w.relay.log := by
  refine ⟨_, rfl, rfl, rfl, fun h => ?_⟩
  exact absurd (h.now (by decide)).inOrder (by decide)

end Worker
end TcpQuicProxy.LinuxRelay
