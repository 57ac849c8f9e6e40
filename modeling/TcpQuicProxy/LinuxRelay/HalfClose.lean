import TcpQuicProxy.LinuxRelay.Steps

/-!
# The half-close towards the TCP peer

The write side of the socket should be shut down only when every byte before
the FIN has been accepted by it: the received bytes, or with decompression
their output. A relay without decompression keeps that in every run. With
decompression it holds as long as no flush of the receive queue finds the FIN
behind a pending write, because that flush retires the FIN view and shuts the
socket down without looking at the pending writes.
-/

namespace TcpQuicProxy.LinuxRelay

open Machine List

def Effect.writtenBytes : Effect → Bytes
  | .tcpWrite bytes => bytes
  | _ => []

def Effect.appendedBytes : Effect → Bytes
  | .receiveAppended bytes _ => bytes
  | _ => []

def Effect.inflateInputBytes : Effect → Bytes
  | .inflateInput bytes => bytes
  | _ => []

def Effect.inflateOutputBytes : Effect → Bytes
  | .inflateOutput bytes => bytes
  | _ => []

/-- The bytes that the TCP socket has accepted so far. -/
def bytesWritten (log : List Effect) : Bytes := log.flatMap Effect.writtenBytes

/-- The bytes of the views that were appended to the receive queue so far. -/
def bytesAppended (log : List Effect) : Bytes := log.flatMap Effect.appendedBytes

def bytesInflatedFrom (log : List Effect) : Bytes := log.flatMap Effect.inflateInputBytes

def bytesInflated (log : List Effect) : Bytes := log.flatMap Effect.inflateOutputBytes

/-- An effect that moves bytes of the download direction. -/
def Effect.carriesData : Effect → Bool
  | .receiveAppended _ _ => true
  | .inflateInput _ => true
  | .inflateOutput _ => true
  | .tcpWrite _ => true
  | _ => false

def Effect.appendsView : Effect → Bool
  | .receiveAppended _ _ => true
  | _ => false

def Effect.appendsFin : Effect → Bool
  | .receiveAppended _ fin => fin
  | _ => false

/-- The sequence of receive views ends in the FIN view, if it has one. -/
def FinLast (log : List Effect) : Prop :=
  log.Pairwise fun e e' => e.appendsFin = true → e'.appendsView = false

instance (log : List Effect) : Decidable (FinLast log) :=
  inferInstanceAs (Decidable (log.Pairwise _))

/-- All that was received before the FIN has reached the socket. -/
structure Drained (zstd : Bool) (log : List Effect) : Prop where
  finReceived : ∃ e ∈ log, e.appendsFin = true
  plain : zstd = false → bytesWritten log = bytesAppended log
  inflated : zstd = true →
    bytesInflatedFrom log = bytesAppended log ∧ bytesWritten log = bytesInflated log

/-- A shutdown of the write side that has just happened came after the last byte. -/
def HalfCloseOrder (zstd : Bool) (log : List Effect) : Prop :=
  FinLast log → ∀ before, log = before ++ [.shutdownWrite] → Drained zstd before

section Log

variable {l es : List Effect}

theorem flatMap_quiet {α : Type} {f : Effect → List α} (hf : ∀ e, e.carriesData = false → f e = [])
    (h : ∀ e ∈ es, e.carriesData = false) : (l ++ es).flatMap f = l.flatMap f := by
  rw [flatMap_append, flatMap_eq_nil_iff.mpr fun e he => hf e (h e he), append_nil]

variable {e : Effect}

theorem carriesData_of_kind (h : e.kind ≠ .download) : e.carriesData = false := by
  cases e <;> first | rfl | exact absurd rfl h

theorem FinLast.left (h : FinLast (l ++ es)) : FinLast l := (pairwise_append.mp h).1

/-- An appended view comes before the FIN. -/
theorem FinLast.no_fin (h : FinLast (l ++ [e])) (he : e.appendsView = true) :
    ∀ e' ∈ l, e'.appendsFin = false := by
  intro e' hmem
  have := (pairwise_append.mp h).2.2 e' hmem e (mem_singleton.mpr rfl)
  cases hfin : e'.appendsFin with
  | false => rfl
  | true => rw [this hfin] at he; cases he

variable {zstd : Bool}

/-- Nothing but a shutdown of the write side is asked about. -/
theorem halfCloseOrder_concat (h : Throughout (HalfCloseOrder zstd) l)
    (he : e ≠ .shutdownWrite) : Throughout (HalfCloseOrder zstd) (l ++ [e]) := by
  refine throughout_concat.mpr ⟨h, fun _ before heq => ?_⟩
  obtain ⟨-, hlast⟩ := append_inj' heq rfl
  exact absurd (cons.inj hlast).1 he

theorem halfCloseOrder_quiet (h : Throughout (HalfCloseOrder zstd) l)
    (hes : ∀ e ∈ es, e.kind ≠ .download) : Throughout (HalfCloseOrder zstd) (l ++ es) := by
  induction es generalizing l with
  | nil => simpa using h
  | cons e es ih =>
    rw [append_cons]
    refine ih (halfCloseOrder_concat h ?_) (fun e' he' => hes e' (mem_cons_of_mem _ he'))
    rintro rfl
    exact hes _ mem_cons_self rfl

end Log

namespace Relay

def queuedBytes (r : Relay) : Bytes := r.pendingQuicReceives.flatMap fun view => view.slices.flatten

/-- An open relay with the FIN last: what was written, what is pending and
what is queued make up what was received, and a queued half-close waits for
nothing any more. -/
structure DownloadLive (zstd : Bool) (r : Relay) : Prop where
  mode : r.sinkQuicReceives = false → r.needsDecompress = zstd
  noWrites : r.needsDecompress = false ∨ r.sinkQuicReceives = true → r.pendingTcpWrites = []
  plain : r.sinkQuicReceives = false → zstd = false →
    bytesWritten r.log ++ r.queuedBytes = bytesAppended r.log
  inflated : r.sinkQuicReceives = false → zstd = true →
    bytesWritten r.log ++ r.pendingTcpWrites.flatten = bytesInflated r.log ∧
      bytesInflatedFrom r.log ++ r.queuedBytes = bytesAppended r.log
  queued : r.tcpWriteShutdownQueued = true →
    r.sinkQuicReceives = false ∧ r.pendingQuicReceives = [] ∧
    r.pendingTcpWrites = [] ∧ ∃ e ∈ r.log, e.appendsFin = true
  finLast : ∀ view ∈ r.pendingQuicReceives.dropLast, view.fin = false
  finKnown : (∀ e ∈ r.log, e.appendsFin = false) → ∀ view ∈ r.pendingQuicReceives, view.fin = false

structure DownloadInv (zstd : Bool) (r : Relay) : Prop where
  ordered : Throughout (HalfCloseOrder zstd) r.log
  live : r.closing = false → FinLast r.log → r.DownloadLive zstd

variable {zstd : Bool} {r r' : Relay} {es : List Effect} {view : ReceiveView}
  {rest : List ReceiveView}

theorem DownloadLive.keeps (h : r.DownloadLive zstd) (hlog : r'.log = r.log ++ es)
    (hes : ∀ e ∈ es, e.carriesData = false) (hside : r'.downloadSide = r.downloadSide) :
    r'.DownloadLive zstd := by
  simp only [downloadSide, DownloadSide.mk.injEq] at hside
  obtain ⟨hw, hq, hqueued, hmode, hsink⟩ := hside
  obtain ⟨hwritten, happended, hinput, houtput⟩ :
    bytesWritten r'.log = bytesWritten r.log ∧ bytesAppended r'.log = bytesAppended r.log ∧
      bytesInflatedFrom r'.log = bytesInflatedFrom r.log ∧
        bytesInflated r'.log = bytesInflated r.log := by
    rw [hlog]
    refine ⟨?_, ?_, ?_, ?_⟩ <;>
      exact flatMap_quiet (fun e he => by cases e <;> first | rfl | cases he) hes
  have hbytes : r'.queuedBytes = r.queuedBytes := by rw [queuedBytes, hq, queuedBytes]
  refine ⟨by rw [hsink, hmode]; exact h.mode,
    by rw [hmode, hsink, hw]; exact h.noWrites, ?_, ?_, ?_,
    by rw [hq]; exact h.finLast, ?_⟩
  · rw [hsink, hwritten, hbytes, happended]
    exact h.plain
  · rw [hsink, hwritten, hbytes, happended, hinput, houtput, hw]
    exact h.inflated
  · rw [hqueued, hsink, hq, hw, hlog]
    intro hq'
    obtain ⟨h₁, h₂, h₃, e, he, hfin⟩ := h.queued hq'
    exact ⟨h₁, h₂, h₃, e, mem_append_left _ he, hfin⟩
  · rw [hq, hlog]
    exact fun hnone => h.finKnown fun e he => hnone e (mem_append_left _ he)

theorem DownloadInv.keeps (h : r.DownloadInv zstd) (hlog : r'.log = r.log ++ es)
    (hes : ∀ e ∈ es, e.kind ≠ .download) (hclosing : r'.closing = false → r.closing = false)
    (hside : r'.closing = false → r'.downloadSide = r.downloadSide) : r'.DownloadInv zstd := by
  refine ⟨by rw [hlog]; exact halfCloseOrder_quiet h.ordered hes, fun hc hfin => ?_⟩
  exact (h.live (hclosing hc) (FinLast.left (hlog ▸ hfin))).keeps hlog
    (fun e he => carriesData_of_kind (hes e he)) (hside hc)

/-- The front view is replaced by one with the same FIN flag. -/
theorem DownloadLive.setFront (h : r.DownloadLive zstd) {view' : ReceiveView}
    (hfront : r.pendingQuicReceives = view :: rest) (hq : r'.pendingQuicReceives = view' :: rest)
    (hfin : view'.fin = view.fin) (hlog : r'.log = r.log ++ es)
    (hside : r'.pendingTcpWrites = r.pendingTcpWrites ∧
      r'.tcpWriteShutdownQueued = r.tcpWriteShutdownQueued ∧
        r'.needsDecompress = r.needsDecompress ∧ r'.sinkQuicReceives = r.sinkQuicReceives)
    (hplain : r.sinkQuicReceives = false → zstd = false →
      bytesWritten r'.log ++ (view'.slices.flatten ++ rest.flatMap fun v => v.slices.flatten) =
        bytesAppended r'.log)
    (hinflated : r.sinkQuicReceives = false → zstd = true →
      bytesWritten r'.log ++ r.pendingTcpWrites.flatten = bytesInflated r'.log ∧
        bytesInflatedFrom r'.log ++
          (view'.slices.flatten ++ rest.flatMap fun v => v.slices.flatten) = bytesAppended r'.log) :
    r'.DownloadLive zstd := by
  obtain ⟨hw, hqueued, hmode, hsink⟩ := hside
  have hbytes :
      r'.queuedBytes = view'.slices.flatten ++ rest.flatMap fun v => v.slices.flatten := by
    rw [queuedBytes, hq, flatMap_cons]
  refine ⟨by rw [hsink, hmode]; exact h.mode, by rw [hmode, hsink, hw]; exact h.noWrites, ?_,
    ?_, ?_, ?_, ?_⟩
  · rw [hsink, hbytes]
    exact hplain
  · rw [hsink, hbytes, hw]
    exact hinflated
  · intro hq'
    have hnil := (h.queued (hqueued ▸ hq')).2.1
    rw [hfront] at hnil
    cases hnil
  · have hlast := h.finLast
    rw [hfront] at hlast
    rw [hq]
    cases rest with
    | nil => simp
    | cons next more =>
      simp only [dropLast_cons_cons, mem_cons, forall_eq_or_imp] at hlast ⊢
      exact ⟨hfin.trans hlast.1, hlast.2⟩
  · intro hnone
    have hknown := h.finKnown fun e he => hnone e (hlog ▸ mem_append_left _ he)
    rw [hfront] at hknown
    rw [hq]
    simp only [mem_cons, forall_eq_or_imp] at hknown ⊢
    exact ⟨hfin.trans hknown.1, hknown.2⟩

attribute [local simp] queueQuicReceive

theorem DownloadLive.append (h : r.DownloadLive zstd)
    (hnone : ∀ e ∈ r.log, e.appendsFin = false) : (r.queueQuicReceive view).DownloadLive zstd := by
  have hqueue : (r.queueQuicReceive view).queuedBytes = r.queuedBytes ++ view.slices.flatten := by
    simp [queuedBytes, emit]
  have happended :
      bytesAppended (r.queueQuicReceive view).log = bytesAppended r.log ++ view.slices.flatten := by
    simp [bytesAppended, emit, Effect.appendedBytes]
  have hwritten : bytesWritten (r.queueQuicReceive view).log = bytesWritten r.log := by
    simp [bytesWritten, emit, Effect.writtenBytes]
  have hinput : bytesInflatedFrom (r.queueQuicReceive view).log = bytesInflatedFrom r.log := by
    simp [bytesInflatedFrom, emit, Effect.inflateInputBytes]
  have houtput : bytesInflated (r.queueQuicReceive view).log = bytesInflated r.log := by
    simp [bytesInflated, emit, Effect.inflateOutputBytes]
  refine ⟨h.mode, h.noWrites, fun hsink hz => ?_, fun hsink hz => ?_, fun hq => ?_, ?_,
    fun hnone' => ?_⟩
  · rw [hqueue, happended, hwritten, ← append_assoc, h.plain hsink hz]
  · rw [hqueue, happended, hwritten, hinput, houtput, ← append_assoc, (h.inflated hsink hz).2]
    exact ⟨(h.inflated hsink hz).1, rfl⟩
  · obtain ⟨-, -, -, e, he, hfin⟩ := h.queued hq
    rw [hnone e he] at hfin
    cases hfin
  · simpa [queueQuicReceive, emit] using h.finKnown hnone
  · have hview : view.fin = false :=
      hnone' (.receiveAppended view.slices.flatten view.fin) (by simp [emit])
    simpa [queueQuicReceive, emit, hview, or_imp, forall_and] using h.finKnown hnone

attribute [local simp]
    emit withReceives ReceiveView.consume queuedBytes bytesWritten bytesAppended bytesInflated
  bytesInflatedFrom Effect.writtenBytes Effect.appendedBytes Effect.inflateInputBytes
    Effect.inflateOutputBytes

section

variable (h : r.DownloadLive zstd)
include h

variable {sent : Bytes} {slices : List Bytes}

theorem DownloadLive.write (hfront : r.pendingQuicReceives = view :: rest)
    (hsink : r.sinkQuicReceives = false) (hplain : r.needsDecompress = false)
    (hbytes : view.slices.flatten = sent ++ slices.flatten) :
    ((r.withReceives (view.consume slices sent.length :: rest)).emit
      (.tcpWrite sent)).DownloadLive zstd := by
  have hz : zstd = false := (h.mode hsink).symm.trans hplain
  refine h.setFront hfront rfl rfl rfl ⟨rfl, rfl, rfl, rfl⟩ (fun _ _ => ?_) (fun _ hz' => ?_)
  · simpa [hfront, hbytes] using h.plain hsink hz
  · rw [hz] at hz'
    cases hz'

theorem DownloadLive.inflate {input : Bytes} (hfront : r.pendingQuicReceives = view :: rest)
    (hsink : r.sinkQuicReceives = false) (hzstd : r.needsDecompress = true)
    (hbytes : view.slices.flatten = input ++ slices.flatten) :
    ((r.withReceives (view.consume slices input.length :: rest)).emit
      (.inflateInput input)).DownloadLive zstd := by
  have hz : zstd = true := (h.mode hsink).symm.trans hzstd
  refine h.setFront hfront rfl rfl rfl ⟨rfl, rfl, rfl, rfl⟩ (fun _ hz' => ?_) (fun _ _ => ?_)
  · rw [hz] at hz'
    cases hz'
  · simpa [hfront, hbytes] using h.inflated hsink hz

theorem DownloadLive.produce {output : Bytes} (hsink : r.sinkQuicReceives = false)
    (hzstd : r.needsDecompress = true) (hbusy : r.pendingQuicReceives ≠ []) :
    (r.pushTcpWrite output).DownloadLive zstd := by
  have hz : zstd = true := (h.mode hsink).symm.trans hzstd
  refine ⟨h.mode, fun hor => ?_, fun _ hz' => ?_, fun _ _ => ?_, fun hq => ?_, h.finLast,
    fun hnone => ?_⟩
  · simp only [pushTcpWrite, emit] at hor
    rcases hor with hno | hyes
    · exact absurd hno (by simp [needsDecompress] at hzstd ⊢; simp [hzstd])
    · exact absurd hyes (by simp [hsink])
  · rw [hz] at hz'
    cases hz'
  · obtain ⟨hwritten, hinput⟩ := h.inflated hsink hz
    refine ⟨?_, by simpa [pushTcpWrite] using hinput⟩
    simpa [pushTcpWrite] using congrArg (· ++ output) hwritten
  · exact absurd (h.queued hq).2.1 hbusy
  · exact h.finKnown fun e he => hnone e (mem_append_left _ he)

theorem DownloadLive.send {writes : List Bytes} (hsent : sent ≠ [])
    (hbytes : r.pendingTcpWrites.flatten = sent ++ writes.flatten) :
    ((r.withWrites writes).emit (.tcpWrite sent)).DownloadLive zstd := by
  have hpending : r.pendingTcpWrites ≠ [] := by
    intro hnil
    rw [hnil] at hbytes
    exact hsent (append_eq_nil_iff.mp hbytes.symm).1
  have hzstd : r.needsDecompress = true := by
    by_contra hno
    exact hpending (h.noWrites (.inl (by simpa using hno)))
  refine ⟨h.mode, fun hor => ?_, fun hsink hz => ?_, fun hsink hz => ?_, fun hq => ?_, h.finLast,
    fun hnone => ?_⟩
  · exact absurd (h.noWrites hor) hpending
  · have : r.needsDecompress = false := (h.mode hsink).trans hz
    rw [hzstd] at this
    cases this
  · simpa [withWrites, hbytes] using h.inflated hsink hz
  · exact absurd (h.queued hq).2.2.1 hpending
  · exact h.finKnown fun e he => hnone e (mem_append_left _ he)

theorem DownloadLive.retire (hfront : r.pendingQuicReceives = view :: rest)
    (hsink : r.sinkQuicReceives = false) (hdone : view.slices.flatten = [])
    (hwrites : view.fin = true → r.pendingTcpWrites = []) :
    (r.retireFrontReceive view.fin).DownloadLive zstd := by
  have hbytes : (r.retireFrontReceive view.fin).queuedBytes = r.queuedBytes := by
    simp [queuedBytes, retireFrontReceive, popFrontReceive, hfront, hdone]
  refine ⟨h.mode, h.noWrites, ?_, ?_, fun hq => ?_, fun v hv => ?_, fun hnone v hv => ?_⟩
  · rw [hbytes]
    exact h.plain
  · rw [hbytes]
    exact h.inflated
  · have hor : r.tcpWriteShutdownQueued = true ∨ view.fin = true := by
      simpa [retireFrontReceive, popFrontReceive] using hq
    rcases hor with hq' | hfin
    · have hnil := (h.queued hq').2.1
      rw [hfront] at hnil
      cases hnil
    · -- the FIN view is the last one, and it is known from the log
      have hrest : rest = [] := by
        by_contra hne
        have := h.finLast view (by rw [hfront, dropLast_cons_of_ne_nil hne]; exact mem_cons_self)
        rw [hfin] at this
        cases this
      refine ⟨hsink, by simp [retireFrontReceive, popFrontReceive, hfront, hrest], hwrites hfin, ?_⟩
      by_contra hnone
      have := h.finKnown (fun e he => by
        by_contra hfin'
        exact hnone ⟨e, he, by simpa using hfin'⟩) view (by rw [hfront]; exact mem_cons_self)
      rw [hfin] at this
      cases this
  · refine h.finLast v ?_
    have hv' : v ∈ rest.dropLast := by simpa [retireFrontReceive, popFrontReceive, hfront] using hv
    rw [hfront, dropLast_cons_of_ne_nil (by rintro rfl; simp at hv')]
    exact mem_cons_of_mem _ hv'
  · exact h.finKnown hnone v (mem_of_mem_tail hv)

theorem DownloadLive.swallow
    (hfront : r.pendingQuicReceives = view :: rest) (hsink : r.sinkQuicReceives = true) :
    r.popFrontReceive.DownloadLive zstd := by
  have hno : ∀ {P : Prop}, r.sinkQuicReceives = false → P := fun hs => by rw [hsink] at hs; cases hs
  refine ⟨h.mode, h.noWrites, fun hs => hno hs, fun hs => hno hs, fun hq => hno (h.queued hq).1,
    fun v hv => ?_,
    fun hnone v hv => h.finKnown hnone v (mem_of_mem_tail hv)⟩
  refine h.finLast v ?_
  have hv' : v ∈ rest.dropLast := by simpa [popFrontReceive, hfront] using hv
  rw [hfront, dropLast_cons_of_ne_nil (by rintro rfl; simp at hv')]
  exact mem_cons_of_mem _ hv'

/-- A half-close that is queued waits for nothing any more. -/
theorem DownloadLive.drained (hqueued : r.tcpWriteShutdownQueued = true) :
    Drained zstd r.log := by
  obtain ⟨hsink, hq, hw, hfin⟩ := h.queued hqueued
  refine ⟨hfin, fun hz => ?_, fun hz => ?_⟩
  · simpa [queuedBytes, hq] using h.plain hsink hz
  · have := h.inflated hsink hz
    simp only [queuedBytes, hq, hw, flatMap_nil, flatten_nil, append_nil] at this
    exact ⟨this.2, this.1⟩

theorem DownloadLive.halfClose : r.closeTcpWrite.DownloadLive zstd :=
  ⟨h.mode, h.noWrites, h.plain, h.inflated, fun hq => absurd hq (by simp [closeTcpWrite]),
    h.finLast, h.finKnown⟩

end

section

variable (h : r.DownloadInv zstd)
include h

variable {e : Effect} {strict : Prop}

theorem DownloadInv.emit (he : e.kind ≠ .download) : (r.emit e).DownloadInv zstd :=
  h.keeps rfl (by simpa using he) id (fun _ => rfl)

theorem DownloadInv.sealBinding : r.sealBinding.DownloadInv zstd :=
  h.keeps (append_nil _).symm (by simp) id (fun _ => rfl)

/-- Credit effects after a move that keeps the relay in order. -/
theorem DownloadInv.record (hes : ∀ e ∈ es, e.kind = .credit) :
    (r.record es).DownloadInv zstd :=
  h.keeps rfl (fun e he => by rw [hes e he]; decide) id (fun _ => rfl)

/-- A move of an open relay that changes the log by one effect, not a shutdown. -/
theorem DownloadInv.of_live (he : e ≠ .shutdownWrite) (hlog : r'.log = r.log ++ [e])
    (hopen : r.closing = false)
    (hlive : FinLast r'.log → r.DownloadLive zstd → r'.DownloadLive zstd) :
    r'.DownloadInv zstd :=
  ⟨by rw [hlog]; exact halfCloseOrder_concat h.ordered he,
    fun _ hfin => hlive hfin (h.live hopen (FinLast.left (hlog ▸ hfin)))⟩

/-- The front view changes, but neither the bytes it holds nor its FIN flag. -/
theorem DownloadInv.setFront {view' : ReceiveView}
    (hopen : r.closing = false) (hfront : r.pendingQuicReceives = view :: rest)
    (hslices : view'.slices.flatten = view.slices.flatten) (hfin : view'.fin = view.fin) :
    (r.withReceives (view' :: rest)).DownloadInv zstd := by
  refine ⟨h.ordered, fun _ hlast => ?_⟩
  have hl := h.live hopen hlast
  have hplain := hl.plain
  have hinflated := hl.inflated
  simp only [queuedBytes, hfront, flatMap_cons, ← hslices] at hplain hinflated
  exact hl.setFront hfront rfl hfin (append_nil _).symm ⟨rfl, rfl, rfl, rfl⟩ hplain hinflated

/-- **Every move keeps the download in order**, if a strict one was asked for. -/
theorem DownloadInv.move (hstrict : FinLast r.log → strict)
    (hm : Move KeepsDownload strict r r') : r'.DownloadInv zstd := by
  cases hm with
  | quiet hk =>
    obtain ⟨es, hlog, hes⟩ := hk.grown
    refine h.keeps hlog (fun e he => ?_) (fun hc => hk.closing ▸ hc)
      (fun _ => congrArg Prod.fst hk.kept)
    rcases hes e he with hkind | hkind <;> rw [hkind] <;> decide
  | shut hs =>
    obtain ⟨es, hlog, hes⟩ := hs.grown
    have hno : ∀ {P : Prop}, r'.closing = false → P := fun hc => by rw [hs.closed] at hc; cases hc
    refine h.keeps hlog (fun e he => ?_) (fun hc => hno hc) (fun hc => hno hc)
    rcases hes e he with hkind | hkind <;> rw [hkind] <;> decide
  | trim hopen hfront hslices => exact h.setFront hopen hfront hslices rfl
  | returnCredit hopen hfront hes _ =>
    refine DownloadInv.record (h.setFront hopen hfront ?_ ?_) hes <;> rfl
  | write hopen hfront hsink hplain hbytes =>
    exact h.of_live (by simp) rfl hopen fun _ hl => hl.write hfront hsink hplain hbytes
  | inflate hopen hfront hsink hzstd hbytes =>
    exact h.of_live (by simp) rfl hopen fun _ hl => hl.inflate hfront hsink hzstd hbytes
  | produce hopen hsink hzstd hbusy =>
    exact h.of_live (by simp) rfl hopen fun _ hl => hl.produce hsink hzstd hbusy
  | send hopen hsent hbytes => exact h.of_live (by simp) rfl hopen fun _ hl => hl.send hsent hbytes
  | @retire view _ es hopen hfront hsink hdone hes _ hwrites =>
    have hinv : (r.retireFrontReceive view.fin).DownloadInv zstd :=
      ⟨h.ordered, fun _ hfin =>
        (h.live hopen hfin).retire hfront hsink hdone (hwrites (hstrict hfin))⟩
    exact hinv.record hes
  | swallow hopen hfront hsink hes _ =>
    have hinv : r.popFrontReceive.DownloadInv zstd :=
      ⟨h.ordered, fun _ hfin => (h.live hopen hfin).swallow hfront hsink⟩
    exact hinv.record hes
  | halfClose hopen hqueued _ hes =>
    have hlive : FinLast r.log → r.closeTcpWrite.DownloadLive zstd :=
      fun hfin => (h.live hopen hfin).halfClose
    rcases hes with rfl | rfl
    · have hinv : r.closeTcpWrite.DownloadInv zstd := ⟨h.ordered, fun _ => hlive⟩
      exact hinv.record (by simp)
    · refine ⟨throughout_concat.mpr ⟨h.ordered, fun hfin before heq => ?_⟩, fun _ hfin => ?_⟩
      · obtain ⟨rfl, -⟩ := append_inj' heq rfl
        exact (h.live hopen hfin.left).drained hqueued
      · exact (hlive (FinLast.left hfin)).keeps rfl (by simp [Effect.carriesData]) rfl

theorem DownloadInv.moves (hstrict : FinLast r.log → strict)
    (hm : Moves KeepsDownload strict r r') : r'.DownloadInv zstd := by
  suffices hboth : (∃ es, r'.log = r.log ++ es) ∧ r'.DownloadInv zstd from hboth.2
  induction hm with
  | refl => exact ⟨⟨[], (append_nil _).symm⟩, h⟩
  | tail _ hm ih =>
    obtain ⟨⟨es, hlog⟩, hinv⟩ := ih
    obtain ⟨fs, hlog'⟩ := hm.grown
    refine ⟨⟨es ++ fs, by rw [hlog', hlog, append_assoc]⟩, hinv.move (fun hfin => hstrict ?_) hm⟩
    rw [hlog] at hfin
    exact hfin.left

end
end Relay

namespace Worker

/-- A step that is not a flush which finds the FIN behind a pending write of a
decompressing relay. -/
def flushesFinUnblocked (w : Worker) : Action → Bool
  | .call _ =>
    match w.calls with
    | .flushDeferredQuicReceives :: _ =>
      !w.relay.needsDecompress || w.relay.pendingTcpWrites.isEmpty ||
        w.relay.pendingQuicReceives.all (!·.fin)
    | _ => true
  | _ => true

variable {zstd : Bool} {w w' : Worker} {a : Action}

theorem DownloadInv.accepted {bytes : Bytes} {fin : Bool} {view : ReceiveView}
    (h : w.relay.DownloadInv zstd) (hacc : Accepted w w' bytes fin view) :
    w'.relay.DownloadInv zstd := by
  obtain ⟨m, hflows, hm⟩ := hacc.relay
  obtain ⟨es, hlog, hes⟩ := hflows.grown
  have hside : m.downloadSide = w.relay.downloadSide :=
    congrArg (fun c : UploadSide × DownloadSide × Bool => c.2.1) hflows.kept
  have hinv : m.DownloadInv zstd := by
    have hlog' : m.log = w.relay.log ++ ([.receiveIndicated bytes fin] ++ es) := by
      rw [hlog]; simp [Relay.emit]
    refine h.keeps hlog' ?_ (fun hc => hflows.closing ▸ hc) (fun _ => hside)
    simp only [mem_append, mem_singleton]
    rintro e (rfl | he)
    · simp [Effect.kind]
    · rw [hes e he]
      decide
  rcases hm with hm | hm
  · rw [hm]
    exact hinv
  · rw [hm]
    exact hinv.emit (by simp [Effect.kind])

theorem DownloadInv.stepped (cfg : Config) {strict : Prop} (h : w.relay.DownloadInv zstd)
    (hstrict : FinLast w.relay.log → strict) (hs : Stepped cfg strict a w w') :
    w'.relay.DownloadInv zstd := by
  have hkeeps {r r' : Relay} (hr : r.DownloadInv zstd) (hk : KeepsDownload r r') :
      r'.DownloadInv zstd :=
    hr.move (fun hf => (trivial : True)) (.quiet hk)
  cases hs with
  | moved hrelay => exact h.moves hstrict hrelay
  | loaded _ _ hrelay => exact hkeeps h hrelay
  | laneLoaded _ hopen hrelay =>
    refine hkeeps (r := { w.relay with callbackPendingQuicReceives := [] }) ?_ hrelay
    exact h.keeps (append_nil _).symm (by simp) id (fun _ => rfl)
  | @appended view hopen hrelay =>
    have hinv : (w.relay.queueQuicReceive view).DownloadInv zstd :=
      h.of_live (by simp) rfl hopen fun hfin hl => hl.append (hfin.no_fin rfl)
    exact hkeeps hinv hrelay
  | discarded hclosed hes _ hrelay => exact hkeeps (h.record hes) hrelay
  | received hacc | receivedLane hacc => exact DownloadInv.accepted h hacc
  | ignored _ hrelay =>
    rw [hrelay]
    exact (h.emit (by simp [Effect.kind])).emit (by simp [Effect.kind])
  | refused hrelay =>
    rw [hrelay]
    exact (h.emit (by simp [Effect.kind])).sealBinding
  | shutOff hstop hrelay =>
    rw [hrelay]
    exact (hkeeps h hstop.download).sealBinding
  | erased hrelay => exact h.moves hstrict (.of_shuts hrelay)

theorem download_step (cfg : Config) (hs : w.Sound) (h : w.relay.DownloadInv zstd)
    (hr : w.flushesFinUnblocked a = true) (hstep : w.step cfg a = some w') :
    w'.relay.DownloadInv zstd := by
  have hunblocked : FinLast w.relay.log → ∀ io, a = .call io → w.flushesUnblocked := by
    rintro hfin io rfl rest hcalls hopen
    simp only [flushesFinUnblocked, hcalls, Bool.or_eq_true, Bool.not_eq_true', List.isEmpty_iff,
      all_eq_true] at hr
    rcases hr with (hplain | hnil) | hfree
    · exact .inl ((h.live hopen hfin).noWrites (.inl hplain))
    · exact .inl hnil
    · exact .inr hfree
  exact DownloadInv.stepped cfg h id (stepped_step cfg hs hunblocked hstep)

theorem download_start (cfg : Config) (reg : Registration) (tcpInput : Bytes) :
    (start cfg reg tcpInput).relay.DownloadInv reg.decompresses := by
  refine ⟨throughout_nil.mpr fun _ before h => by simp at h, fun _ _ => ?_⟩
  refine ⟨fun _ => rfl, fun _ => rfl, fun _ _ => rfl, fun _ _ => ⟨rfl, rfl⟩, fun h => ?_, ?_, ?_⟩
  · exact absurd h (by simp [start, Relay.ofRegistration])
  all_goals simp [start, Relay.ofRegistration]

/-- **No early half-close.** In every run in which no flush of the receive
queue finds the FIN behind a pending write of a decompressing relay, the write
side is shut down only after all that precedes the FIN has been written. -/
theorem half_close_after_drain_of_unblocked_fin (cfg : Config) (reg : Registration)
    (tcpInput : Bytes) (as : List Action) (w : Worker)
    (hunblocked : Meets (step cfg) (fun w a => w.flushesFinUnblocked a = true)
      (start cfg reg tcpInput) as) (hrun : run (step cfg) (start cfg reg tcpInput) as = some w) :
    Throughout (HalfCloseOrder reg.decompresses) w.relay.log :=
  (invariant_of_meets
    (fun _ _ _ h hr hs => And.intro (sound_step cfg h.1 hs) (download_step cfg h.1 h.2 hr hs))
    ⟨sound_start cfg reg tcpInput, download_start cfg reg tcpInput⟩ hunblocked hrun).2.ordered

def decompressing : Registration := { decompressor := true, compressAlgo := .zstd }

/-- One compressed view with the FIN is inflated into two bytes, and the socket
takes none of them. -/
def blockedInflate : List Action :=
  registration ++ [.receive [[7]] true {}, .drainEvents, .call {}, .call {}, .call {}, .call {},
    .call { inflates := [{ inputConsumed := 1, output := [5, 6] }] }, .call {}, .call {},
      .call {}, .call {}]

/-- The socket takes both bytes before the receive queue is flushed again. -/
def drainedHalfClose : List Action :=
  blockedInflate ++ [.epoll { writable := true }, .call { writes := [.sent 1, .sent 1] },
    .call { inflates := [{ needsMoreInput := true }] }, .call {}]

theorem drainedHalfClose_after_drain :
    ∃ w, run (step {}) (start {} decompressing []) drainedHalfClose = some w ∧
      Effect.shutdownWrite ∈ w.relay.log ∧ Throughout (HalfCloseOrder true) w.relay.log := by
  refine run_observed (f := fun w => decide (Effect.shutdownWrite ∈ w.relay.log))
    (o := true) (by decide +kernel) fun w hw hshut => ?_
  exact ⟨of_decide_eq_true hshut,
    half_close_after_drain_of_unblocked_fin {} decompressing [] drainedHalfClose w
      (by decide +kernel) hw⟩

/-- The socket stays blocked, and the flush behind the failed write retires the
FIN view with both bytes still pending. -/
def earlyHalfClose : List Action :=
  blockedInflate ++
    [.epoll { writable := true }, .call {}, .call { inflates := [{ needsMoreInput := true }] }]

theorem earlyHalfClose_before_drain :
    ∃ w before, run (step {}) (start {} decompressing []) earlyHalfClose = some w ∧
      w.relay.log = before ++ [.shutdownWrite] ∧ FinLast w.relay.log ∧
      bytesInflated before = [5, 6] ∧ bytesWritten before = [] ∧
      ¬ Throughout (HalfCloseOrder true) w.relay.log := by
  have htrace : (run (step {}) (start {} decompressing []) earlyHalfClose).map
      (fun w =>
        (w.relay.log.getLast?, decide (FinLast w.relay.log), bytesInflated w.relay.log.dropLast,
        bytesWritten w.relay.log.dropLast)) = some (some .shutdownWrite, true, [5, 6], []) := by
          decide +kernel
  obtain ⟨w, hw, hobs⟩ := Option.map_eq_some_iff.mp htrace
  simp only [Prod.mk.injEq, decide_eq_true_eq] at hobs
  obtain ⟨hlast, hfin, hinflated, hwritten⟩ := hobs
  have hlog := (dropLast_append_getLast? _ hlast).symm
  refine ⟨w, _, hw, hlog, hfin, hinflated, hwritten, fun h => ?_⟩
  have hdrained := (h.now hfin _ hlog).inflated rfl
  rw [hinflated, hwritten] at hdrained
  cases hdrained.2

end Worker
end TcpQuicProxy.LinuxRelay
