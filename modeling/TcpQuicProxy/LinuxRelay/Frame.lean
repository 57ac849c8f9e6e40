import TcpQuicProxy.LinuxRelay.Worker

/-!
# What the functions of a relay leave alone

The effects of a relay belong to its upload direction, to its download
direction, to the receive credit, to the stream callback or to control.
`Keeps proj allowed r r'` says that the log grew by allowed effects only and
that the projected data is the same; it composes. Functions that return
receive credit are described by `Returns`, those that close the relay by
`Shuts`, which bounds the credit they return.
-/

namespace TcpQuicProxy.LinuxRelay

open List

inductive EffectKind where
  | upload
  | download
  | credit
  | callback
  | control
  deriving DecidableEq

def Effect.kind : Effect → EffectKind
  | .tcpRead _ => .upload
  | .tcpEof => .upload
  | .streamSend _ _ => .upload
  | .receiveIndicated _ _ => .callback
  | .receiveConsumed _ => .callback
  | .receiveAppended _ _ => .download
  | .inflateInput _ => .download
  | .inflateOutput _ => .download
  | .tcpWrite _ => .download
  | .shutdownWrite => .download
  | .receiveComplete _ => .credit
  | .receiveSetEnabled _ => .control
  | .beginTerminalShutdown _ => .control
  | .resetSocket => .control
  | .closeSocket => .control
  | .stop => .control

/-- The data of the TCP-to-QUIC direction. -/
structure UploadSide where
  pendingQuicSendRetries : List SendOperation
  tcpInput : Bytes
  tcpReadClosed : Bool
  compresses : Bool
  enableQuicSends : Bool

/-- The data of the QUIC-to-TCP direction. -/
structure DownloadSide where
  pendingTcpWrites : List Bytes
  pendingQuicReceives : List ReceiveView
  tcpWriteShutdownQueued : Bool
  needsDecompress : Bool
  sinkQuicReceives : Bool

/-- What the RECEIVE callback looks at: its lane, and whether it is shut off. -/
structure CallbackSide where
  callbackPendingQuicReceives : List ReceiveView
  shutOff : Bool

namespace Relay

def uploadSide (r : Relay) : UploadSide :=
  ⟨r.pendingQuicSendRetries, r.tcpInput, r.tcpReadClosed, r.compresses, r.enableQuicSends⟩

def downloadSide (r : Relay) : DownloadSide :=
  ⟨r.pendingTcpWrites, r.pendingQuicReceives, r.tcpWriteShutdownQueued, r.needsDecompress,
    r.sinkQuicReceives⟩

def callbackSide (r : Relay) : CallbackSide :=
  ⟨r.callbackPendingQuicReceives, r.bindingClosing || r.closing⟩

def core (r : Relay) : UploadSide × DownloadSide × CallbackSide :=
  (r.uploadSide, r.downloadSide, r.callbackSide)

/-- A closed relay has let go of its socket. -/
def Sealed (r : Relay) : Prop := r.closing = true → r.tcpFdOpen = false

end Relay

structure Keeps {κ : Type} (proj : Relay → κ) (allowed : EffectKind → Prop)
    (r r' : Relay) : Prop where
  grown : ∃ es, r'.log = r.log ++ es ∧ ∀ e ∈ es, allowed e.kind
  closing : r'.closing = r.closing
  tcpFdOpen : r'.tcpFdOpen = r.tcpFdOpen
  kept : proj r' = proj r

namespace Keeps

variable {κ μ : Type} {proj : Relay → κ} {allowed : EffectKind → Prop} {r r' r'' : Relay}

theorem of_emit {e : Effect} (hlog : r'.log = r.log ++ [e]) (he : allowed e.kind)
    (hclosing : r'.closing = r.closing) (hfd : r'.tcpFdOpen = r.tcpFdOpen)
    (hproj : proj r' = proj r) :
    Keeps proj allowed r r' :=
  ⟨⟨[e], hlog, by simpa using he⟩, hclosing, hfd, hproj⟩

theorem of_eq (hlog : r'.log = r.log) (hclosing : r'.closing = r.closing)
    (hfd : r'.tcpFdOpen = r.tcpFdOpen) (hproj : proj r' = proj r) : Keeps proj allowed r r' :=
  ⟨⟨[], by simp [hlog], by simp⟩, hclosing, hfd, hproj⟩

theorem refl (r : Relay) : Keeps proj allowed r r := of_eq rfl rfl rfl rfl

theorem trans (h : Keeps proj allowed r r') (h' : Keeps proj allowed r' r'') :
    Keeps proj allowed r r'' := by
  obtain ⟨es, hes, hall⟩ := h.grown
  obtain ⟨fs, hfs, hall'⟩ := h'.grown
  refine ⟨⟨es ++ fs, by rw [hfs, hes, append_assoc], ?_⟩, h'.closing.trans h.closing,
    h'.tcpFdOpen.trans h.tcpFdOpen, h'.kept.trans h.kept⟩
  exact forall_mem_append.mpr ⟨hall, hall'⟩

/-- A change of unobserved fields before a function that keeps the rest. -/
theorem after_update (h : Keeps proj allowed r' r'') (hlog : r'.log = r.log)
    (hclosing : r'.closing = r.closing) (hfd : r'.tcpFdOpen = r.tcpFdOpen)
    (hproj : proj r' = proj r) : Keeps proj allowed r r'' :=
  trans (of_eq hlog hclosing hfd hproj) h

theorem mono {allowed' : EffectKind → Prop} (f : κ → μ) (hall : ∀ k, allowed k → allowed' k)
    (h : Keeps proj allowed r r') : Keeps (f ∘ proj) allowed' r r' := by
  obtain ⟨es, hes, hes'⟩ := h.grown
  exact ⟨⟨es, hes, fun e he => hall _ (hes' e he)⟩, h.closing, h.tcpFdOpen, congrArg f h.kept⟩

end Keeps

/-- A control function: it leaves both directions and the callback alone. -/
abbrev KeepsCore (r r' : Relay) : Prop := Keeps Relay.core (· = .control) r r'

/-- A function of the upload direction, seen from the other two. -/
abbrev KeepsDownload (r r' : Relay) : Prop :=
  Keeps (fun r => (r.downloadSide, r.callbackSide)) (fun k => k = .upload ∨ k = .control) r r'

theorem KeepsCore.download {r r' : Relay} (h : KeepsCore r r') : KeepsDownload r r' :=
  h.mono Prod.snd (fun _ => .inr)

namespace Relay

variable (cfg : Config) (r : Relay)

theorem keeps_answering (io : Io) : KeepsCore r (r.answering io) := .of_eq rfl rfl rfl rfl

theorem keeps_emit {e : Effect} (he : e.kind = .control) : KeepsCore r (r.emit e) :=
  .of_emit rfl he rfl rfl rfl

theorem keeps_setRelayStop : KeepsCore r r.setRelayStop := r.keeps_emit rfl

theorem keeps_setTcpReadBackpressure (paused : Bool) :
    KeepsCore r (r.setTcpReadBackpressure paused) :=
  .of_eq rfl rfl rfl rfl

theorem keeps_armTcpReadable (enabled : Bool) : KeepsCore r (r.armTcpReadable enabled) := by
  unfold armTcpReadable
  split <;> exact .of_eq rfl rfl rfl rfl

theorem keeps_armTcpWritable (enabled : Bool) : KeepsCore r (r.armTcpWritable enabled) := by
  unfold armTcpWritable
  split <;> exact .of_eq rfl rfl rfl rfl

theorem keeps_pauseTcpRead : KeepsCore r r.pauseTcpRead :=
  (r.keeps_setTcpReadBackpressure true).trans (keeps_armTcpReadable _ false)

theorem keeps_resumeTcpRead : KeepsCore r r.resumeTcpRead := by
  unfold resumeTcpRead
  split
  · exact (r.keeps_setTcpReadBackpressure false).trans (keeps_armTcpReadable _ true)
  · exact .refl r

theorem keeps_handleQuicIdealSendBuffer (byteCount : Nat) :
    KeepsCore r (r.handleQuicIdealSendBuffer byteCount) := by
  unfold handleQuicIdealSendBuffer
  split
  · exact .refl r
  · exact (keeps_resumeTcpRead _).after_update rfl rfl rfl rfl

theorem tryAcquireApi_eq : ∃ io, r.tryAcquireApi.2 = { r with io := io } := by
  unfold tryAcquireApi
  split <;> exact ⟨_, rfl⟩

theorem keeps_setQuicReceiveEnabled (enabled : Bool) :
    KeepsCore r (r.setQuicReceiveEnabled enabled) := by
  unfold setQuicReceiveEnabled
  obtain ⟨io, hio⟩ := r.tryAcquireApi_eq
  split
  · rcases hl : r.tryAcquireApi with ⟨lease, r'⟩
    rw [hl] at hio
    obtain rfl : r' = { r with io := io } := hio
    dsimp only
    split
    · exact .of_emit rfl rfl rfl rfl rfl
    · exact .of_eq rfl rfl rfl rfl
  · exact .refl r

theorem keeps_maybePauseQuicReceive : KeepsCore r (r.maybePauseQuicReceive cfg) := by
  unfold maybePauseQuicReceive
  split
  · exact (keeps_setQuicReceiveEnabled _ false).after_update rfl rfl rfl rfl
  · exact .refl r

theorem keeps_maybeResumeQuicReceive : KeepsCore r (r.maybeResumeQuicReceive cfg) := by
  unfold maybeResumeQuicReceive
  split
  · exact (keeps_setQuicReceiveEnabled _ true).after_update rfl rfl rfl rfl
  · exact .refl r

theorem keeps_drainTcpReadable : KeepsCore r r.drainTcpReadable.2 := by
  unfold drainTcpReadable
  split_ifs
  · exact .refl r
  · exact r.keeps_armTcpReadable false
  · exact r.keeps_pauseTcpRead
  · exact .refl r

theorem keeps_noteBufferLimit (readBytes : Nat) :
    KeepsCore r (r.noteBufferLimit cfg readBytes) := by
  unfold noteBufferLimit
  split
  · exact r.keeps_armTcpReadable false
  · exact .refl r

theorem keeps_takeWrite : KeepsCore r r.takeWrite.2 := by
  unfold takeWrite
  split <;> exact .of_eq rfl rfl rfl rfl

theorem keeps_takeInflate : KeepsCore r r.takeInflate.2 := by
  unfold takeInflate
  split <;> exact .of_eq rfl rfl rfl rfl

theorem keeps_disarmIdleWritable : KeepsCore r r.disarmIdleWritable := by
  unfold disarmIdleWritable
  split
  · exact r.keeps_armTcpWritable false
  · exact .refl r

theorem keeps_accountQuicSend (op : SendOperation) : KeepsCore r (r.accountQuicSend op) := by
  simp only [accountQuicSend]
  split_ifs with hc
  -- the detach of a closed relay shuts off a callback that is off already
  · refine .of_eq rfl rfl rfl ?_
    simp [core, callbackSide, uploadSide, downloadSide, completePendingStreamDetach,
      needsDecompress, compresses, hc]
  · exact .of_eq rfl rfl rfl rfl
  · exact .of_eq rfl rfl rfl rfl

end Relay

/-! ### Receive credit -/

def Effect.completed : Effect → Nat
  | .receiveComplete count => count
  | _ => 0

/-- The total passed to `StreamReceiveComplete` so far. -/
def completedBytes (log : List Effect) : Nat := Machine.total Effect.completed log

/-- What a view may still return: its unconsumed bytes and the consumed ones
that are not reported yet. -/
def ReceiveView.credit (view : ReceiveView) : Nat := view.remaining + view.pendingCompleteBytes

def totalCredit (views : List ReceiveView) : Nat := Machine.total ReceiveView.credit views

def Relay.heldCredit (r : Relay) : Nat :=
  totalCredit r.pendingQuicReceives + totalCredit r.callbackPendingQuicReceives

@[simp] theorem completedBytes_append (l l' : List Effect) :
    completedBytes (l ++ l') = completedBytes l + completedBytes l' := Machine.total_append _ l l'

@[simp] theorem totalCredit_nil : totalCredit [] = 0 := rfl

@[simp] theorem totalCredit_cons (view : ReceiveView) (views : List ReceiveView) :
    totalCredit (view :: views) = view.credit + totalCredit views := rfl

theorem completedBytes_of_kind {es : List Effect} (h : ∀ e ∈ es, e.kind ≠ .credit) :
    completedBytes es = 0 := by
  refine Machine.total_eq_zero fun e he => ?_
  have := h e he
  cases e <;> simp_all [Effect.kind, Effect.completed]

/-- The view and the relay after credit of the view was returned or, without
a lease, given up. -/
structure Returns (r : Relay) (view : ReceiveView) (p : ReceiveView × Relay) : Prop where
  relay : ∃ io es, p.2 = { r with io := io, log := r.log ++ es } ∧ (∀ e ∈ es, e.kind = .credit) ∧
    completedBytes es + p.1.pendingCompleteBytes ≤ view.pendingCompleteBytes
  view : p.1 = { view with
    pendingCompleteBytes := p.1.pendingCompleteBytes
    zeroLengthFinCompletionPending := p.1.zeroLengthFinCompletionPending }

namespace Returns

variable {r : Relay} {view : ReceiveView} {p q : ReceiveView × Relay}

theorem refl (r : Relay) (view : ReceiveView) : Returns r view (view, r) :=
  ⟨⟨r.io, [], by simp, by simp, by simp [completedBytes]⟩, rfl⟩

theorem trans (h : Returns r view p) (h' : Returns p.2 p.1 q) : Returns r view q := by
  obtain ⟨io, es, hp, hes, hle⟩ := h.relay
  obtain ⟨io', es', hq, hes', hle'⟩ := h'.relay
  refine ⟨⟨io', es ++ es', by rw [hq, hp]; simp, ?_, by rw [completedBytes_append]; omega⟩, ?_⟩
  · exact forall_mem_append.mpr ⟨hes, hes'⟩
  · rw [h'.view, h.view]

end Returns

namespace Relay

variable (cfg : Config) (r : Relay)

theorem returns_completeZeroLengthFinReceive (view : ReceiveView) :
    Returns r view (r.completeZeroLengthFinReceive view) := by
  unfold completeZeroLengthFinReceive
  obtain ⟨io, hio⟩ := r.tryAcquireApi_eq
  split
  · rcases hl : r.tryAcquireApi with ⟨lease, r'⟩
    rw [hl] at hio
    obtain rfl : r' = { r with io := io } := hio
    dsimp only
    split
    · exact ⟨⟨io, [.receiveComplete 0], rfl, by simp [Effect.kind],
        by simp [completedBytes, Effect.completed]⟩, rfl⟩
    · exact ⟨⟨io, [], by simp, by simp, by simp [completedBytes]⟩, rfl⟩
  · exact .refl r view

theorem returns_flushDeferredReceiveCompletion (view : ReceiveView) (force : Bool) :
    Returns r view (r.flushDeferredReceiveCompletion cfg view force) := by
  unfold flushDeferredReceiveCompletion
  obtain ⟨io, hio⟩ := r.tryAcquireApi_eq
  rcases hl : r.tryAcquireApi with ⟨lease, r'⟩
  rw [hl] at hio
  obtain rfl : r' = { r with io := io } := hio
  dsimp only
  split_ifs
  · exact .refl r view
  · exact .refl r view
  · exact ⟨⟨io, [.receiveComplete view.pendingCompleteBytes], rfl, by simp [Effect.kind],
      by simp [completedBytes, Effect.completed]⟩, rfl⟩
  · exact ⟨⟨io, [], by simp, by simp, by simp [completedBytes]⟩, rfl⟩

/-- Discarding a view returns at most its credit. -/
theorem completeAndDiscardQuicReceive_eq (view : ReceiveView) :
    ∃ io es, r.completeAndDiscardQuicReceive cfg view = { r with io := io, log := r.log ++ es } ∧
      (∀ e ∈ es, e.kind = .credit) ∧ completedBytes es ≤ view.credit := by
  unfold completeAndDiscardQuicReceive
  have hfin := r.returns_completeZeroLengthFinReceive view
  generalize r.completeZeroLengthFinReceive view = p at hfin
  obtain ⟨io, es, hp, hes, hle⟩ := hfin.relay
  obtain ⟨io', es', hq, hes', hle'⟩ := (returns_flushDeferredReceiveCompletion cfg p.2
    { p.1 with
      pendingCompleteBytes := p.1.pendingCompleteBytes + (p.1.totalLength - p.1.completedLength)
      completedLength := p.1.completedLength + (p.1.totalLength - p.1.completedLength) } true).relay
  refine ⟨io', es ++ es', by simpa [hp] using hq, ?_, ?_⟩
  · exact forall_mem_append.mpr ⟨hes, hes'⟩
  · have hrem : p.1.totalLength - p.1.completedLength = view.remaining := by rw [hfin.view]; rfl
    rw [hrem] at hle'
    simp only [completedBytes_append, ReceiveView.credit]
    dsimp only at hle'
    omega

theorem discardQuicReceives_eq (views : List ReceiveView) :
    ∃ io es, r.discardQuicReceives cfg views = { r with io := io, log := r.log ++ es } ∧
      (∀ e ∈ es, e.kind = .credit) ∧ completedBytes es ≤ totalCredit views := by
  unfold discardQuicReceives
  split
  · exact ⟨r.io, [], by simp, by simp, by simp [completedBytes]⟩
  clear * -
  induction views generalizing r with
  | nil => exact ⟨r.io, [], by simp, by simp, by simp [completedBytes]⟩
  | cons view views ih =>
    obtain ⟨io, es, hr, hes, hle⟩ := r.completeAndDiscardQuicReceive_eq cfg view
    obtain ⟨io', es', hr', hes', hle'⟩ := ih (r.completeAndDiscardQuicReceive cfg view)
    refine ⟨io', es ++ es', by rw [foldl_cons, hr', hr]; simp, ?_, ?_⟩
    · exact forall_mem_append.mpr ⟨hes, hes'⟩
    · rw [completedBytes_append, totalCredit_cons]
      omega

end Relay

/-- The relay is closed and its socket let go of on the way from `r` to `r'`.
No more credit is returned than the relay held. -/
structure Shuts (r r' : Relay) : Prop where
  grown : ∃ es, r'.log = r.log ++ es ∧ ∀ e ∈ es, e.kind = .control ∨ e.kind = .credit
  closed : r'.closing = true
  released : r'.tcpFdOpen = false
  credited : completedBytes r'.log + r'.heldCredit ≤ completedBytes r.log + r.heldCredit

namespace Shuts

variable {r r' r'' : Relay}

/-- Further effects after the relay was closed. -/
theorem extend (h : Shuts r r') (es : List Effect) (hlog : r''.log = r'.log ++ es)
    (hes : ∀ e ∈ es, e.kind = .control ∨ e.kind = .credit) (hclosing : r''.closing = r'.closing)
    (hfd : r''.tcpFdOpen = r'.tcpFdOpen)
    (hheld : completedBytes es + r''.heldCredit ≤ r'.heldCredit) :
    Shuts r r'' := by
  obtain ⟨fs, hfs, hall⟩ := h.grown
  refine ⟨⟨fs ++ es, by rw [hlog, hfs, append_assoc], ?_⟩, hclosing.trans h.closed,
    hfd.trans h.released, ?_⟩
  · exact forall_mem_append.mpr ⟨hall, hes⟩
  · have := h.credited
    rw [hlog, completedBytes_append]
    omega

theorem update (h : Shuts r r') (hlog : r''.log = r'.log) (hclosing : r''.closing = r'.closing)
    (hfd : r''.tcpFdOpen = r'.tcpFdOpen) (hheld : r''.heldCredit = r'.heldCredit) : Shuts r r'' :=
  h.extend [] (by simp [hlog]) (by simp) hclosing hfd (by simp [completedBytes, hheld])

/-- Control effects before the relay is closed. -/
theorem after (h : Shuts r' r'') (es : List Effect) (hlog : r'.log = r.log ++ es)
    (hes : ∀ e ∈ es, e.kind = .control) (hheld : r'.heldCredit = r.heldCredit) : Shuts r r'' := by
  obtain ⟨fs, hfs, hall⟩ := h.grown
  refine ⟨⟨es ++ fs, by rw [hfs, hlog, append_assoc], ?_⟩, h.closed, h.released, ?_⟩
  · exact forall_mem_append.mpr ⟨fun e he => .inl (hes e he), hall⟩
  · have hnone : completedBytes es = 0 :=
      completedBytes_of_kind fun e he => by rw [hes e he]; decide
    have := h.credited
    rw [hlog, completedBytes_append] at this
    omega

theorem trans (h : Shuts r r') (h' : Shuts r' r'') : Shuts r r'' := by
  obtain ⟨es, hes, hall⟩ := h.grown
  obtain ⟨fs, hfs, hall'⟩ := h'.grown
  refine ⟨⟨es ++ fs, by rw [hfs, hes, append_assoc], ?_⟩, h'.closed, h'.released,
    h'.credited.trans h.credited⟩
  exact forall_mem_append.mpr ⟨hall, hall'⟩

end Shuts

namespace Relay

variable (cfg : Config) (r : Relay)

/-- Closing the relay and letting go of its socket. -/
theorem shuts_close_releaseSocket {e : Effect} (he : e.kind = .control) :
    Shuts r (r.close.releaseSocket e) := by
  have hnone : completedBytes [e] = 0 := completedBytes_of_kind (by simp [he])
  unfold releaseSocket
  split
  · exact ⟨⟨[e], rfl, by simp [he]⟩, rfl, rfl, by simp [emit, close, hnone, heldCredit]⟩
  next hfd => exact ⟨⟨[], by simp [close], by simp⟩, rfl, by simpa [close] using hfd, le_rfl⟩

theorem shuts_releasePending {r r' : Relay} (h : Shuts r r') : Shuts r (r'.releasePending cfg) := by
  have h₁ : Shuts r r'.dropPendingSends := h.update rfl rfl rfl rfl
  have h₂ : Shuts r (r'.dropPendingSends.dropPendingQuicReceives cfg) := by
    obtain ⟨io, es, heq, hes, hle⟩ :=
      r'.dropPendingSends.discardQuicReceives_eq cfg r'.dropPendingSends.pendingQuicReceives
    refine h₁.extend es ?_ (fun e he => .inr (hes e he)) ?_ ?_ ?_
    all_goals rw [dropPendingQuicReceives, heq]
    simp only [heldCredit, totalCredit_nil]
    omega
  obtain ⟨io, es, heq, hes, hle⟩ :=
    (r'.dropPendingSends.dropPendingQuicReceives cfg).discardQuicReceives_eq cfg
    (r'.dropPendingSends.dropPendingQuicReceives cfg).callbackPendingQuicReceives
  refine h₂.extend es ?_ (fun e he => .inr (hes e he)) ?_ ?_ ?_
  all_goals rw [releasePending, dropCallbackPendingQuicReceives, heq]
  simp only [heldCredit, totalCredit_nil]
  omega

theorem shuts_abortRelayAndRelease : Shuts r (r.abortRelayAndRelease cfg) := by
  have h : Shuts r (r.setRelayStop.close.releaseSocket .resetSocket).sealBinding :=
    ((r.setRelayStop.shuts_close_releaseSocket rfl).after [.stop] rfl
      (by simp [Effect.kind]) rfl).update
      rfl rfl rfl rfl
  unfold abortRelayAndRelease
  apply shuts_releasePending
  split
  · exact h.update rfl rfl rfl rfl
  · exact h

theorem shuts_unregisterRelayLocal : Shuts r (r.unregisterRelayLocal cfg) := by
  have h : Shuts r (r.close.releaseSocket .closeSocket).sealBinding :=
    (r.shuts_close_releaseSocket rfl).update rfl rfl rfl rfl
  unfold unregisterRelayLocal
  apply shuts_releasePending
  split
  · exact h.update rfl rfl rfl rfl
  · exact h

theorem shuts_beginTerminalHandoff (graceful : Bool) :
    Shuts r (r.beginTerminalHandoff cfg graceful) := by
  unfold beginTerminalHandoff
  split
  · exact r.shuts_abortRelayAndRelease cfg
  dsimp only
  split
  · exact (shuts_abortRelayAndRelease cfg _).after [.stop, .beginTerminalShutdown graceful]
      (by simp [emit, close, setRelayStop]) (by simp [Effect.kind]) rfl
  · exact (shuts_abortRelayAndRelease cfg _).after [.stop] rfl (by simp [Effect.kind]) rfl

theorem shuts_erase : Shuts r r.erase := (r.shuts_close_releaseSocket rfl).update rfl rfl rfl rfl

theorem shuts_processQuicShutdownComplete (h : r.streamShutdownComplete = false) :
    Shuts r (r.processQuicShutdownComplete cfg) := by
  have habort : Shuts r ((({ r with streamShutdownComplete := true } :
      Relay).beginStreamShutdownCompleteDetach).abortRelayAndRelease cfg) := by
    refine (shuts_abortRelayAndRelease cfg _).after [] ?_ (by simp) ?_
    all_goals
      unfold beginStreamShutdownCompleteDetach
      dsimp only
      split <;> simp [heldCredit]
  simp only [processQuicShutdownComplete, h, Bool.false_eq_true, ↓reduceIte]
  split
  · exact habort
  · exact habort.trans (shuts_unregisterRelayLocal cfg _)

end Relay
end TcpQuicProxy.LinuxRelay
