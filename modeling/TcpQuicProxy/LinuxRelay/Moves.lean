import TcpQuicProxy.LinuxRelay.Frame

/-!
# The moves of the QUIC-to-TCP direction

Everything the worker does to the receive queue, the pending writes, the
receive credit and the half-close of a relay is a sequence of the moves below.
An invariant of the download direction is proved once for each move. The
parameter `quiet` says what else may happen between moves, and `strict` asks
that a view with the FIN is only retired when no write is pending.
-/

namespace TcpQuicProxy.LinuxRelay

open List

/-- What was consumed of a view and what is left of it make up the view. -/
def ReceiveView.Fits (view : ReceiveView) : Prop :=
  view.completedLength + view.slices.flatten.length = view.totalLength

def Relay.withReceives (r : Relay) (views : List ReceiveView) : Relay :=
  { r with pendingQuicReceives := views }

def Relay.withWrites (r : Relay) (writes : List Bytes) : Relay :=
  { r with pendingTcpWrites := writes }

def Relay.record (r : Relay) (es : List Effect) : Relay := { r with log := r.log ++ es }

inductive Move (quiet : Relay → Relay → Prop) (strict : Prop) (r : Relay) : Relay → Prop
  | quiet {r' : Relay} (h : quiet r r') : Move quiet strict r r'
  | shut {r' : Relay} (h : Shuts r r') : Move quiet strict r r'
  | trim {view : ReceiveView} {rest : List ReceiveView} {slices : List Bytes}
      (hopen : r.closing = false)
      (hfront : r.pendingQuicReceives = view :: rest)
      (hslices : slices.flatten = view.slices.flatten) :
      Move quiet strict r (r.withReceives ({ view with slices := slices } :: rest))
  | returnCredit {view : ReceiveView} {rest : List ReceiveView} {n : Nat} {b : Bool}
      {es : List Effect}
      (hopen : r.closing = false) (hfront : r.pendingQuicReceives = view :: rest)
      (hes : ∀ e ∈ es, e.kind = .credit)
      (hle : completedBytes es + n ≤ view.pendingCompleteBytes) :
      Move quiet strict r ((r.withReceives
        ({ view with pendingCompleteBytes := n, zeroLengthFinCompletionPending := b } ::
          rest)).record es)
  | write {view : ReceiveView} {rest : List ReceiveView} {sent : Bytes} {slices : List Bytes}
      (hopen : r.closing = false) (hfront : r.pendingQuicReceives = view :: rest)
      (hsink : r.sinkQuicReceives = false) (hplain : r.needsDecompress = false)
      (hbytes : view.slices.flatten = sent ++ slices.flatten) :
      Move quiet strict r
        ((r.withReceives (view.consume slices sent.length :: rest)).emit (.tcpWrite sent))
  | inflate {view : ReceiveView} {rest : List ReceiveView} {input : Bytes} {slices : List Bytes}
      (hopen : r.closing = false) (hfront : r.pendingQuicReceives = view :: rest)
      (hsink : r.sinkQuicReceives = false) (hzstd : r.needsDecompress = true)
      (hbytes : view.slices.flatten = input ++ slices.flatten) :
      Move quiet strict r
        ((r.withReceives (view.consume slices input.length :: rest)).emit (.inflateInput input))
  | produce {output : Bytes} (hopen : r.closing = false) (hsink : r.sinkQuicReceives = false)
      (hzstd : r.needsDecompress = true) (hbusy : r.pendingQuicReceives ≠ []) :
        Move quiet strict r (r.pushTcpWrite output)
  | send {sent : Bytes} {writes : List Bytes} (hopen : r.closing = false) (hsent : sent ≠ [])
      (hbytes : r.pendingTcpWrites.flatten = sent ++ writes.flatten) :
      Move quiet strict r ((r.withWrites writes).emit (.tcpWrite sent))
  | retire {view : ReceiveView} {rest : List ReceiveView} {es : List Effect}
      (hopen : r.closing = false)
      (hfront : r.pendingQuicReceives = view :: rest) (hsink : r.sinkQuicReceives = false)
      (hdone : view.slices.flatten = []) (hes : ∀ e ∈ es, e.kind = .credit)
      (hle : completedBytes es ≤ view.pendingCompleteBytes)
      (hstrict : strict → view.fin = true → r.pendingTcpWrites = []) :
      Move quiet strict r ((r.retireFrontReceive view.fin).record es)
  | swallow {view : ReceiveView} {rest : List ReceiveView} {es : List Effect}
      (hopen : r.closing = false)
      (hfront : r.pendingQuicReceives = view :: rest) (hsink : r.sinkQuicReceives = true)
      (hes : ∀ e ∈ es, e.kind = .credit) (hle : completedBytes es ≤ view.credit) :
      Move quiet strict r (r.popFrontReceive.record es)
  | halfClose {es : List Effect} (hopen : r.closing = false)
      (hqueued : r.tcpWriteShutdownQueued = true)
      (hempty : r.pendingQuicReceives = [] ∨ r.pendingTcpWrites = [])
      (hes : es = [] ∨ es = [.shutdownWrite]) :
      Move quiet strict r (r.closeTcpWrite.record es)

abbrev Moves (quiet : Relay → Relay → Prop) (strict : Prop) : Relay → Relay → Prop :=
  Relation.ReflTransGen (Move quiet strict)

/-- A relay whose views are whole and whose socket goes with its closing. -/
structure Relay.Sound (r : Relay) : Prop where
  isSealed : r.Sealed
  fits : r.closing = false → ∀ view ∈ r.pendingQuicReceives, view.Fits

section

variable {quiet : Relay → Relay → Prop} {strict : Prop} {r r' r'' : Relay}

theorem Move.moves (h : Move quiet strict r r') : Moves quiet strict r r' := .single h

theorem Moves.of_quiet (h : quiet r r') : Moves quiet strict r r' := .single (.quiet h)

theorem Moves.of_shuts (h : Shuts r r') : Moves quiet strict r r' := .single (.shut h)

/-- Control functions in place of whatever else is allowed to happen. -/
theorem Moves.download (h : Moves KeepsCore strict r r') : Moves KeepsDownload strict r r' := by
  refine Relation.ReflTransGen.mono (fun a b hab => ?_) _ _ h
  cases hab with
  | quiet h => exact .quiet (KeepsCore.download h)
  | shut h => exact .shut h
  | trim h₁ h₂ h₃ => exact .trim h₁ h₂ h₃
  | returnCredit h₁ h₂ h₃ h₄ => exact .returnCredit h₁ h₂ h₃ h₄
  | write h₁ h₂ h₃ h₄ h₅ => exact .write h₁ h₂ h₃ h₄ h₅
  | inflate h₁ h₂ h₃ h₄ h₅ => exact .inflate h₁ h₂ h₃ h₄ h₅
  | produce h₁ h₂ h₃ h₄ => exact .produce h₁ h₂ h₃ h₄
  | send h₁ h₂ h₃ => exact .send h₁ h₂ h₃
  | retire h₁ h₂ h₃ h₄ h₅ h₆ h₇ => exact .retire h₁ h₂ h₃ h₄ h₅ h₆ h₇
  | swallow h₁ h₂ h₃ h₄ h₅ => exact .swallow h₁ h₂ h₃ h₄ h₅
  | halfClose h₁ h₂ h₃ h₄ => exact .halfClose h₁ h₂ h₃ h₄

variable {view : ReceiveView}

theorem ReceiveView.Fits.consume (h : view.Fits) {slices : List Bytes} {bytes : Bytes}
    (hbytes : view.slices.flatten = bytes ++ slices.flatten) :
    (view.consume slices bytes.length).Fits := by
  have hlen := congrArg length hbytes
  rw [length_append] at hlen
  unfold Fits at h ⊢
  simp only [ReceiveView.consume]
  omega

section

variable (h : r.Sound)
include h

/-- Replacing the front view by one that fits. -/
theorem Relay.Sound.setFront {view' : ReceiveView} {rest : List ReceiveView}
    (hopen : r.closing = false) (hfront : r.pendingQuicReceives = view :: rest)
    (hfits : view.Fits → view'.Fits) (hq : r'.pendingQuicReceives = view' :: rest)
    (hclosing : r'.closing = r.closing) (hfd : r'.tcpFdOpen = r.tcpFdOpen) : r'.Sound := by
  have hall := h.fits hopen
  rw [hfront] at hall
  refine ⟨fun hc => hfd.trans (h.isSealed (hclosing ▸ hc)), fun _ v hv => ?_⟩
  rw [hq] at hv
  rcases mem_cons.mp hv with rfl | hv
  · exact hfits (hall view mem_cons_self)
  · exact hall v (mem_cons_of_mem _ hv)

/-- Dropping views from the queue, or none. -/
theorem Relay.Sound.shrink (hsub : ∀ v ∈ r'.pendingQuicReceives, v ∈ r.pendingQuicReceives)
    (hclosing : r'.closing = r.closing) (hfd : r'.tcpFdOpen = r.tcpFdOpen) : r'.Sound :=
  ⟨fun hc => hfd.trans (h.isSealed (hclosing ▸ hc)),
    fun hc v hv => h.fits (hclosing ▸ hc) v (hsub v hv)⟩

theorem Relay.Sound.keeps (hk : KeepsDownload r r') : r'.Sound := by
  have hqueue : r'.pendingQuicReceives = r.pendingQuicReceives :=
    congrArg (fun s : DownloadSide × CallbackSide => s.1.pendingQuicReceives) hk.kept
  exact h.shrink (by rw [hqueue]; exact fun _ => id) hk.closing hk.tcpFdOpen

theorem Relay.Sound.append (hfits : view.Fits) : (r.queueQuicReceive view).Sound := by
  refine ⟨h.isSealed, fun hc => ?_⟩
  exact forall_mem_append.mpr ⟨h.fits hc, forall_mem_singleton.mpr hfits⟩

theorem Relay.Sound.move (hm : Move KeepsDownload strict r r') : r'.Sound := by
  cases hm with
  | quiet hk => exact h.keeps hk
  | shut hs => exact ⟨fun _ => hs.released, fun hc => by rw [hs.closed] at hc; cases hc⟩
  | trim hopen hfront hslices =>
    refine h.setFront hopen hfront (fun hf => ?_) rfl rfl rfl
    unfold ReceiveView.Fits at hf ⊢
    rwa [hslices]
  | returnCredit hopen hfront =>
    refine h.setFront hopen hfront (fun hf => ?_) rfl rfl rfl
    exact hf
  | write hopen hfront _ _ hbytes =>
    exact h.setFront hopen hfront (fun hf => hf.consume hbytes) rfl rfl rfl
  | inflate hopen hfront _ _ hbytes =>
    exact h.setFront hopen hfront (fun hf => hf.consume hbytes) rfl rfl rfl
  | produce | send | halfClose => exact h.shrink (fun _ => id) rfl rfl
  | retire | swallow => exact h.shrink (fun _ => mem_of_mem_tail) rfl rfl

end

/-- The log only grows. -/
theorem Move.grown (h : Move KeepsDownload strict r r') : ∃ es, r'.log = r.log ++ es := by
  cases h with
  | quiet hk => exact ⟨_, hk.grown.choose_spec.1⟩
  | shut hs => exact ⟨_, hs.grown.choose_spec.1⟩
  | trim => exact ⟨[], (append_nil _).symm⟩
  | _ => exact ⟨_, rfl⟩

/-- Moves that leave the relay open change neither its mode, which was chosen
by its registration, nor what its callback looks at. -/
theorem Moves.kept (h : Moves KeepsDownload strict r r') (hc : r'.closing = false) :
    r.closing = false ∧
      (r'.sinkQuicReceives = r.sinkQuicReceives ∧ r'.needsDecompress = r.needsDecompress) ∧
      r'.callbackSide = r.callbackSide := by
  induction h with
  | refl => exact ⟨hc, ⟨rfl, rfl⟩, rfl⟩
  | @tail m r' _ hm ih =>
    have hstep : m.closing = false ∧
        (r'.sinkQuicReceives = m.sinkQuicReceives ∧ r'.needsDecompress = m.needsDecompress) ∧
        r'.callbackSide = m.callbackSide := by
      cases hm with
      | quiet hk =>
        have hside := congrArg Prod.fst hk.kept
        exact ⟨hk.closing ▸ hc, ⟨congrArg DownloadSide.sinkQuicReceives hside,
          congrArg DownloadSide.needsDecompress hside⟩, congrArg Prod.snd hk.kept⟩
      | shut hs => rw [hs.closed] at hc; cases hc
      | _ => exact ⟨hc, ⟨rfl, rfl⟩, rfl⟩
    obtain ⟨hopen, ⟨hsink, hzstd⟩, hside⟩ := ih hstep.1
    exact ⟨hopen, ⟨hstep.2.1.1.trans hsink, hstep.2.1.2.trans hzstd⟩, hstep.2.2.trans hside⟩

theorem Moves.mode (h : Moves KeepsDownload strict r r') (hc : r'.closing = false) :
    r'.sinkQuicReceives = r.sinkQuicReceives ∧ r'.needsDecompress = r.needsDecompress :=
  (h.kept hc).2.1

theorem Relay.Sound.moves (h : r.Sound) (hm : Moves KeepsDownload strict r r') : r'.Sound := by
  induction hm with
  | refl => exact h
  | tail _ hm ih => exact ih.move hm

/-- A function of the download direction, seen from the upload direction. A
relay that it leaves open has its upload data unchanged. -/
structure KeepsUpload (r r' : Relay) : Prop where
  grown : ∃ es, r'.log = r.log ++ es ∧ ∀ e ∈ es, e.kind ≠ .upload
  kept : r'.closing = false → r.closing = false ∧ r'.uploadSide = r.uploadSide

namespace KeepsUpload

theorem of_keeps {κ : Type} {proj : Relay → κ} {allowed : EffectKind → Prop}
    (h : Keeps proj allowed r r') (side : κ → UploadSide) (hside : side ∘ proj = Relay.uploadSide)
    (hall : ∀ k, allowed k → k ≠ .upload) :
    KeepsUpload r r' := by
  obtain ⟨es, hlog, hes⟩ := h.grown
  refine ⟨⟨es, hlog, fun e he => hall _ (hes e he)⟩, fun hc => ⟨h.closing ▸ hc, ?_⟩⟩
  rw [← hside]
  exact congrArg side h.kept

theorem of_core (h : KeepsCore r r') : KeepsUpload r r' :=
  of_keeps h Prod.fst rfl (by rintro k rfl; decide)

theorem of_effects (es : List Effect) (hlog : r'.log = r.log ++ es)
    (hes : ∀ e ∈ es, e.kind ≠ .upload) (hclosing : r'.closing = r.closing)
    (hside : r'.uploadSide = r.uploadSide) : KeepsUpload r r' :=
  ⟨⟨es, hlog, hes⟩, fun hc => ⟨hclosing ▸ hc, hside⟩⟩

theorem trans (h : KeepsUpload r r') (h' : KeepsUpload r' r'') : KeepsUpload r r'' := by
  obtain ⟨es, hes, hall⟩ := h.grown
  obtain ⟨fs, hfs, hall'⟩ := h'.grown
  refine ⟨⟨es ++ fs, by rw [hfs, hes, append_assoc], ?_⟩, fun hc => ?_⟩
  · exact forall_mem_append.mpr ⟨hall, hall'⟩
  · obtain ⟨hc', hside'⟩ := h'.kept hc
    obtain ⟨hc'', hside⟩ := h.kept hc'
    exact ⟨hc'', hside'.trans hside⟩

end KeepsUpload

theorem Shuts.upload (h : Shuts r r') : KeepsUpload r r' := by
  obtain ⟨es, hlog, hes⟩ := h.grown
  refine ⟨⟨es, hlog, fun e he => ?_⟩, fun hc => by rw [h.closed] at hc; cases hc⟩
  rcases hes e he with hk | hk <;> rw [hk] <;> decide

theorem Move.upload (h : Move KeepsCore strict r r') : KeepsUpload r r' := by
  have hcredit {es : List Effect} (hes : ∀ e ∈ es, e.kind = .credit) :
      ∀ e ∈ es, e.kind ≠ .upload := by
    intro e he
    rw [hes e he]
    decide
  cases h with
  | quiet h => exact .of_core h
  | shut h => exact h.upload
  | trim => exact .of_effects [] (append_nil _).symm (by simp) rfl rfl
  | returnCredit _ _ hes | retire _ _ _ _ hes | swallow _ _ _ hes =>
    exact .of_effects _ rfl (hcredit hes) rfl rfl
  | write | inflate | produce | send => exact .of_effects [_] rfl (by simp [Effect.kind]) rfl rfl
  | halfClose _ _ _ hes =>
    refine .of_effects _ rfl ?_ rfl rfl
    rcases hes with rfl | rfl <;> simp [Effect.kind]

theorem Moves.upload (h : Moves KeepsCore strict r r') : KeepsUpload r r' := by
  induction h with
  | refl => exact .of_core (.refl r)
  | tail _ hm ih => exact ih.trans hm.upload

end

/-! ### Cutting and dropping bytes -/

theorem gather_of_limit_le (skipEmpty : Bool) {limit : Nat} (iov attempted : Nat)
    (pieces : List Bytes) (h : limit ≠ 0) (hle : limit ≤ attempted) :
    gather skipEmpty limit iov attempted pieces = [] := by
  cases pieces with
  | nil => rfl
  | cons piece rest =>
    simp only [gather, h, hle, ne_eq, not_false_eq_true, decide_true, Bool.and_self, Bool.or_true,
      ↓reduceIte]

theorem flatten_gather (skipEmpty : Bool) (limit : Nat) :
    ∀ (pieces : List Bytes) (iov attempted : Nat),
      (gather skipEmpty limit iov attempted pieces).flatten <+: pieces.flatten := by
  intro pieces
  induction pieces with
  | nil => simp [gather]
  | cons piece rest ih =>
    intro iov attempted
    simp only [gather]
    split_ifs with h₁ h₂ h₃ h₄
    · exact nil_prefix
    · rw [flatten_cons, h₂]
      exact ih iov attempted
    · exact nil_prefix
    · -- the limit falls into this piece, so nothing of the rest is taken
      have hlt : limit ≠ 0 ∧ limit < attempted + piece.length := by simpa using h₄
      have hstop :=
        gather_of_limit_le skipEmpty (iov - 1)
          (attempted + (piece.take (limit - attempted)).length) rest
        hlt.1 (by rw [length_take]; omega)
      rw [hstop, flatten_cons, flatten_cons, flatten_nil, append_nil]
      exact (List.take_prefix _ _).trans (prefix_append _ _)
    · rw [flatten_cons, flatten_cons]
      exact prefix_append_right_inj _ |>.mpr (ih _ _)

/-- An empty vector over a view means that nothing of the view is left. -/
theorem gather_eq_nil (limit : Nat) :
    ∀ (pieces : List Bytes) (iov : Nat), 0 < iov → gather true limit iov 0 pieces = [] →
      pieces.flatten = [] := by
  intro pieces
  induction pieces with
  | nil => simp
  | cons piece rest ih =>
    intro iov hiov h
    by_cases hpiece : piece = []
    · have hrest : gather true limit iov 0 rest = [] := by
        have hne : iov ≠ 0 := by omega
        simpa [gather, hpiece, hne] using h
      simpa [hpiece] using ih iov hiov hrest
    · have hne : iov ≠ 0 := by omega
      simp [gather, hpiece, hne] at h

theorem dropBytes_flatten :
    ∀ (n : Nat) (pieces : List Bytes), (dropBytes n pieces).flatten = pieces.flatten.drop n := by
  intro n pieces
  fun_induction dropBytes n pieces with
  | case1 n => simp
  | case2 pieces => simp
  | case3 n piece rest h ih => rw [ih, flatten_cons, drop_append, drop_eq_nil_of_le h, nil_append]
  | case4 n piece rest h =>
    have hzero : n + 1 - piece.length = 0 := by omega
    rw [flatten_cons, flatten_cons, drop_append, hzero, drop_zero]

theorem flatten_dropWhile_nil (pieces : List Bytes) :
    (pieces.dropWhile (· = [])).flatten = pieces.flatten := by
  induction pieces with
  | nil => rfl
  | cons piece rest ih =>
    by_cases h : piece = []
    · rw [dropWhile_cons_of_pos (by simpa using h), ih, h, flatten_cons, nil_append]
    · rw [dropWhile_cons_of_neg (by simpa using h)]

/-! ### The functions as moves -/

/-- No FIN waits in the receive queue behind a pending write. -/
def Relay.FinUnblocked (r : Relay) : Prop :=
  r.pendingTcpWrites = [] ∨ ∀ view ∈ r.pendingQuicReceives, view.fin = false

namespace Relay

variable (cfg : Config) {strict : Prop} {r : Relay}

theorem maybeStopFullyClosedRelay_cases (r : Relay) :
    r.maybeStopFullyClosedRelay cfg = r ∨ Shuts r (r.maybeStopFullyClosedRelay cfg) := by
  unfold maybeStopFullyClosedRelay
  split_ifs
  all_goals first
    | exact .inl rfl
    | exact .inr (r.shuts_beginTerminalHandoff cfg true)

theorem moves_maybeStopFullyClosedRelay (r : Relay) :
    Moves KeepsCore strict r (r.maybeStopFullyClosedRelay cfg) := by
  rcases r.maybeStopFullyClosedRelay_cases cfg with heq | hs
  · rw [heq]
  · exact .of_shuts hs

theorem moves_processQuicShutdownComplete (r : Relay) :
    Moves KeepsCore strict r (r.processQuicShutdownComplete cfg) := by
  cases hs : r.streamShutdownComplete with
  | true =>
    simp only [processQuicShutdownComplete, hs, ↓reduceIte]
    exact .refl
  | false => exact .of_shuts (r.shuts_processQuicShutdownComplete cfg hs)

/-- The half-close of a closed relay does not reach its socket. -/
theorem moves_shutdownTcpWrite (hs : r.Sound) (hqueued : r.tcpWriteShutdownQueued = true)
    (hempty : r.pendingQuicReceives = [] ∨ r.pendingTcpWrites = []) :
    Moves KeepsCore strict r (r.shutdownTcpWrite cfg) := by
  refine Relation.ReflTransGen.trans ?_ (moves_maybeStopFullyClosedRelay cfg _)
  cases hc : r.closing with
  | true =>
    have hfd := hs.isSealed hc
    refine Moves.of_shuts ⟨⟨[], ?_, by simp⟩, ?_, ?_, le_of_eq ?_⟩
    all_goals simp [closeTcpWrite, hfd, hc, heldCredit]
  | false =>
    split
    · exact (Move.halfClose hc hqueued hempty (.inr rfl)).moves.trans
        (Moves.of_quiet (.of_eq rfl rfl rfl rfl))
    · exact (Move.halfClose hc hqueued hempty (.inl rfl)).moves.trans
        (Moves.of_quiet (.of_eq (append_nil _).symm rfl rfl rfl))

theorem shutdownTcpWrite_queue (hc : (r.shutdownTcpWrite cfg).closing = false) :
    r.closing = false ∧ (r.shutdownTcpWrite cfg).pendingQuicReceives = r.pendingQuicReceives := by
  unfold shutdownTcpWrite at hc ⊢
  rcases maybeStopFullyClosedRelay_cases cfg
    (if r.tcpFdOpen then r.emit .shutdownWrite else r).closeTcpWrite with heq | hs
  · rw [heq] at hc ⊢
    constructor
    · split at hc <;> exact hc
    · split <;> rfl
  · rw [hs.closed] at hc
    cases hc

/-! #### FlushTcpWrites -/

/-- What a pass over the pending writes leaves behind: the receive queue of an
open relay is as it was. -/
structure WritesOnly (strict : Prop) (r r' : Relay) : Prop where
  moves : Moves KeepsCore strict r r'
  queue : r'.closing = false → r'.pendingQuicReceives = r.pendingQuicReceives

variable {m r' r'' : Relay} {p s : ReceiveView × Relay}

section

variable (h : WritesOnly strict r r')
include h

theorem WritesOnly.core (hk : KeepsCore r' r'') :
    WritesOnly strict r r'' := by
  refine ⟨h.moves.trans (Moves.of_quiet hk), fun hc => ?_⟩
  have hq : r''.pendingQuicReceives = r'.pendingQuicReceives :=
    congrArg (fun s : UploadSide × DownloadSide × CallbackSide => s.2.1.pendingQuicReceives) hk.kept
  rw [hq]
  exact h.queue (hk.closing ▸ hc)

theorem WritesOnly.shut (hs : Shuts r' r'') :
    WritesOnly strict r r'' :=
  ⟨h.moves.trans (Moves.of_shuts hs), fun hc => by rw [hs.closed] at hc; cases hc⟩

theorem WritesOnly.acceptTcpWrite (hc : r'.closing = false) {sent : Bytes} (hne : sent ≠ [])
    (hsent : sent <+: r'.pendingTcpWrites.flatten) :
    WritesOnly strict r (r'.acceptTcpWrite sent) := by
  obtain ⟨rest, hrest⟩ := hsent
  refine ⟨h.moves.trans (Move.moves (.send hc hne ?_)), fun _ => h.queue hc⟩
  rw [dropBytes_flatten, ← hrest, drop_left]

end

/-- A loop over the writes that goes on has an open relay. -/
def WritesTurn (strict : Prop) (r : Relay) : (Nat × Relay) ⊕ (Bool × Relay) → Prop
  | .inl s => WritesOnly strict r s.2 ∧ s.2.closing = false
  | .inr t => WritesOnly strict r t.2

theorem writesTurn_finishTcpWrite (h : WritesOnly strict r r') (hc : r'.closing = false)
    (burst : Nat) {iov : List Bytes} (hiov : iov.flatten <+: r'.pendingTcpWrites.flatten)
    (res : WriteResult) :
    WritesTurn strict r (r'.finishTcpWrite cfg burst iov res) := by
  cases res with
  | sent n =>
    simp only [finishTcpWrite]
    split_ifs with hsent
    · exact h.shut (r'.shuts_beginTerminalHandoff cfg false)
    · exact (h.acceptTcpWrite hc hsent ((List.take_prefix _ _).trans hiov)).core
        (keeps_armTcpWritable _ true)
    · exact ⟨h.acceptTcpWrite hc hsent ((List.take_prefix _ _).trans hiov), hc⟩
  | eintr => exact ⟨h, hc⟩
  | eagain => exact h.core (r'.keeps_armTcpWritable true)
  | error => exact h.shut (r'.shuts_beginTerminalHandoff cfg false)

theorem writesTurn_flushTcpWritesTurn {s : Nat × Relay} (h : WritesOnly strict r s.2)
    (hc : s.2.closing = false) :
    WritesTurn strict r (flushTcpWritesTurn cfg s) := by
  have htake := s.2.keeps_takeWrite
  simp only [flushTcpWritesTurn]
  split_ifs
  · exact h
  · exact h.core (s.2.keeps_armTcpWritable true)
  · exact h
  · have hwrites : s.2.takeWrite.2.pendingTcpWrites = s.2.pendingTcpWrites :=
      congrArg (fun c : UploadSide × DownloadSide × CallbackSide => c.2.1.pendingTcpWrites)
        htake.kept
    refine writesTurn_finishTcpWrite cfg (h.core htake) (htake.closing.trans hc) s.1 ?_ _
    rw [hwrites]
    exact flatten_gather false _ _ _ _

theorem writesOnly_flushTcpWrites (hs : r.Sound) : WritesOnly strict r (r.flushTcpWrites cfg) := by
  unfold flushTcpWrites
  split_ifs with hc hleft
  · exact ⟨.refl, fun _ => rfl⟩
  all_goals
    have hloop : WritesOnly strict r (r.flushTcpWritesLoop cfg).2 := by
      refine Machine.loop_rule
        (fun s : Nat × Relay => WritesOnly strict r s.2 ∧ s.2.closing = false)
        (fun t : Bool × Relay => WritesOnly strict r t.2) ?_ ?_ (fun _ h => h.1) _
        ⟨⟨.refl, fun _ => rfl⟩, by simpa using hc⟩
      · rintro s s' ⟨h, hc⟩ hb
        have := writesTurn_flushTcpWritesTurn cfg h hc
        rwa [hb] at this
      · rintro s t ⟨h, hc⟩ hb
        have := writesTurn_flushTcpWritesTurn cfg h hc
        rwa [hb] at this
  · exact hloop
  · refine WritesOnly.core ?_ (keeps_disarmIdleWritable _)
    unfold shutdownAfterTcpWrites
    split
    next hcond =>
      obtain ⟨hw, hq⟩ : (r.flushTcpWritesLoop cfg).2.pendingTcpWrites = [] ∧
        (r.flushTcpWritesLoop cfg).2.tcpWriteShutdownQueued = true := by simpa using hcond
      refine ⟨hloop.moves.trans
        (moves_shutdownTcpWrite cfg (hs.moves hloop.moves.download) hq (.inr hw)), fun hc' => ?_⟩
      obtain ⟨hopen, hqueue⟩ := shutdownTcpWrite_queue cfg hc'
      rw [hqueue]
      exact hloop.queue hopen
    · exact hloop

/-! #### The front view -/

/-- An open relay with `view` in front, as it is after a function that worked
on the front of `r`. Pending writes and the FIN flag are as before. -/
structure FrontOf (strict : Prop) (r : Relay) (view : ReceiveView) (rest : List ReceiveView)
    (p : ReceiveView × Relay) : Prop where
  moves : Moves KeepsCore strict r p.2
  opened : p.2.closing = false
  front : p.2.pendingQuicReceives = p.1 :: rest
  writes : p.2.pendingTcpWrites = r.pendingTcpWrites
  slices : p.1.slices = view.slices
  fin : p.1.fin = view.fin
  length : p.1.completedLength = view.completedLength ∧ p.1.totalLength = view.totalLength

variable {view : ReceiveView} {rest : List ReceiveView}

theorem FrontOf.core (h : FrontOf strict r view rest p) (hk : KeepsCore p.2 r') :
    FrontOf strict r view rest (p.1, r') := by
  have hside : r'.downloadSide = p.2.downloadSide :=
    congrArg (fun s : UploadSide × DownloadSide × CallbackSide => s.2.1) hk.kept
  exact ⟨h.moves.trans (Moves.of_quiet hk), hk.closing.trans h.opened,
    (congrArg DownloadSide.pendingQuicReceives hside).trans h.front,
    (congrArg DownloadSide.pendingTcpWrites hside).trans h.writes, h.slices, h.fin, h.length⟩

theorem FrontOf.after (hm : Moves KeepsCore strict r m)
    (hw : m.pendingTcpWrites = r.pendingTcpWrites) (h : FrontOf strict m view rest p) :
    FrontOf strict r view rest p :=
  ⟨hm.trans h.moves, h.opened, h.front, h.writes.trans hw, h.slices, h.fin, h.length⟩

theorem frontOf_flushFrontCompletion (hopen : r.closing = false)
    (hfront : r.pendingQuicReceives = view :: rest) (force : Bool) :
    FrontOf strict r view rest (r.flushFrontCompletion cfg view force) := by
  have hret := r.returns_flushDeferredReceiveCompletion cfg view force
  simp only [flushFrontCompletion]
  generalize r.flushDeferredReceiveCompletion cfg view force = p at hret
  obtain ⟨io, es, hp, hes, hle⟩ := hret.relay
  have hq : p.2.setFrontReceive p.1 = ((r.withReceives (p.1 :: rest)).record es).answering io := by
    simp only [setFrontReceive, hp, hfront, withReceives, record, answering]
  have hmove : Moves KeepsCore strict r (p.2.setFrontReceive p.1) := by
    rw [hq, hret.view]
    exact (Move.returnCredit hopen hfront hes hle).moves.trans
      (Moves.of_quiet (keeps_answering _ io))
  refine ⟨hmove, ?_, ?_, ?_, ?_, ?_, ?_⟩
  · rw [hq]; exact hopen
  · rw [hq]; rfl
  · rw [hq]; rfl
  · rw [hret.view]
  · rw [hret.view]
  · rw [hret.view]; exact ⟨rfl, rfl⟩

/-- Bytes leave the front view by the move `e`, then their credit is returned. -/
theorem frontOf_consumeFront {e : Effect} {bytes : Bytes} {slices : List Bytes}
    (hopen : r.closing = false) (hfront : r.pendingQuicReceives = view :: rest)
    (hmove : Move KeepsCore strict r
      ((r.withReceives (view.consume slices bytes.length :: rest)).emit e)) (force : Bool) :
    FrontOf strict r (view.consume slices bytes.length) rest
      ((r.emit e).consumeFront cfg view slices bytes.length force) := by
  have hset : ((r.emit e).takePendingQuicReceiveBytes bytes.length).setFrontReceive
      (view.consume slices bytes.length)
      = ((r.withReceives
        (view.consume slices bytes.length ::
        rest)).emit e).takePendingQuicReceiveBytes bytes.length := by
    simp only [setFrontReceive, takePendingQuicReceiveBytes, emit, hfront, withReceives]
  simp only [consumeFront]
  rw [hset]
  have htake : Moves KeepsCore strict r
      (((r.withReceives (view.consume slices bytes.length ::
        rest)).emit e).takePendingQuicReceiveBytes bytes.length) :=
    hmove.moves.trans (Moves.of_quiet (.of_eq rfl rfl rfl rfl))
  refine FrontOf.core (.after htake rfl (frontOf_flushFrontCompletion cfg ?_ rfl force))
    (keeps_maybeResumeQuicReceive cfg _)
  exact hopen

/-- The front view has left the queue and nothing else has changed. -/
structure Pops (strict : Prop) (r r' : Relay) : Prop where
  moves : Moves KeepsCore strict r r'
  closing : r'.closing = r.closing
  writes : r'.pendingTcpWrites = r.pendingTcpWrites
  queue : r'.pendingQuicReceives = r.pendingQuicReceives.tail

theorem Pops.core (h : Pops strict r r') (hk : KeepsCore r' r'') : Pops strict r r'' := by
  have hside : r''.downloadSide = r'.downloadSide :=
    congrArg (fun s : UploadSide × DownloadSide × CallbackSide => s.2.1) hk.kept
  exact ⟨h.moves.trans (Moves.of_quiet hk), hk.closing.trans h.closing,
    (congrArg DownloadSide.pendingTcpWrites hside).trans h.writes,
    (congrArg DownloadSide.pendingQuicReceives hside).trans h.queue⟩

section

variable (hopen : r.closing = false) (hfront : r.pendingQuicReceives = view :: rest)
include hopen hfront

section

variable (hsink : r.sinkQuicReceives = false) (hdone : view.slices.flatten = [])
    (hstrict : strict → view.fin = true → r.pendingTcpWrites = [])
include hsink hdone hstrict

/-- The last credit of the front view is returned and the view retired. -/
theorem pops_retireFrontReceive
    (hret : Returns r view p) : Pops strict r (p.2.retireFrontReceive view.fin) := by
  obtain ⟨io, es, hp, hes, hle⟩ := hret.relay
  have hq :
      p.2.retireFrontReceive view.fin =
      ((r.retireFrontReceive view.fin).record es).answering io := by
    rw [hp]
    rfl
  rw [hq]
  exact Pops.core
    ⟨Move.moves (.retire hopen hfront hsink hdone hes (by omega) hstrict), rfl, rfl, rfl⟩
    (keeps_answering _ io)

theorem pops_finishFront : Pops strict r (r.finishFront view) := by
  have hret := r.returns_completeZeroLengthFinReceive view
  have hfin : (r.completeZeroLengthFinReceive view).1.fin = view.fin := by rw [hret.view]
  simp only [finishFront, hfin]
  exact pops_retireFrontReceive hopen hfront hsink hdone hstrict hret

theorem pops_retireEmptyFront : Pops strict r (r.retireEmptyFront cfg view) := by
  have hret := (r.returns_completeZeroLengthFinReceive view).trans
    (returns_flushDeferredReceiveCompletion cfg (r.completeZeroLengthFinReceive view).2 _ true)
  exact pops_retireFrontReceive hopen hfront hsink hdone hstrict hret

end

theorem pops_sinkFront (hsink : r.sinkQuicReceives = true) :
    Pops strict r (r.sinkFront cfg view) := by
  have hret :=
    (returns_flushDeferredReceiveCompletion cfg (r.takePendingQuicReceiveBytes view.remaining)
    (view.consume view.slices view.remaining) true).trans (returns_completeZeroLengthFinReceive _ _)
  simp only [sinkFront]
  generalize completeZeroLengthFinReceive _ _ = q at hret
  obtain ⟨io, es, hq, hes, hle⟩ := hret.relay
  have hcredit : completedBytes es ≤ view.credit := by
    simp only [ReceiveView.consume] at hle
    unfold ReceiveView.credit
    omega
  have hpop : Pops strict r q.2.popFrontReceive := by
    rw [hq]
    exact Pops.core ⟨Move.moves (.swallow hopen hfront hsink hes hcredit), rfl, rfl, rfl⟩
      (.of_eq rfl rfl rfl rfl)
  refine Pops.core ?_ (keeps_maybeResumeQuicReceive cfg _)
  split
  · exact hpop.core (.of_emit rfl rfl rfl rfl rfl)
  · exact hpop

end

/-! #### FlushDeferredQuicReceives -/

/-- The open relay at the head of a flush loop that started with `r`. -/
structure Flushing (strict : Prop) (r r' : Relay) : Prop where
  moves : Moves KeepsCore strict r r'
  opened : r'.closing = false
  unblocked : strict → r'.FinUnblocked

section

variable (h : Flushing strict r m)
include h

theorem Flushing.front {view₀ : ReceiveView}
    (hfront : m.pendingQuicReceives = view₀ :: rest) (hf : FrontOf strict m view rest p)
    (hfin : view.fin = view₀.fin) : Flushing strict r p.2 := by
  refine ⟨h.moves.trans hf.moves, hf.opened, fun hs => ?_⟩
  rcases h.unblocked hs with hw | hfree
  · exact .inl (hf.writes.trans hw)
  · refine .inr fun v hv => ?_
    rw [hf.front] at hv
    rw [hfront] at hfree
    rcases mem_cons.mp hv with rfl | hv
    · rw [hf.fin, hfin]
      exact hfree view₀ mem_cons_self
    · exact hfree v (mem_cons_of_mem _ hv)

theorem Flushing.fin_writes (hfront : m.pendingQuicReceives = view :: rest) :
    strict → view.fin = true → m.pendingTcpWrites = [] := by
  intro hs hfin
  rcases h.unblocked hs with hw | hfree
  · exact hw
  · have := hfree view (by rw [hfront]; exact mem_cons_self)
    rw [hfin] at this
    cases this

theorem Flushing.core {m' : Relay} (hk : KeepsCore m m') : Flushing strict r m' := by
  have hside : m'.downloadSide = m.downloadSide :=
    congrArg (fun c : UploadSide × DownloadSide × CallbackSide => c.2.1) hk.kept
  refine ⟨h.moves.trans (Moves.of_quiet hk), hk.closing.trans h.opened, fun hs => ?_⟩
  have hw := congrArg DownloadSide.pendingTcpWrites hside
  have hq := congrArg DownloadSide.pendingQuicReceives hside
  simp only [downloadSide] at hw hq
  unfold FinUnblocked
  rw [hw, hq]
  exact h.unblocked hs

/-- The loop goes on behind a view that has left the queue. -/
theorem Flushing.popped {m' : Relay} (hp : Pops strict m m') : Flushing strict r m' := by
  refine ⟨h.moves.trans hp.moves, hp.closing.trans h.opened, fun hs => ?_⟩
  rcases h.unblocked hs with hnil | hfree
  · exact .inl (hp.writes.trans hnil)
  · refine .inr fun v hv => hfree v (mem_of_mem_tail ?_)
    rwa [hp.queue] at hv

theorem Flushing.finishFront (hfront : m.pendingQuicReceives = view :: rest)
    (hsink : m.sinkQuicReceives = false) (hdone : view.slices.flatten = []) :
    Flushing strict r (m.finishFront view) :=
  h.popped (pops_finishFront h.opened hfront hsink hdone (h.fin_writes hfront))

theorem Flushing.acceptFrontWrite (hfront : m.pendingQuicReceives = view :: rest)
    (hfits : view.Fits) (hsink : m.sinkQuicReceives = false) (hplain : m.needsDecompress = false)
    {sent : Bytes} (hsent : sent <+: view.slices.flatten) :
    Flushing strict r (m.acceptFrontWrite cfg view sent) := by
  have hbytes : view.slices.flatten = sent ++ (dropBytes sent.length view.slices).flatten := by
    obtain ⟨left, hleft⟩ := hsent
    rw [dropBytes_flatten, ← hleft, drop_left]
  have hmove : Move KeepsCore strict m _ := .write h.opened hfront hsink hplain hbytes
  have hfr (force : Bool) := frontOf_consumeFront cfg h.opened hfront hmove force
  simp only [Relay.acceptFrontWrite]
  split
  next hcomplete =>
    have hf := hfr (decide (view.totalLength ≤ view.completedLength + sent.length))
    refine (h.front hfront hf rfl).finishFront hf.front
      ((hf.moves.download.mode hf.opened).1.trans hsink) ?_
    -- a view that is complete by its lengths has no slice left
    have hlen : view.totalLength ≤ view.completedLength + sent.length := by simpa using hcomplete
    unfold ReceiveView.Fits at hfits
    rw [hf.slices]
    simp only [ReceiveView.consume, dropBytes_flatten]
    exact drop_eq_nil_of_le (by omega)
  · exact h.front hfront (hfr _) rfl

end

/-- A turn of the flush loop either goes on or leaves with moves only. -/
def FlushTurn (strict : Prop) (r : Relay) : (Nat × Relay) ⊕ (Bool × Relay) → Prop
  | .inl s => Flushing strict r s.2
  | .inr t => Moves KeepsCore strict r t.2

theorem flushTurn_finishFrontWrite (h : Flushing strict r m)
    (hfront : m.pendingQuicReceives = view :: rest) (hfits : view.Fits)
    (hsink : m.sinkQuicReceives = false) (hplain : m.needsDecompress = false) (burst : Nat)
    {iov : List Bytes} (hiov : iov.flatten <+: view.slices.flatten) (res : WriteResult) :
    FlushTurn strict r (m.finishFrontWrite cfg burst view iov res) := by
  cases res with
  | sent n =>
    have haccept :=
      h.acceptFrontWrite cfg hfront hfits hsink hplain ((List.take_prefix n _).trans hiov)
    simp only [finishFrontWrite]
    split_ifs
    · exact h.moves.trans (Moves.of_shuts (m.shuts_beginTerminalHandoff cfg false))
    · exact haccept.moves.trans (Moves.of_quiet (keeps_armTcpWritable _ true))
    · exact haccept
  | eintr => exact h
  | eagain => exact h.moves.trans (Moves.of_quiet (m.keeps_armTcpWritable true))
  | error => exact h.moves.trans (Moves.of_shuts (m.shuts_beginTerminalHandoff cfg false))

/-! #### DrainCompressedQuicReceiveView -/

/-- The decompression loop works on the view that is in front. -/
structure Draining (strict : Prop) (r : Relay) (rest : List ReceiveView)
    (s : ReceiveView × Relay) : Prop where
  flushing : Flushing strict r s.2
  front : s.2.pendingQuicReceives = s.1 :: rest

/-- The loop goes on, or is done with a view of which nothing is left, or
leaves with moves only. -/
def DrainTurn (strict : Prop) (r : Relay) (rest : List ReceiveView) :
    (ReceiveView × Relay) ⊕ (Bool × ReceiveView × Relay) → Prop
  | .inl s => Draining strict r rest s
  | .inr (true, s) => Draining strict r rest s ∧ s.1.slices = []
  | .inr (false, s) => Moves KeepsCore strict r s.2

theorem draining_inflateConsumed (h : Draining strict r rest s)
    (hsink : s.2.sinkQuicReceives = false) (hzstd : s.2.needsDecompress = true) {z : InflateResult}
    (hz : z.inputConsumed ≤ (s.1.slices.headD []).length) :
    Draining strict r rest (s.2.inflateConsumed cfg s.1 z) := by
  unfold inflateConsumed
  split
  · exact h
  have hlen : ((s.1.slices.headD []).take z.inputConsumed).length = z.inputConsumed := by
    rw [length_take]
    omega
  have hbytes : s.1.slices.flatten = (s.1.slices.headD []).take z.inputConsumed ++
      ((dropBytes z.inputConsumed s.1.slices).dropWhile (· = [])).flatten := by
    rw [flatten_dropWhile_nil, dropBytes_flatten]
    cases hsl : s.1.slices with
    | nil => simp
    | cons piece more =>
      rw [hsl, headD_cons] at hz
      rw [headD_cons, flatten_cons, drop_append_of_le_length hz, ← append_assoc,
        take_append_drop]
  have hmove : Move KeepsCore strict s.2 _ := .inflate h.flushing.opened h.front hsink hzstd hbytes
  have hf := frontOf_consumeFront cfg h.flushing.opened h.front hmove false
  rw [hlen] at hf
  exact ⟨h.flushing.front h.front hf rfl, hf.front⟩

section

variable (hr : r.Sound)
include hr

section

variable (h : Draining strict r rest s) (hsink : s.2.sinkQuicReceives = false)
  (hzstd : s.2.needsDecompress = true)
include h hsink hzstd

theorem draining_inflateProduced (z : InflateResult) :
    Moves KeepsCore strict r (s.2.inflateProduced cfg z) ∧
      ((s.2.inflateProduced cfg z).closing = false →
        (s.2.inflateProduced cfg z).pendingQuicReceives = s.1 :: rest) := by
  unfold inflateProduced
  split
  · exact ⟨h.flushing.moves, fun _ => h.front⟩
  have hpush : Moves KeepsCore strict r (s.2.pushTcpWrite z.output) :=
    h.flushing.moves.trans
      (Move.moves (.produce h.flushing.opened hsink hzstd (by rw [h.front]; exact cons_ne_nil _ _)))
  have hflush : WritesOnly strict (s.2.pushTcpWrite z.output)
      ((s.2.pushTcpWrite z.output).flushTcpWrites cfg) :=
    writesOnly_flushTcpWrites cfg (hr.moves hpush.download)
  exact ⟨hpush.trans hflush.moves, fun hc => (hflush.queue hc).trans h.front⟩

/-- Every turn that goes on has no write pending, or has not added one. -/
theorem drainTurn_acceptInflate {z : InflateResult}
    (hz : z.inputConsumed ≤ (s.1.slices.headD []).length) :
    DrainTurn strict r rest (s.2.acceptInflate cfg s.1 z) := by
  have hp := draining_inflateConsumed cfg h hsink hzstd hz
  have hmode := hp.flushing.moves.download.mode hp.flushing.opened
  have hsink' : (s.2.inflateConsumed cfg s.1 z).2.sinkQuicReceives = false := by
    rw [hmode.1, ← (h.flushing.moves.download.mode h.flushing.opened).1, hsink]
  have hzstd' : (s.2.inflateConsumed cfg s.1 z).2.needsDecompress = true := by
    rw [hmode.2, ← (h.flushing.moves.download.mode h.flushing.opened).2, hzstd]
  obtain ⟨hmoves, hqueue⟩ := draining_inflateProduced cfg hr hp hsink' hzstd' z
  have hkept (hout : z.output = []) : (s.2.inflateConsumed cfg s.1 z).2.inflateProduced cfg z
      = (s.2.inflateConsumed cfg s.1 z).2 := by
    simp only [inflateProduced, hout, ↓reduceIte]
  have hview (hzero : z.inputConsumed = 0) : (s.2.inflateConsumed cfg s.1 z).1 = s.1 := by
    simp only [inflateConsumed, hzero, ↓reduceIte]
  simp only [acceptInflate]
  split_ifs with hc hparked hidle hlast hend
  · exact hmoves
  · exact hmoves
  · -- no input left and none wanted back
    obtain ⟨hzero, hout⟩ : z.inputConsumed = 0 ∧ z.output = [] := by simpa using hidle
    have hnone : s.1.slices = [] := by simpa using (Bool.and_eq_true_iff.mp hlast).1
    rw [hkept hout]
    exact ⟨hp, by rw [hview hzero]; exact hnone⟩
  · exact hmoves.trans (Moves.of_quiet (keeps_setRelayStop _))
  · obtain ⟨⟨hnone, hout⟩, -⟩ : ((s.2.inflateConsumed cfg s.1 z).1.slices = [] ∧ z.output = []) ∧
      z.needsMoreInput = true := by simpa using hend
    rw [hkept hout]
    exact ⟨hp, hnone⟩
  · have hopen : ((s.2.inflateConsumed cfg s.1 z).2.inflateProduced cfg z).closing = false := by
      simpa using hc
    refine ⟨⟨hmoves, hopen, fun hs => ?_⟩, hqueue hopen⟩
    by_cases hout : z.output = []
    · rw [hkept hout]
      exact hp.flushing.unblocked hs
    · exact .inl (by simpa [hout] using hparked)

theorem drainTurn_drainCompressedTurn :
    DrainTurn strict r rest (drainCompressedTurn cfg s) := by
  have htake := s.2.keeps_takeInflate
  have hside : s.2.takeInflate.2.downloadSide = s.2.downloadSide :=
    congrArg (fun c : UploadSide × DownloadSide × CallbackSide => c.2.1) htake.kept
  have hfront : s.2.takeInflate.2.pendingQuicReceives = s.1 :: rest :=
    (congrArg DownloadSide.pendingQuicReceives hside).trans h.front
  have hopen := htake.closing.trans h.flushing.opened
  -- the worker steps over used-up slices of the view in place
  have hset : s.2.takeInflate.2.setFrontReceive s.1.skipEmpty
      = s.2.takeInflate.2.withReceives
        ({ s.1 with slices := s.1.slices.dropWhile (· = []) } :: rest) := by
    simp only [setFrontReceive, hfront, withReceives, ReceiveView.skipEmpty]
  have htrim :
      Draining strict r rest (s.1.skipEmpty, s.2.takeInflate.2.setFrontReceive s.1.skipEmpty) := by
    rw [hset]
    refine ⟨⟨?_, hopen, fun hs => ?_⟩, rfl⟩
    · exact (h.flushing.moves.trans (Moves.of_quiet htake)).trans
        (Move.moves (.trim hopen hfront (flatten_dropWhile_nil _)))
    · rcases h.flushing.unblocked hs with hw | hfree
      · exact .inl ((congrArg DownloadSide.pendingTcpWrites hside).trans hw)
      · refine .inr fun v hv => ?_
        rw [h.front] at hfree
        rcases mem_cons.mp hv with rfl | hv
        · exact hfree s.1 mem_cons_self
        · exact hfree v (mem_cons_of_mem _ hv)
  simp only [drainCompressedTurn]
  split_ifs with hacq hbad
  · exact htrim.flushing.moves.trans (Moves.of_quiet (keeps_armTcpWritable _ true))
  · exact htrim.flushing.moves.trans (Moves.of_quiet (keeps_setRelayStop _))
  · refine drainTurn_acceptInflate cfg hr htrim ?_ ?_ ?_
    · rw [hset]
      exact (congrArg DownloadSide.sinkQuicReceives hside).trans hsink
    · rw [hset]
      exact (congrArg DownloadSide.needsDecompress hside).trans hzstd
    · simp only [Bool.or_eq_true, decide_eq_true_eq, not_or, not_lt] at hbad
      exact hbad.1.2

theorem drainTurn_drainCompressedLoop :
    DrainTurn strict r rest (.inr (s.2.drainCompressedLoop cfg s.1)) := by
  have hmode {t : ReceiveView × Relay} (ht : Draining strict r rest t) :
      t.2.sinkQuicReceives = false ∧ t.2.needsDecompress = true := by
    have h₁ := h.flushing.moves.download.mode h.flushing.opened
    have h₂ := ht.flushing.moves.download.mode ht.flushing.opened
    exact ⟨by rw [h₂.1, ← h₁.1, hsink], by rw [h₂.2, ← h₁.2, hzstd]⟩
  refine Machine.loop_rule (fun t : ReceiveView × Relay => Draining strict r rest t)
    (fun t : Bool × ReceiveView × Relay => DrainTurn strict r rest (.inr t)) ?_ ?_ ?_ _ h
  · intro t t' ht hb
    have := drainTurn_drainCompressedTurn cfg hr ht (hmode ht).1 (hmode ht).2
    rwa [hb] at this
  · intro t t' ht hb
    have := drainTurn_drainCompressedTurn cfg hr ht (hmode ht).1 (hmode ht).2
    rwa [hb] at this
  · intro t ht
    exact ht.flushing.moves

theorem drainTurn_drainCompressedQuicReceiveView :
    DrainTurn strict r rest (.inr (s.2.drainCompressedQuicReceiveView cfg s.1)) := by
  have hloop := drainTurn_drainCompressedLoop cfg hr h hsink hzstd
  simp only [drainCompressedQuicReceiveView]
  rcases hl : s.2.drainCompressedLoop cfg s.1 with ⟨done, view, m⟩
  rw [hl] at hloop
  cases done with
  | false => exact hloop
  | true =>
    obtain ⟨hd, hnone⟩ := hloop
    have hf : FrontOf strict m view rest _ :=
      frontOf_flushFrontCompletion cfg hd.flushing.opened hd.front true
    exact ⟨⟨hd.flushing.front hd.front hf rfl, hf.front⟩, hf.slices.trans hnone⟩

end

/-! #### The whole flush -/

theorem flushTurn_flushFront (h : Flushing strict r m)
    (hfront : m.pendingQuicReceives = view :: rest) (burst : Nat) :
    FlushTurn strict r (m.flushFront cfg burst view) := by
  have hfits : view.Fits :=
    (hr.moves h.moves.download).fits h.opened view (by rw [hfront]; exact mem_cons_self)
  simp only [flushFront]
  split_ifs with hsink hzstd hdone hiov
  · exact h.popped (pops_sinkFront cfg h.opened hfront hsink)
  all_goals
    have hsink' : m.sinkQuicReceives = false := by simpa using hsink
    have hdrain : Draining strict r rest (view, m) := ⟨h, hfront⟩
  · have hd := drainTurn_drainCompressedQuicReceiveView cfg hr hdrain hsink' hzstd
    rcases hl : m.drainCompressedQuicReceiveView cfg view with ⟨done, view', m'⟩
    rw [hl] at hd hdone
    obtain rfl : done = true := hdone
    obtain ⟨hd, hnone⟩ := hd
    have hmode := (hd.flushing.moves.download.mode hd.flushing.opened).1
    rw [← (h.moves.download.mode h.opened).1, hsink'] at hmode
    exact hd.flushing.finishFront hd.front hmode (by rw [hnone]; rfl)
  · have hd := drainTurn_drainCompressedQuicReceiveView cfg hr hdrain hsink' hzstd
    rcases hl : m.drainCompressedQuicReceiveView cfg view with ⟨done, view', m'⟩
    rw [hl] at hd hdone
    obtain rfl : done = false := by simpa using hdone
    exact hd
  · exact h.popped
      (pops_retireEmptyFront cfg h.opened hfront hsink' (gather_eq_nil _ _ _ cfg.maxIov_pos hiov)
      (h.fin_writes hfront))
  · have htake := m.keeps_takeWrite
    have hside : m.takeWrite.2.downloadSide = m.downloadSide :=
      congrArg (fun c : UploadSide × DownloadSide × CallbackSide => c.2.1) htake.kept
    have hplain : m.needsDecompress = false := by simpa using hzstd
    exact flushTurn_finishFrontWrite cfg (h.core htake)
      ((congrArg DownloadSide.pendingQuicReceives hside).trans hfront)
      hfits ((congrArg DownloadSide.sinkQuicReceives hside).trans hsink')
      ((congrArg DownloadSide.needsDecompress hside).trans hplain) burst
      (flatten_gather true _ _ _ _) _

theorem flushTurn_flushDeferredTurn {s : Nat × Relay} (h : Flushing strict r s.2) :
    FlushTurn strict r (flushDeferredTurn cfg s) := by
  simp only [flushDeferredTurn]
  split
  · exact h.moves
  next front rest hfront =>
    split
    · exact h.moves.trans (Moves.of_quiet (s.2.keeps_armTcpWritable true))
    · have hf : FrontOf strict s.2 front rest _ :=
        frontOf_flushFrontCompletion cfg h.opened hfront false
      exact flushTurn_flushFront cfg hr (h.front hfront hf rfl) hf.front s.1

/-- **The whole of FlushDeferredQuicReceives is a sequence of moves.** -/
theorem moves_flushDeferredQuicReceives (hstrict : strict → r.closing = false → r.FinUnblocked) :
    Moves KeepsCore strict r (r.flushDeferredQuicReceives cfg) := by
  unfold flushDeferredQuicReceives
  split_ifs with hc hleft
  · exact .refl
  all_goals
    have hloop : Moves KeepsCore strict r (r.flushDeferredLoop cfg).2 := by
      refine Machine.loop_rule (fun s : Nat × Relay => Flushing strict r s.2)
        (fun t : Bool × Relay => Moves KeepsCore strict r t.2) ?_ ?_ ?_ _
        ⟨.refl, by simpa using hc, fun hs => hstrict hs (by simpa using hc)⟩
      · intro s s' h hb
        have := flushTurn_flushDeferredTurn cfg hr h
        rwa [hb] at this
      · intro s t h hb
        have := flushTurn_flushDeferredTurn cfg hr h
        rwa [hb] at this
      · intro s h
        exact h.moves
  · exact hloop
  · refine (hloop.trans ?_).trans ((Moves.of_quiet (keeps_maybeResumeQuicReceive cfg _)).trans
      (Moves.of_quiet (keeps_disarmIdleWritable _)))
    unfold shutdownAfterQuicReceives
    split
    next hcond =>
      obtain ⟨hq, hqueued⟩ : (r.flushDeferredLoop cfg).2.pendingQuicReceives = [] ∧
        (r.flushDeferredLoop cfg).2.tcpWriteShutdownQueued = true := by simpa using hcond
      exact moves_shutdownTcpWrite cfg (hr.moves hloop.download) hqueued (.inl hq)
    · exact .refl

end
end Relay
end TcpQuicProxy.LinuxRelay
