import TcpQuicProxy.LinuxRelay.Sides

/-!
# What the functions of a relay do to its sends and its end

The functions of the QUIC-to-TCP direction leave both alone, hand the relay off
or signal its stop; those of the upload direction make further moves. A loop is
left with what its turns have done.
-/

namespace TcpQuicProxy.LinuxRelay

open List

/-- What `DecompressInto` reports is no failure: it stays within its input and
its output buffer, and it gets on or asks for input that there is not. -/
def InflateResult.advances (cfg : Config) (view : ReceiveView) (z : InflateResult) : Bool :=
  z.ok && z.inputConsumed ≤ (view.slices.headD []).length && z.output.length ≤ cfg.readChunkSize &&
    (z.inputConsumed ≠ 0 || z.output ≠ [] || view.slices = [] && z.needsMoreInput)

theorem take_flatten_ne_nil {iov : List Bytes} {n : Nat} (hiov : iov.flatten ≠ [])
    (hn : (WriteResult.sent n).accepting = true) : iov.flatten.take n ≠ [] := by
  intro hnil
  rcases take_eq_nil_iff.mp hnil with rfl | hempty
  · cases hn
  · exact hiov hempty

theorem gather_flatten_ne_nil {skipEmpty : Bool} {limit iov attempted : Nat} {pieces : List Bytes}
    (h : gather skipEmpty limit iov attempted pieces ≠ []) :
    (gather skipEmpty limit iov attempted pieces).flatten ≠ [] := by
  induction pieces generalizing iov attempted with
  | nil => exact absurd rfl h
  | cons piece rest ih =>
    unfold gather at h ⊢
    split_ifs at h ⊢ with hstop hempty _ hcut
    · exact absurd rfl h
    · exact ih h
    · exact absurd rfl h
    · have hroom : ¬limit ≤ attempted := by
        intro hle
        simp_all
      have htake : piece.take (limit - attempted) ≠ [] := by
        intro hnil
        rcases take_eq_nil_iff.mp hnil with h0 | h0
        · omega
        · exact hempty h0
      exact append_ne_nil_of_left_ne_nil htake _
    · exact append_ne_nil_of_left_ne_nil hempty _

namespace Relay

variable (cfg : Config) {may : Permits} {fault : Prop} {r r' : Relay}

/-! ### The QUIC-to-TCP direction -/

theorem drives_maybeStopFullyClosedRelay (r : Relay) :
    Drives may fault r (r.maybeStopFullyClosedRelay cfg) := by
  unfold maybeStopFullyClosedRelay
  split_ifs with hclosing hdirections hfin _
  · exact .refl r
  · exact .refl r
  · exact .refl r
  · exact .refl r
  · simp only [Bool.or_eq_true, Bool.not_eq_true', not_or, Bool.not_eq_true,
      Bool.not_eq_false] at hclosing hdirections hfin
    exact (Drives.refl r).handoff cfg hclosing.1
      (fun _ => .inr ⟨hdirections.1, hdirections.2, hfin.2⟩) true

theorem drives_closeTcpWrite (r : Relay) : Drives may fault r r.closeTcpWrite :=
  ⟨leads_of_eq rfl, fun _ =>
    ⟨.inl rfl, fun h => ⟨h.read, rfl, h.fin⟩, .inl, fun h => ⟨h.read, h.writes⟩⟩⟩

theorem drives_shutdownTcpWrite (r : Relay) : Drives may fault r (r.shutdownTcpWrite cfg) := by
  have hshutdown : Drives may fault r (if r.tcpFdOpen then r.emit .shutdownWrite else r) := by
    split
    · exact .of_sides (r.sides_emit rfl rfl)
    · exact .refl r
  exact (hshutdown.trans (drives_closeTcpWrite _)).trans (drives_maybeStopFullyClosedRelay cfg _)

/-- Writes are used up from the front, so the next one is not an error either. -/
theorem follows_takeWrite (h : fault ∨ r.endSide.Clean) :
    Follows fault r r.takeWrite.2 ∧ (fault ∨ r.takeWrite.1.accepting = true) := by
  unfold takeWrite
  split
  · exact ⟨.refl _, .inr rfl⟩
  · next w rest hwrites =>
    have hall (h : r.endSide.Clean) : w.accepting = true ∧ ∀ w ∈ rest, w.accepting = true :=
      forall_mem_cons.mp (hwrites ▸ show ∀ w ∈ r.io.writes, w.accepting = true from h.writes)
    exact ⟨⟨.inl rfl, fun h => ⟨h.read, h.write, h.fin⟩, .inl, fun h => ⟨h.read, (hall h).2⟩⟩,
      h.imp_right fun h => (hall h).1⟩

theorem drives_takeWrite (r : Relay) : Drives may fault r r.takeWrite.2 :=
  ⟨leads_of_eq r.sendSide_takeWrite, fun h => (follows_takeWrite h).1⟩

section

variable {σ τ : Type} {now : σ → Relay} {left : Relay → τ → Prop}

/-- A turn of a loop that began with the relay `r`: it goes on with an open
relay, or the loop is left with a result that `left` accepts. -/
def DrivesTurn (may : Permits) (fault : Prop) (now : σ → Relay) (left : Relay → τ → Prop)
    (r : Relay) : σ ⊕ τ → Prop
  | .inl s => Drives may fault r (now s) ∧ (now s).closing = false
  | .inr t => left r t

/-- What `left` accepts after some moves it accepts for the relay before them. -/
def LeftOver (may : Permits) (fault : Prop) (left : Relay → τ → Prop) : Prop :=
  ∀ r r' t, Drives may fault r r' → left r' t → left r t

theorem DrivesTurn.after (hleft : LeftOver may fault left) {t : σ ⊕ τ}
    (ht : DrivesTurn may fault now left r' t) (heq : r'.sides = r.sides) :
    DrivesTurn may fault now left r t := by
  cases t with
  | inl s => exact ⟨ht.1.after heq, ht.2⟩
  | inr t => exact hleft r r' t (.of_sides heq) ht

/-- The loop goes on with a relay that is still the same to both. -/
theorem Drives.turn (h : Drives may fault r r') (hopen : r'.closing = false) {s : σ}
    (heq : (now s).sides = r'.sides) :
    DrivesTurn may fault now left r (.inl s) :=
  ⟨h.keeps heq, (closing_of_sendSide (sendSide_of_sides heq)).trans hopen⟩

/-- A loop whose turns drive an open relay drives it as a whole. -/
theorem drives_loop (hleft : LeftOver may fault left) {cond : σ → Bool} {body : σ → σ ⊕ τ}
    {cut : σ → τ}
    (hbody : ∀ s, (now s).closing = false → may.stops ∨ cond s = true →
      DrivesTurn may fault now left (now s) (body s))
    (hcut : ∀ s, (now s).closing = false → left (now s) (cut s)) (n : Nat) {s : σ}
    (hopen : (now s).closing = false) (hcond : may.stops ∨ Machine.loopMeets cond body n s = true) :
    left (now s) (Machine.loop body cut n s) := by
  have hnext : ∀ t t', Drives may fault (now s) (now t) ∧ (now t).closing = false →
      may.stops ∨ cond t = true →
      body t = .inl t' → Drives may fault (now s) (now t') ∧ (now t').closing = false := by
    rintro t t' ⟨ht, hopen⟩ hcond hb
    have hturn := hbody t hopen hcond
    rw [hb] at hturn
    exact ⟨ht.trans hturn.1, hturn.2⟩
  have hleave : ∀ t u, Drives may fault (now s) (now t) ∧ (now t).closing = false →
      may.stops ∨ cond t = true →
      body t = .inr u → left (now s) u := by
    rintro t u ⟨ht, hopen⟩ hcond hb
    have hturn := hbody t hopen hcond
    rw [hb] at hturn
    exact hleft _ _ u ht hturn
  have hend : ∀ t, Drives may fault (now s) (now t) ∧ (now t).closing = false →
      left (now s) (cut t) := by
    rintro t ⟨ht, hopen⟩
    exact hleft _ _ _ ht (hcut t hopen)
  rcases hcond with hstops | hmeets
  · exact Machine.loop_rule _ _ (fun t t' hinv => hnext t t' hinv (.inl hstops))
      (fun t u hinv => hleave t u hinv (.inl hstops)) hend n ⟨.refl _, hopen⟩
  · exact Machine.loop_rule_of_meets _ _ (fun t t' hinv hc => hnext t t' hinv (.inr hc))
      (fun t u hinv hc => hleave t u hinv (.inr hc)) hend n ⟨.refl _, hopen⟩ hmeets

end

/-- The loops over pending writes and receives leave with the relay alone. -/
abbrev LeavesFlush (may : Permits) (fault : Prop) (r : Relay) (t : Bool × Relay) : Prop :=
  Drives may fault r t.2

abbrev DrivesFlushTurn (may : Permits) (fault : Prop) (r : Relay)
    (t : (Nat × Relay) ⊕ (Bool × Relay)) : Prop :=
  DrivesTurn may fault Prod.snd (LeavesFlush may fault) r t

theorem leftOver_flush : LeftOver may fault (LeavesFlush may fault) := fun _ _ _ h h' => h.trans h'

variable {iov : List Bytes} {res : WriteResult} {s : Nat × Relay} {view : ReceiveView}

theorem drivesTurn_finishTcpWrite (hdrives : Drives may fault r r') (hopen : r'.closing = false)
    (burst : Nat) (hiov : iov.flatten ≠ [])
    (hres : fault ∨ r.endSide.Clean → fault ∨ res.accepting = true) :
    DrivesFlushTurn may fault r (r'.finishTcpWrite cfg burst iov res) := by
  cases res with
  | sent n =>
    simp only [finishTcpWrite]
    split_ifs with hsent
    · refine hdrives.handoff cfg hopen (fun hclean => (hres hclean).imp_right fun hn => ?_) false
      exact absurd hsent (take_flatten_ne_nil hiov hn)
    · exact hdrives.keeps (by simp)
    · exact hdrives.turn hopen (by simp)
  | eintr => exact hdrives.turn hopen rfl
  | eagain => exact hdrives.keeps (by simp)
  | error =>
    exact hdrives.handoff cfg hopen
      (fun hclean => (hres hclean).imp_right fun h => absurd h Bool.false_ne_true) false

theorem drivesTurn_flushTcpWritesTurn (hopen : s.2.closing = false) :
    DrivesFlushTurn may fault s.2 (flushTcpWritesTurn cfg s) := by
  simp only [flushTcpWritesTurn]
  split_ifs with _ _ hiov
  · exact Drives.refl _
  · exact Drives.of_sides (by simp)
  · exact Drives.refl _
  · exact drivesTurn_finishTcpWrite cfg (drives_takeWrite _)
      ((closing_of_sendSide s.2.sendSide_takeWrite).trans hopen) _
      (gather_flatten_ne_nil hiov) fun hclean => (follows_takeWrite hclean).2

theorem drives_flushTcpWrites : Drives may fault r (r.flushTcpWrites cfg) := by
  unfold flushTcpWrites
  split_ifs with hclosing
  · exact .refl r
  all_goals
    have hloop : LeavesFlush may fault r (r.flushTcpWritesLoop cfg) :=
      drives_loop (s := (0, r)) leftOver_flush (fun s hs _ => drivesTurn_flushTcpWritesTurn cfg hs)
        (fun _ _ => .refl _) _
        (eq_false_of_ne_true hclosing) (.inr (Machine.loopMeets_true _ _))
  · exact hloop
  · refine Drives.keeps ?_ (sides_disarmIdleWritable _)
    unfold shutdownAfterTcpWrites
    split
    · exact hloop.trans (drives_shutdownTcpWrite cfg _)
    · exact hloop

theorem drives_inflateProduced (z : InflateResult) :
    Drives may fault r (r.inflateProduced cfg z) := by
  unfold inflateProduced
  split
  · exact .refl r
  · exact (drives_flushTcpWrites cfg).after (r.sides_pushTcpWrite z.output)

/-! #### Decompression -/

/-- The answer to the next turn of the decompression loop is no failure. -/
def inflates (s : ReceiveView × Relay) : Bool :=
  !s.2.takeInflate.1.acquired || s.2.takeInflate.1.advances cfg s.1.skipEmpty

/-- The decompression leaves with the relay and with whether the view is used
up, which it is only for an open relay. -/
abbrev LeavesInflate (may : Permits) (fault : Prop) (r : Relay)
    (t : Bool × ReceiveView × Relay) : Prop :=
  Drives may fault r t.2.2 ∧ (t.1 = true → t.2.2.closing = false)

abbrev DrivesInflateTurn (may : Permits) (fault : Prop) (r : Relay)
    (t : (ReceiveView × Relay) ⊕ (Bool × ReceiveView × Relay)) : Prop :=
  DrivesTurn may fault Prod.snd (LeavesInflate may fault) r t

theorem leftOver_inflate : LeftOver may fault (LeavesInflate may fault) :=
  fun _ _ _ h h' => ⟨h.trans h'.1, h'.2⟩

theorem drivesTurn_acceptInflate {z : InflateResult} (hz : may.stops ∨ z.advances cfg view = true) :
    DrivesInflateTurn may fault r (r.acceptInflate cfg view z) := by
  have hproduced : Drives may fault r ((r.inflateConsumed cfg view z).2.inflateProduced cfg z) :=
    (drives_inflateProduced cfg z).after (r.sides_inflateConsumed cfg view z)
  simp only [acceptInflate]
  split_ifs with hclosing _ hnothing hmore
  · exact ⟨hproduced, nofun⟩
  · exact ⟨hproduced, nofun⟩
  · exact ⟨hproduced, fun _ => eq_false_of_ne_true hclosing⟩
  · -- neither input consumed nor output produced
    refine ⟨hproduced.stop (hz.resolve_right fun hadvances => ?_), nofun⟩
    simp only [InflateResult.advances, Bool.and_eq_true, Bool.or_eq_true,
      decide_eq_true_eq] at hadvances hnothing hmore
    obtain ⟨-, (hne | hne) | hend⟩ := hadvances
    · exact hne hnothing.1
    · exact hne hnothing.2
    · exact hmore (by simpa using hend)
  · exact ⟨hproduced, fun _ => eq_false_of_ne_true hclosing⟩
  · exact ⟨hproduced, eq_false_of_ne_true hclosing⟩

theorem drivesTurn_drainCompressedTurn {s : ReceiveView × Relay}
    (hz : may.stops ∨ inflates cfg s = true) :
    DrivesInflateTurn may fault s.2 (drainCompressedTurn cfg s) := by
  have hset : (s.2.takeInflate.2.setFrontReceive s.1.skipEmpty).sides = s.2.sides := by simp
  simp only [drainCompressedTurn]
  split_ifs with hacquired hinvalid
  · exact ⟨.of_sides (by simp), nofun⟩
  · refine ⟨(Drives.of_sides hset).stop (hz.resolve_right fun hadvances => ?_), nofun⟩
    simp only [inflates, InflateResult.advances, Bool.or_eq_true, Bool.and_eq_true,
      decide_eq_true_eq, hacquired,
      Bool.false_eq_true, false_or] at hadvances hinvalid
    obtain ⟨⟨⟨hok, hinput⟩, houtput⟩, -⟩ := hadvances
    rcases hinvalid with (hok' | hinput') | houtput'
    · simp [hok] at hok'
    · omega
    · omega
  · refine (drivesTurn_acceptInflate cfg (hz.imp_right fun h => ?_)).after leftOver_inflate hset
    simpa [inflates, eq_false_of_ne_true hacquired] using h

/-- No turn of the decompression of the view ends in a failure. -/
def inflatesView (r : Relay) (view : ReceiveView) : Bool :=
  Machine.loopMeets (inflates cfg) (drainCompressedTurn cfg) (r.io.inflates.length + 1) (view, r)

theorem drives_drainCompressedQuicReceiveView (hopen : r.closing = false)
    (hz : may.stops ∨ inflatesView cfg r view = true) :
    LeavesInflate may fault r (r.drainCompressedQuicReceiveView cfg view) := by
  have hloop : LeavesInflate may fault r (r.drainCompressedLoop cfg view) :=
    drives_loop (s := (view, r)) leftOver_inflate (fun _ _ => drivesTurn_drainCompressedTurn cfg)
      (fun _ _ => ⟨.refl _, fun h => absurd h Bool.false_ne_true⟩) _ hopen hz
  simp only [drainCompressedQuicReceiveView]
  split
  next hdone =>
    have hflush :=
      sides_flushFrontCompletion cfg (r.drainCompressedLoop cfg view).2.2
        (r.drainCompressedLoop cfg view).2.1 true
    exact ⟨hloop.1.keeps hflush,
      fun _ => (closing_of_sendSide (sendSide_of_sides hflush)).trans (hloop.2 hdone)⟩
  · exact hloop

/-! #### The whole flush -/

theorem drivesTurn_finishFrontWrite (hdrives : Drives may fault r r') (hopen : r'.closing = false)
    (burst : Nat) (view : ReceiveView) (hiov : iov.flatten ≠ [])
    (hres : fault ∨ r.endSide.Clean → fault ∨ res.accepting = true) :
    DrivesFlushTurn may fault r (r'.finishFrontWrite cfg burst view iov res) := by
  cases res with
  | sent n =>
    simp only [finishFrontWrite]
    split_ifs with hsent
    · refine hdrives.handoff cfg hopen (fun hclean => (hres hclean).imp_right fun hn => ?_) false
      exact absurd hsent (take_flatten_ne_nil hiov hn)
    · exact hdrives.keeps (by simp)
    · exact hdrives.turn hopen (by simp)
  | eintr => exact hdrives.turn hopen rfl
  | eagain => exact hdrives.keeps (by simp)
  | error =>
    exact hdrives.handoff cfg hopen
      (fun hclean => (hres hclean).imp_right fun h => absurd h Bool.false_ne_true) false

/-- The front view is written without a failure of its own: a sink does not
meet its FIN, and a compressed view can be decompressed. -/
def servesFront (r : Relay) (view : ReceiveView) : Bool :=
  !(r.sinkQuicReceives && view.fin) &&
    (!r.needsDecompress || r.sinkQuicReceives || inflatesView cfg r view)

theorem drivesTurn_sinkFront (hopen : r.closing = false) (burst : Nat)
    (hfin : may.stops ∨ view.fin = false) :
    DrivesFlushTurn may fault r (.inl (burst, r.sinkFront cfg view)) := by
  have hpop : ∀ r : Relay, r.popFrontReceive.sides = r.sides := fun _ => rfl
  have htake : ∀ n, (r.takePendingQuicReceiveBytes n).sides = r.sides := fun _ => rfl
  cases hview : view.fin with
  | true =>
    refine ((Drives.refl r).stop (hfin.resolve_right fun h => ?_)).turn hopen ?_
    · rw [hview] at h
      cases h
    · simp [sinkFront, hpop, hview, sides_setRelayStop, htake]
  | false => exact (Drives.refl r).turn hopen (by simp [sinkFront, hpop, hview, htake])

theorem drivesTurn_flushFront (hopen : r.closing = false) (burst : Nat)
    (hserves : may.stops ∨ servesFront cfg r view = true) :
    DrivesFlushTurn may fault r (r.flushFront cfg burst view) := by
  simp only [flushFront]
  split_ifs with hsink hzstd hdone hiov
  · refine drivesTurn_sinkFront cfg hopen burst (hserves.imp_right fun h => ?_)
    simpa [servesFront, hsink] using h
  all_goals
    have hinflates : r.needsDecompress = true → may.stops ∨ inflatesView cfg r view = true :=
      fun hzstd =>
      hserves.imp_right fun h => by simpa [servesFront, hsink, hzstd] using h
  · have hdrain : LeavesInflate may fault r _ :=
      drives_drainCompressedQuicReceiveView cfg hopen (hinflates hzstd)
    exact hdrain.1.turn (hdrain.2 hdone) (sides_finishFront _ _)
  · exact (drives_drainCompressedQuicReceiveView cfg hopen (hinflates hzstd)).1
  · exact (Drives.refl r).turn hopen (by simp)
  · exact drivesTurn_finishFrontWrite cfg (drives_takeWrite r)
      ((closing_of_sendSide r.sendSide_takeWrite).trans hopen) _ _
      (gather_flatten_ne_nil hiov) fun hclean => (follows_takeWrite hclean).2

/-- The condition on one turn of `FlushDeferredQuicReceives`. -/
def servesTurn (s : Nat × Relay) : Bool :=
  match s.2.pendingQuicReceives with
  | [] => true
  | front :: _ =>
    servesFront cfg (s.2.flushFrontCompletion cfg front false).2
      (s.2.flushFrontCompletion cfg front false).1

theorem drivesTurn_flushDeferredTurn (hopen : s.2.closing = false)
    (hserves : may.stops ∨ servesTurn cfg s = true) :
    DrivesFlushTurn may fault s.2 (flushDeferredTurn cfg s) := by
  unfold flushDeferredTurn
  unfold servesTurn at hserves
  split
  · exact Drives.refl _
  next front _ hfront =>
    rw [hfront] at hserves
    split
    · exact Drives.of_sides (by simp)
    · have hflush := s.2.sides_flushFrontCompletion cfg front false
      have hopen' := (closing_of_sendSide (sendSide_of_sides hflush)).trans hopen
      exact (drivesTurn_flushFront cfg hopen' _ hserves).after leftOver_flush hflush

/-- No view that the flush comes to ends in a failure of its own. -/
def servesReceives (r : Relay) : Bool :=
  Machine.loopMeets (servesTurn cfg) (flushDeferredTurn cfg)
    (r.pendingQuicReceives.length + r.io.writes.length + 1) (0, r)

theorem drives_flushDeferredQuicReceives (hserves : may.stops ∨ servesReceives cfg r = true) :
    Drives may fault r (r.flushDeferredQuicReceives cfg) := by
  unfold flushDeferredQuicReceives
  split_ifs with hclosing
  · exact .refl r
  all_goals
    have hloop : LeavesFlush may fault r (r.flushDeferredLoop cfg) :=
      drives_loop (s := (0, r)) leftOver_flush (fun s hs => drivesTurn_flushDeferredTurn cfg hs)
        (fun _ _ => .refl _) _
        (eq_false_of_ne_true hclosing) hserves
  · exact hloop
  · have hshutdown :
        Drives may fault r ((r.flushDeferredLoop cfg).2.shutdownAfterQuicReceives cfg) := by
      unfold shutdownAfterQuicReceives
      split
      · exact hloop.trans (drives_shutdownTcpWrite cfg _)
      · exact hloop
    exact hshutdown.keeps (by simp)

/-! ### The upload direction -/

@[simp] theorem sendSide_pauseTcpRead :
    r.pauseTcpRead.sendSide = { r.sendSide with tcpReadPaused := true } := by
  rw [pauseTcpRead, sendSide_of_sides (sides_armTcpReadable _ _)]
  rfl

theorem leads_resumeTcpRead : Leads may r r.resumeTcpRead := by
  unfold resumeTcpRead Leads
  split
  · rw [sendSide_of_sides (sides_armTcpReadable _ true)]
    exact .single .resume
  · exact .refl

theorem drives_resumeTcpRead : Drives may fault r r.resumeTcpRead :=
  ⟨leads_resumeTcpRead, fun _ => .of_eq r.endSide_resumeTcpRead⟩

/-- A pause for the backlog means that bytes are outstanding. -/
theorem threshold_le_of_shouldPause (h : r.shouldPauseTcpReadForQuicBacklog = true) :
    r.sendSide.threshold ≤ r.sendSide.outstandingQuicSendBytes := by
  simp only [shouldPauseTcpReadForQuicBacklog, Bool.and_eq_true, decide_eq_true_eq] at h
  exact h.2

theorem drives_pauseTcpRead (h : r.shouldPauseTcpReadForQuicBacklog = true) :
    Drives may fault r r.pauseTcpRead := by
  refine ⟨?_, fun _ => .of_eq r.endSide_pauseTcpRead⟩
  unfold Leads
  rw [sendSide_pauseTcpRead]
  exact .single (.pause (threshold_le_of_shouldPause h))

theorem drives_drainTcpReadable : Drives may fault r r.drainTcpReadable.2 := by
  unfold drainTcpReadable
  split_ifs with _ _ hpause
  · exact .refl r
  · exact .of_sides (by simp)
  · exact drives_pauseTcpRead hpause
  · exact .refl r

/-- What `TrySubmitQuicSendOperation` deletes and reports as failed. -/
def refusesSend (r : Relay) : Bool :=
  r.streamOwner && !(r.io.lease && r.io.completionKey) || !r.streamOpen || r.closing ||
    r.io.status = .failed

/-- The three results of `TrySubmitQuicSendOperation`. -/
inductive Submits (r : Relay) (op : SendOperation) : Bool × Relay → Prop
  | refused (h : r.refusesSend = true) : Submits r op (false, r)
  | sent (r' : Relay) (h : r.refusesSend = false) (hside : r'.sendSide = r.sendSide.send op) :
      Submits r op (true, r')
  | parked (r' : Relay) (h : r.refusesSend = false)
      (hfull : r.io.status.isQuicSendBackpressureStatus = true)
      (hside : r'.sendSide = r.sendSide.park op) : Submits r op (true, r')

theorem open_of_not_refusesSend (h : r.refusesSend = false) : r.closing = false := by
  simp only [refusesSend, Bool.or_eq_false_iff] at h
  exact h.1.2

theorem submits_trySubmitQuicSendOperation (op : SendOperation) :
    Submits r op (r.trySubmitQuicSendOperation op) := by
  unfold trySubmitQuicSendOperation
  split_ifs with hlease hopen hok hfull
  · refine .refused ?_
    simp only [refusesSend, hlease, Bool.true_or]
  · refine .refused ?_
    rw [refusesSend, Bool.or_assoc _ (!r.streamOpen), hopen]
    simp only [Bool.or_true, Bool.true_or]
  all_goals
    replace hlease := eq_false_of_ne_true hlease
    replace hopen := eq_false_of_ne_true hopen
  · refine .sent _ ?_ (sendSide_emit _ rfl)
    rw [refusesSend, Bool.or_assoc _ (!r.streamOpen), hopen, hlease, hok]
    rfl
  · refine .parked _ ?_ hfull ?_
    · have hfailed : r.io.status ≠ .failed := by
        intro hfailed
        rw [hfailed] at hfull
        cases hfull
      rw [refusesSend, Bool.or_assoc _ (!r.streamOpen), hopen, hlease, decide_eq_false hfailed]
      rfl
    · show { r.pauseTcpRead.sendSide with
        pendingQuicSendRetries := r.pauseTcpRead.sendSide.pendingQuicSendRetries ++ [op] } = _
      rw [sendSide_pauseTcpRead]
      rfl
  · refine .refused ?_
    have hfailed : r.io.status = .failed := by
      cases hstatus : r.io.status <;> simp_all [SendStatus.isQuicSendBackpressureStatus]
    simp only [refusesSend, hfailed, decide_true, Bool.or_true]

/-- Backpressure is met only while an earlier send is outstanding. -/
def parksBeside (r : Relay) : Bool :=
  !r.io.status.isQuicSendBackpressureStatus || 0 < r.outstandingQuicSends

theorem outstanding_of_parksBeside (h : r.parksBeside = true)
    (hfull : r.io.status.isQuicSendBackpressureStatus = true) :
    0 < r.outstandingQuicSends := by
  simpa [parksBeside, hfull] using h

theorem drives_trySubmitQuicSendOperation (hpark : may.parksAlone ∨ r.parksBeside = true)
    (op : SendOperation) :
    Drives may fault r (r.trySubmitQuicSendOperation op).2 := by
  refine ⟨?_, fun _ => .of_eq (r.endSide_trySubmitQuicSendOperation op)⟩
  have hsubmits := submits_trySubmitQuicSendOperation (r := r) op
  generalize r.trySubmitQuicSendOperation op = p at hsubmits ⊢
  cases hsubmits with
  | refused h => exact .refl
  | sent r' h hside =>
    unfold Leads
    rw [hside]
    exact .single (.send op (open_of_not_refusesSend h))
  | parked r' h hfull hside =>
    unfold Leads
    rw [hside]
    exact .single (.park op (open_of_not_refusesSend h)
      (hpark.imp_right fun hp => outstanding_of_parksBeside hp hfull))

/-- The answers with which a retry is not refused. -/
def retryGranted (r : Relay) : Bool :=
  r.closing || r.pendingQuicSendRetries = [] ||
    r.io.lease && r.io.completionKey && r.io.status ≠ .failed

/-- What `RetryPendingQuicSends` does when it is not refused. -/
inductive Retries (may : Permits) (r : Relay) : Relay → Prop
  | closed (h : r.closing = true) : Retries may r r
  | drained (h : r.pendingQuicSendRetries = []) : Retries may r r.resumeTcpRead
  | sent (op : SendOperation) (rest : List SendOperation)
      (h : r.pendingQuicSendRetries = op :: rest) (r' : Relay)
      (hside : ({ r.sendSide with pendingQuicSendRetries := rest }.send op).Leads may r'.sendSide) :
        Retries may r r'
  | parked (op : SendOperation) (rest : List SendOperation)
      (h : r.pendingQuicSendRetries = op :: rest)
      (hfull : r.io.status.isQuicSendBackpressureStatus = true) (r' : Relay)
      (hside : ({ r.sendSide with pendingQuicSendRetries := rest }.park op).Leads may r'.sendSide) :
        Retries may r r'

theorem retries_retryPendingQuicSends (hstream : r.closing = false → r.streamOpen = true)
    (hgranted : r.retryGranted = true) :
    Retries may r r.retryPendingQuicSends := by
  unfold retryPendingQuicSends
  split
  next hclosing => exact .closed hclosing
  next hopen =>
    have hopen : r.closing = false := eq_false_of_ne_true hopen
    split
    next hnil => exact .drained hnil
    next op rest hcons =>
      simp only [retryGranted, hopen, hcons, reduceCtorEq, decide_false, Bool.false_or,
        Bool.and_eq_true, decide_eq_true_eq,
        ne_eq] at hgranted
      obtain ⟨⟨hlease, hkey⟩, hstatus⟩ := hgranted
      have hsubmits :=
        submits_trySubmitQuicSendOperation (r := { r with pendingQuicSendRetries := rest }) op
      generalize ({ r with pendingQuicSendRetries := rest } : Relay).trySubmitQuicSendOperation op =
        p at hsubmits ⊢
      have hresumed (r' : Relay) :
          Leads may r' (if r'.pendingQuicSendRetries ≠ [] then r' else r'.resumeTcpRead) := by
        split
        · exact .refl
        · exact leads_resumeTcpRead
      cases hsubmits with
      | refused hrefused =>
        simp [refusesSend, hlease, hkey, hstream hopen, hopen, hstatus] at hrefused
      | sent r' _ hside => exact .sent op rest hcons _ (hside ▸ hresumed r')
      | parked r' _ hfull hside => exact .parked op rest hcons hfull _ (hside ▸ hresumed r')

theorem drives_completeWithoutSend (fin : Bool) :
    Drives may fault r (r.completeWithoutSend cfg fin) := by
  unfold completeWithoutSend
  split
  · have hmark : Drives may fault r { r with quicSendFinCompleted := true } :=
      ⟨leads_of_eq rfl, fun _ =>
        ⟨.inl rfl, fun h => ⟨h.read, h.write, rfl⟩, .inl, fun h => ⟨h.read, h.writes⟩⟩⟩
    exact hmark.trans (drives_maybeStopFullyClosedRelay cfg _)
  · exact .refl r

theorem drives_submitTcpBatchToQuic (hpark : may.parksAlone ∨ r.parksBeside = true)
    (views : List Bytes) (fin : Bool) :
    Drives may fault r (r.submitTcpBatchToQuic cfg views fin).2 := by
  have hmark : Drives may fault r (r.markQuicSendFin fin) := .of_sides rfl
  have htry : ∀ op, Drives may fault r ((r.markQuicSendFin fin).trySubmitQuicSendOperation op).2 :=
    fun op =>
    hmark.trans (drives_trySubmitQuicSendOperation (r := r.markQuicSendFin fin) hpark op)
  unfold submitTcpBatchToQuic
  dsimp only
  split_ifs
  · exact hmark.trans (drives_completeWithoutSend cfg fin)
  · exact hmark
  · exact hmark
  · exact hmark
  · exact htry _
  · exact hmark.trans (drives_completeWithoutSend cfg fin)
  · exact .refl r
  · exact .refl r
  · exact .refl r
  · exact htry _

theorem drives_finishTcpToQuic (hpark : may.parksAlone ∨ r.parksBeside = true) :
    Drives may fault r (r.finishTcpToQuic cfg).2 := by
  unfold finishTcpToQuic
  split_ifs
  · exact .refl r
  · split
    · exact .refl r
    · exact drives_submitTcpBatchToQuic cfg hpark _ true
  · exact drives_submitTcpBatchToQuic cfg hpark [] true

/-- A batch that was read is converted and submitted. -/
def submitsBatch (r : Relay) (views : List Bytes) : Bool :=
  match r.buildTcpToQuicViews cfg views with
  | none => false
  | some sendViews => (r.submitTcpBatchToQuic cfg sendViews false).1

theorem drives_submitReadBatch (hpark : may.parksAlone ∨ r.parksBeside = true) {views : List Bytes}
    (hsubmits : may.stops ∨ submitsBatch cfg r views = true) :
    Drives may fault r (r.submitReadBatch cfg views).2 := by
  unfold submitReadBatch
  unfold submitsBatch at hsubmits
  split
  next hnone =>
    rw [hnone] at hsubmits
    exact (Drives.refl r).stop (hsubmits.resolve_right Bool.false_ne_true)
  next sendViews hsome =>
    rw [hsome] at hsubmits
    have hsubmit : Drives may fault r (r.submitTcpBatchToQuic cfg sendViews false).2 :=
      drives_submitTcpBatchToQuic cfg hpark _ false
    dsimp only
    split_ifs with hok hpause
    · refine hsubmit.stop (hsubmits.resolve_right fun h => ?_)
      simp [h] at hok
    · exact hsubmit.trans (drives_pauseTcpRead hpause)
    · exact hsubmit

/-- The FIN that follows the end of the TCP input is submitted. -/
def submitsFin (r : Relay) : Bool :=
  r.tcpReadClosed || ((r.closeTcpRead.armTcpReadable false).finishTcpToQuic cfg).1

theorem armTcpReadable_parksBeside (enabled : Bool) :
    (r.armTcpReadable enabled).parksBeside = r.parksBeside := by
  unfold armTcpReadable
  split <;> rfl

theorem drives_closeTcpRead (r : Relay) : Drives may fault r r.closeTcpRead := by
  have hemit : Drives may fault r (r.emit .tcpEof) := .of_sides (r.sides_emit rfl rfl)
  refine hemit.trans ⟨.single .eof, fun _ => ?_⟩
  exact ⟨.inl rfl, fun h => ⟨rfl, h.write, h.fin⟩, .inl, fun h => ⟨h.read, h.writes⟩⟩

theorem drives_finishTcpRead (hpark : may.parksAlone ∨ r.parksBeside = true)
    (hsubmits : may.stops ∨ submitsFin cfg r = true) :
    Drives may fault r (r.finishTcpRead cfg) := by
  have heof : Drives may fault r (r.closeTcpRead.armTcpReadable false) :=
    (drives_closeTcpRead r).keeps (sides_armTcpReadable _ false)
  have hfinish :
      Drives may fault r ((r.closeTcpRead.armTcpReadable false).finishTcpToQuic cfg).2 := by
    refine heof.trans (drives_finishTcpToQuic cfg (hpark.imp_right fun h => ?_))
    rw [armTcpReadable_parksBeside]
    exact h
  unfold finishTcpRead
  dsimp only
  split_ifs with hread hok
  · exact .refl r
  · exact hfinish
  · refine hfinish.stop (hsubmits.resolve_right fun h => ?_)
    simp [submitsFin, hread, hok] at h

/-- What the readv into `iov` buffers returns. -/
def readBatch (r : Relay) (iov : Nat) : Bytes :=
  match r.io.read with
  | .data n => r.tcpInput.take (min n (iov * cfg.readChunkSize))
  | _ => []

/-- Whatever the readv returns can be passed on to the stream. -/
def passesOn (r : Relay) (iov : Nat) : Bool :=
  match r.io.read with
  | .data _ =>
    r.readBatch cfg iov = [] || submitsBatch cfg (r.takeTcpInput (r.readBatch cfg iov))
      (splitViews cfg.readChunkSize iov (r.readBatch cfg iov))
  | .eof => submitsFin cfg r
  | _ => true

theorem drives_readBuffers (hpark : may.parksAlone ∨ r.parksBeside = true) (readBytes : Nat)
    {iov : Nat} (hpasses : may.stops ∨ passesOn cfg r iov = true) :
    Drives may fault r (r.readBuffers cfg readBytes iov).1 := by
  unfold readBuffers
  unfold passesOn readBatch at hpasses
  split
  next n hread =>
    rw [hread] at hpasses
    dsimp only at hpasses ⊢
    split
    · exact .refl r
    next hne =>
      refine (drives_submitReadBatch (r := r.takeTcpInput _) cfg hpark
        (hpasses.imp_right fun h => ?_)).after (sides_takeTcpInput r _)
      simpa [hne] using h
  next hread =>
    rw [hread] at hpasses
    exact drives_finishTcpRead cfg hpark hpasses
  · exact .refl r
  · exact .refl r
  next herror =>
    unfold failRelayFatal
    split
    · exact .refl r
    next hopen =>
      refine (Drives.refl r).handoff cfg (eq_false_of_ne_true hopen)
        (fun h => h.imp_right fun hclean => ?_) false
      exact absurd herror hclean.read

theorem noteBufferLimit_parksBeside (readBytes : Nat) :
    (r.noteBufferLimit cfg readBytes).parksBeside = r.parksBeside := by
  unfold noteBufferLimit
  split
  · exact armTcpReadable_parksBeside false
  · rfl

/-- The condition on one turn of `DrainTcpReadable`. -/
def passesOnTurn (r : Relay) (readBytes : Nat) : Bool :=
  passesOn cfg (r.noteBufferLimit cfg readBytes) (r.acquiredBuffers cfg readBytes)

theorem drives_drainTcpReadableTurn (hpark : may.parksAlone ∨ r.parksBeside = true)
    {readBytes : Nat} (hpasses : may.stops ∨ passesOnTurn cfg r readBytes = true) :
    Drives may fault r (r.drainTcpReadableTurn cfg readBytes).1 := by
  have hnote := r.sides_noteBufferLimit cfg readBytes
  unfold drainTcpReadableTurn
  split_ifs
  · exact .refl r
  · exact .of_sides hnote
  · refine (drives_readBuffers cfg (hpark.imp_right fun h => ?_) _ hpasses).after hnote
    rw [noteBufferLimit_parksBeside]
    exact h

theorem follows_accountQuicSend (r : Relay) (op : SendOperation) :
    Follows fault r (r.accountQuicSend op) := by
  simp only [accountQuicSend]
  split_ifs with hclosing
  · exact ⟨.inl rfl, fun h => ⟨h.read, h.write, h.fin⟩, fun _ => .inr hclosing,
      fun h => ⟨h.read, h.writes⟩⟩
  · exact .of_eq rfl
  · exact ⟨.inl rfl, fun h =>
      ⟨h.read, h.write, by simp [endSide, show r.quicSendFinCompleted = true from h.fin]⟩, .inl,
      fun h => ⟨h.read, h.writes⟩⟩

end Relay

/-! ### The stream callback and other producers -/

def QueueEvent.sent : QueueEvent → Option SendOperation
  | .quicSendComplete op => some op
  | _ => none

/-- The worker thread itself takes this step. -/
def Action.ofWorker : Action → Bool
  | .drainEvents => true
  | .epoll _ => true
  | .call _ => true
  | _ => false

namespace Worker

variable (cfg : Config) (w : Worker)

/-- Completions that are reported and that the worker has not taken up. -/
def reported : List SendOperation :=
  w.eventQueue.filterMap QueueEvent.sent ++ w.sendCompletionFallback

/-- A step that does nothing to the sends of the relay. -/
structure Spares (w w' : Worker) : Prop where
  calls : w'.calls = w.calls
  reported : w'.reported = w.reported
  side : ∃ ready, w'.relay.sendSide = { w.relay.sendSide with handoffReady := ready }

/-- What a step of another thread does to the sends of the relay: nothing, the
report of a completion, or the stop signal of a failed binding. -/
inductive Delivers (w w' : Worker) : Prop
  | spares (h : Spares w w')
  | sent (index : Nat) (op : SendOperation) (hop : w.relay.inFlight[index]? = some op)
      (hcalls : w'.calls = w.calls)
      (hreported : w'.reported.Perm (op :: w.reported))
      (hside : w'.relay.sendSide =
        { w.relay.sendSide with inFlight := w.relay.inFlight.eraseIdx index })
  | failed (h : Spares w.failManagedBinding w')

variable {w} {w' w'' : Worker}

namespace Spares

theorem of_side (hcalls : w'.calls = w.calls) (hreported : w'.reported = w.reported)
    (hside : w'.relay.sendSide = w.relay.sendSide) : Spares w w' :=
  ⟨hcalls, hreported, w.relay.io.handoffReady, hside⟩

theorem refl : Spares w w := of_side rfl rfl rfl

theorem trans (h : Spares w w') (h' : Spares w' w'') : Spares w w'' := by
  obtain ⟨ready, hside⟩ := h.side
  obtain ⟨ready', hside'⟩ := h'.side
  refine ⟨h'.calls.trans h.calls, h'.reported.trans h.reported, ready', ?_⟩
  rw [hside', hside]

end Spares

theorem enqueue_eq (e : QueueEvent) :
    w.enqueue cfg e = (true, { w with eventQueue := w.eventQueue ++ [e] }) ∨
      w.enqueue cfg e = (false, w) := by
  unfold enqueue
  split
  · exact .inl rfl
  · exact .inr rfl

variable {e : QueueEvent}

theorem spares_eventQueue (he : e.sent = none) :
    Spares w { w with eventQueue := w.eventQueue ++ [e] } :=
  .of_side rfl (by simp [reported, he]) rfl

theorem spares_enqueue (he : e.sent = none) : Spares w (w.enqueue cfg e).2 := by
  rcases enqueue_eq cfg (w := w) e with heq | heq
  · rw [heq]
    exact spares_eventQueue he
  · rw [heq]
    exact .refl

theorem spares_enqueueTerminal (e : TerminalEvent) : Spares w (w.enqueueTerminal cfg e) := by
  unfold enqueueTerminal
  rcases enqueue_eq cfg (w := w) (.terminal e) with heq | heq
  · rw [heq]
    exact spares_eventQueue rfl
  · rw [heq]
    exact .of_side rfl rfl rfl

theorem spares_sealBinding : Spares w { w with relay := w.relay.sealBinding } :=
  .of_side rfl rfl rfl

theorem spares_queueDeferredQuicReceive (view : ReceiveView) :
    Spares w (w.queueDeferredQuicReceive cfg view) := by
  unfold queueDeferredQuicReceive
  rcases enqueue_eq cfg (w := w) (.quicReceiveView view) with heq | heq
  · rw [heq]
    exact spares_eventQueue rfl
  · rw [heq]
    refine .of_side rfl rfl ?_
    show (w.relay.pushCallbackPending view).pauseQuicReceiveFromCallback.sendSide = w.relay.sendSide
    unfold Relay.pauseQuicReceiveFromCallback
    split
    · rfl
    · rw [Relay.sendSide_of_sides (Relay.sides_setQuicReceiveEnabled _ _)]
      rfl

theorem spares_onReceive (e : ReceiveEvent) (io : Io) : Spares w (w.onReceive cfg e io).2 := by
  unfold onReceive
  split
  · exact .refl
  split
  · exact spares_sealBinding.trans (spares_enqueueTerminal cfg .terminalHandoff)
  next heq =>
    obtain ⟨view, -, hqueue⟩ := Option.bind_eq_some_iff.mp heq
    have hanswering : Spares w { w with relay := w.relay.answering io } :=
      ⟨rfl, rfl, io.handoffReady, rfl⟩
    unfold queueQuicReceiveView at hqueue
    split at hqueue
    · cases hqueue
      exact hanswering.trans (spares_queueDeferredQuicReceive cfg view)
    · simp only [queuePrecommitQuicReceive] at hqueue
      split at hqueue
      · cases hqueue
      · cases hqueue
        exact hanswering.trans (.of_side rfl rfl rfl)

theorem spares_indicateReceive (e : ReceiveEvent) (io : Io) :
    Spares w (w.indicateReceive cfg e io) := by
  have hindicated :
      Spares w { w with relay := w.relay.emit (.receiveIndicated e.buffers.flatten e.fin) } :=
    .of_side rfl rfl (w.relay.sendSide_emit rfl)
  have hreceived := hindicated.trans (spares_onReceive cfg e io)
  unfold indicateReceive
  dsimp only
  split
  · exact hreceived.trans (.of_side rfl rfl (Relay.sendSide_emit _ rfl))
  · exact hreceived

theorem sendSide_failManagedBinding : w.failManagedBinding.relay.sendSide = w.relay.sendSide.stop :=
  w.relay.sendSide_setRelayStop

theorem delivers_onTerminalEvent (e : TerminalEvent) : Delivers w (w.onTerminalEvent cfg e) := by
  unfold onTerminalEvent
  split
  · exact .spares .refl
  cases e with
  | terminalHandoff => exact .spares (spares_sealBinding.trans (spares_enqueueTerminal cfg _))
  | quicShutdownComplete => exact .failed (spares_enqueueTerminal cfg _)

theorem delivers_sendComplete {index : Nat} {op : SendOperation}
    (hop : w.relay.inFlight[index]? = some op) :
    Delivers w (onSendComplete cfg
      { w with relay := { w.relay with inFlight := w.relay.inFlight.eraseIdx index } } op) := by
  unfold onSendComplete
  rcases enqueue_eq cfg
    (w := { w with relay := { w.relay with inFlight := w.relay.inFlight.eraseIdx index } })
    (.quicSendComplete op) with heq | heq
  · rw [heq]
    refine .sent index op hop rfl ?_ rfl
    simp only [reported, filterMap_append, append_assoc]
    exact perm_middle
  · rw [heq]
    exact .sent index op hop rfl perm_middle rfl

theorem Delivers.calls (h : Delivers w w') : w'.calls = w.calls := by
  cases h with
  | spares h | failed h => exact h.calls
  | sent _ _ _ hcalls => exact hcalls

/-- Every step that is not the worker's own. -/
theorem delivers_step {a : Action} (ha : a.ofWorker = false) (hstep : w.step cfg a = some w') :
    Delivers w w' := by
  cases a with
  | receive buffers fin io =>
    cases hstep
    exact .spares (spares_indicateReceive cfg _ io)
  | sendComplete index =>
    obtain ⟨op, hop, rfl⟩ := Option.map_eq_some_iff.mp hstep
    exact delivers_sendComplete cfg hop
  | idealSendBufferSize byteCount =>
    cases hstep
    split
    · exact .spares .refl
    · exact .spares (spares_enqueue cfg rfl)
  | terminalEvent | shutdownComplete =>
    cases hstep
    exact delivers_onTerminalEvent cfg _
  | enqueue event =>
    cases event <;> cases hstep
    all_goals exact .spares (spares_enqueue cfg rfl)
  | drainEvents | epoll event | call io => cases ha

end Worker
end TcpQuicProxy.LinuxRelay
