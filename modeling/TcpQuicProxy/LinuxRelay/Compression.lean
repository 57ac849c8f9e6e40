import TcpQuicProxy.Wire.StreamCoder
import TcpQuicProxy.LinuxRelay.SendSide
import TcpQuicProxy.LinuxRelay.UploadOrder

/-!
# What a compressing relay keeps back

The worker of a compressing relay runs beside its compressor, a streaming coder
whose answers are those of the relay's `Compress` and `Flush` calls. A batch
that was read is given to `Compress` view by view, and `Flush` follows only if
not a byte came out. So what is submitted decodes to what was read if the
compressor emits nothing or keeps nothing back, and only then.
-/

namespace TcpQuicProxy.LinuxRelay

open Machine Wire List Option Relay

/-! ### The compressor of a relay -/

section

variable (c : StreamCoder UInt8)

/-- The results of the `Compress` calls for the views of a batch, up to the
first that fails. -/
def compressAnswers : c.State → List Bytes → List (Option Bytes)
  | _, [] => []
  | s, view :: views =>
    match c.compress s view with
    | none => [none]
    | some p => some p.1 :: compressAnswers p.2 views

/-- What `BuildTcpToQuicViews` gets out of the compressor for a batch. -/
def compressBatch (s : c.State) (views : List Bytes) : Option (Bytes × c.State) :=
  (c.compressAll s views).bind fun p => if p.1 = [] then c.flush p.2 else some p

/-- What a turn of the read loop asks of the compressor: nothing, a batch of
bytes cut into views, or the end of its stream. -/
inductive ReadTurn where
  | idle
  | batch (bytes : Bytes) (views : List Bytes)
  | finish
  deriving DecidableEq

namespace ReadTurn

/-- The answers of the environment, those of the compressor filled in. -/
def answer (s : c.State) (io : Io) : ReadTurn → Io
  | .idle => io
  | .batch _ views =>
    { io with
      compress := compressAnswers c s views
      flush := (c.compressAll s views).bind fun p => (c.flush p.2).map Prod.fst }
  | .finish => { io with compress := [(c.finish s).map Prod.fst] }

/-- The compressor after the turn. -/
def after (s : c.State) : ReadTurn → c.State
  | .idle => s
  | .batch _ views => ((compressBatch c s views).map Prod.snd).getD s
  | .finish => ((c.finish s).map Prod.snd).getD s

end ReadTurn

theorem compressAll_compressAnswers (s : c.State) (views : List Bytes) :
    compressAll views (compressAnswers c s views) = (c.compressAll s views).map Prod.fst := by
  induction views generalizing s with
  | nil => rfl
  | cons view views ih =>
    unfold compressAnswers StreamCoder.compressAll
    cases c.compress s view with
    | none => rfl
    | some p =>
      simp only [compressAll, ih, bind_some]
      cases c.compressAll p.2 views <;> rfl

end

namespace Relay

variable (cfg : Config) (r : Relay)

/-- What the turn of `DrainTcpReadable` that starts now does, as far as the
compressor is concerned. -/
def readTurn (readBytes : Nat) : ReadTurn :=
  if readTickBudget cfg ≤ readBytes || r.acquiredBuffers cfg readBytes = 0 then .idle
  else
    match r.io.read with
    | .data n =>
      let bytes := r.tcpInput.take (min n (r.acquiredBuffers cfg readBytes * cfg.readChunkSize))
      if bytes = [] then .idle
      else .batch bytes (splitViews cfg.readChunkSize (r.acquiredBuffers cfg readBytes) bytes)
    | .eof => if r.tcpReadClosed || r.closing then .idle else .finish
    | _ => .idle

/-- What `SubmitTcpBatchToQuic` takes of a batch that was read. -/
def submittedBatch (views : List Bytes) : Option Bytes :=
  (r.buildTcpToQuicViews cfg views).bind fun sendViews =>
    if (r.submitTcpBatchToQuic cfg sendViews false).1 then some sendViews.flatten else none

/-- What a turn submits of the compressor's output. -/
def submitsTurn (c : StreamCoder UInt8) (s : c.State) (readBytes : Nat) : ReadTurn → Option Bytes
  | .idle => none
  | .batch bytes views =>
    ((r.noteBufferLimit cfg readBytes).takeTcpInput bytes).submittedBatch cfg views
  | .finish =>
    if (((r.noteBufferLimit cfg
      readBytes).closeTcpRead.armTcpReadable false).finishTcpToQuic cfg).1 then
      (c.finish s).map Prod.fst
    else none

end Relay

/-- The worker, the compressor of its relay and the compressed bytes that have
been submitted so far, in the order of their submission. -/
structure Compressing (c : StreamCoder UInt8) where
  worker : Worker
  compressor : c.State
  submitted : Bytes := []

namespace Compressing

variable {c : StreamCoder UInt8} (cfg : Config) (x : Compressing c)

/-- What the step asks of the compressor. -/
def turn : Action → ReadTurn
  | .call io =>
    match x.worker.calls with
    | .drainTcpReadableTurn readBytes :: _ =>
      if x.worker.relay.compresses then
        (x.worker.relay.answering io).readTurn cfg readBytes else .idle
    | _ => .idle
  | _ => .idle

/-- How much the read loop has read before its next turn. -/
def turnBytes : Nat :=
  match x.worker.calls with
  | .drainTcpReadableTurn readBytes :: _ => readBytes
  | _ => 0

def answer : Action → Action
  | .call io => .call ((x.turn cfg (.call io)).answer c x.compressor io)
  | a => a

/-- What the step submits. -/
def submits : Action → Option Bytes
  | .call io =>
    (x.worker.relay.answering ((x.turn cfg (.call io)).answer c x.compressor io)).submitsTurn cfg c
      x.compressor
      x.turnBytes (x.turn cfg (.call io))
  | _ => none

def step (a : Action) : Option (Compressing c) :=
  (x.worker.step cfg (x.answer cfg a)).map fun w =>
    { worker := w
      compressor := (x.turn cfg a).after c x.compressor
      submitted := x.submitted ++ (x.submits cfg a).getD [] }

def start (c : StreamCoder UInt8) (reg : Registration) (tcpInput : Bytes) : Compressing c where
  worker := Worker.start cfg reg tcpInput
  compressor := c.start

/-- A step that submits the batch that it reads, if it reads one. -/
def submitsBatch (a : Action) : Bool :=
  match x.turn cfg a with
  | .batch _ _ => (x.submits cfg a).isSome
  | _ => true

end Compressing

/-! ### A batch and its submission -/

/-- The data of a relay that a read can change or depends on. -/
structure ReadSide where
  closing : Bool
  tcpReadClosed : Bool
  compresses : Bool
  bytes : Bytes
  input : Bytes

namespace Relay

variable (cfg : Config) (r : Relay)

def readSide : ReadSide :=
  ⟨r.closing, r.tcpReadClosed, r.compresses, bytesRead r.log, r.tcpInput⟩

theorem readSide_emit {e : Effect} (he : e.readBytes = []) : (r.emit e).readSide = r.readSide := by
  have hbytes : bytesRead (r.log ++ [e]) = bytesRead r.log := by simp [bytesRead, he]
  simp only [readSide, emit, hbytes]
  rfl

@[simp] theorem readSide_setRelayStop : r.setRelayStop.readSide = r.readSide := r.readSide_emit rfl

@[simp] theorem readSide_armTcpReadable (enabled : Bool) :
    (r.armTcpReadable enabled).readSide = r.readSide := by
  rw [armTcpReadable_eq]
  rfl

@[simp] theorem readSide_pauseTcpRead : r.pauseTcpRead.readSide = r.readSide := by
  rw [pauseTcpRead_eq]
  rfl

@[simp] theorem readSide_resumeTcpRead : r.resumeTcpRead.readSide = r.readSide := by
  unfold resumeTcpRead
  split
  · rw [readSide_armTcpReadable]
    rfl
  · rfl

@[simp] theorem readSide_noteBufferLimit (readBytes : Nat) :
    (r.noteBufferLimit cfg readBytes).readSide = r.readSide := by
  unfold noteBufferLimit
  split
  · exact r.readSide_armTcpReadable false
  · rfl

@[simp] theorem readSide_trySubmitQuicSendOperation (op : SendOperation) :
    (r.trySubmitQuicSendOperation op).2.readSide = r.readSide := by
  unfold trySubmitQuicSendOperation
  split_ifs
  · rfl
  · rfl
  · exact readSide_emit _ rfl
  · exact r.readSide_pauseTcpRead
  · rfl

@[simp] theorem readSide_retryPendingQuicSends : r.retryPendingQuicSends.readSide = r.readSide := by
  unfold retryPendingQuicSends
  split
  · rfl
  · split
    · exact r.readSide_resumeTcpRead
    · next op rest _ =>
      have hsubmit :=
        readSide_trySubmitQuicSendOperation { r with pendingQuicSendRetries := rest } op
      dsimp only
      split_ifs
      · rw [readSide_setRelayStop, hsubmit]
        rfl
      · exact hsubmit
      · rw [readSide_resumeTcpRead, hsubmit]
        rfl

@[simp] theorem readSide_submitTcpBatchToQuic (views : List Bytes) :
    (r.submitTcpBatchToQuic cfg views false).2.readSide = r.readSide := by
  have hmark : (r.markQuicSendFin false).readSide = r.readSide := rfl
  simp only [submitTcpBatchToQuic, completeWithoutSend, Bool.false_eq_true, ↓reduceIte,
    Bool.not_false]
  split_ifs
  all_goals first
    | rfl
    | exact (readSide_trySubmitQuicSendOperation _ _).trans hmark

@[simp] theorem readSide_submitReadBatch (views : List Bytes) :
    (r.submitReadBatch cfg views).2.readSide = r.readSide := by
  unfold submitReadBatch
  split
  · exact r.readSide_setRelayStop
  · dsimp only
    split_ifs <;> simp

theorem readSide_takeTcpInput (bytes : Bytes) :
    (r.takeTcpInput bytes).readSide =
      { r.readSide with
        bytes := r.readSide.bytes ++ bytes
        input := r.readSide.input.drop bytes.length } := by
  have hbytes : bytesRead (r.log ++ [.tcpRead bytes]) = bytesRead r.log ++ bytes := by
    rw [bytesRead_append]
    simp [bytesRead, Effect.readBytes]
  simp only [readSide, takeTcpInput, emit, hbytes]
  rfl

variable {r}

/-- What leaves the upload direction alone leaves the read side alone, as long
as the relay stays open. -/
theorem readSide_keepsUpload {r' : Relay} (h : KeepsUpload r r') (hopen : r'.closing = false) :
    r'.readSide = r.readSide := by
  obtain ⟨es, hlog, hes⟩ := h.grown
  obtain ⟨hclosing, hside⟩ := h.kept hopen
  simp only [uploadSide, UploadSide.mk.injEq] at hside
  obtain ⟨-, hinput, hread, hcompress, -⟩ := hside
  simp only [readSide, hopen, hclosing, hread, hcompress, hlog, hinput, bytesRead_quiet hes]

/-! ### The turns of the read loop -/

theorem noteBufferLimit_tcpInput (readBytes : Nat) :
    (r.noteBufferLimit cfg readBytes).tcpInput = r.tcpInput := by
  unfold noteBufferLimit
  rw [armTcpReadable_eq]
  split <;> rfl

theorem readClosed_leads {may : Permits} {s s' : SendSide} (h : s.Leads may s')
    (hclosed : s.tcpReadClosed = true) :
    s'.tcpReadClosed = true := by
  induction h with
  | refl => exact hclosed
  | tail _ hmove ih =>
    cases hmove with
    | handoff graceful _ =>
      unfold SendSide.handoff SendSide.beginShutdown
      split_ifs <;> exact ih
    | eof => rfl
    | _ => exact ih

/-- The submission of a FIN leaves an open relay's read side alone. -/
theorem readSide_finishTcpToQuic (hopen : (r.finishTcpToQuic cfg).2.closing = false) :
    (r.finishTcpToQuic cfg).2.readSide = r.readSide := by
  have hsubmit (views : List Bytes)
      (hopen : (r.submitTcpBatchToQuic cfg views true).2.closing = false) :
      (r.submitTcpBatchToQuic cfg views true).2.readSide = r.readSide := by
    have hmark : (r.markQuicSendFin true).readSide = r.readSide := rfl
    have hquiet :=
      @readSide_keepsUpload (r.markQuicSendFin true) _ (upload_completeWithoutSend cfg _ true)
    revert hopen
    simp only [submitTcpBatchToQuic]
    split_ifs
    all_goals first
      | exact fun _ => rfl
      | exact fun _ => (readSide_trySubmitQuicSendOperation _ _).trans hmark
      | exact fun hopen => (hquiet hopen).trans hmark
  unfold finishTcpToQuic at hopen ⊢
  split_ifs at hopen ⊢
  · rfl
  · split at hopen
    · rfl
    · exact hsubmit _ hopen
  · exact hsubmit [] hopen

/-- At end of file the read side closes. -/
theorem readClosed_finishTcpRead : (r.finishTcpRead cfg).tcpReadClosed = true := by
  have hclose : (r.closeTcpRead.armTcpReadable false).sendSide.tcpReadClosed = true :=
    congrArg ReadSide.tcpReadClosed (readSide_armTcpReadable _ false)
  have hdrives :
      Drives unrestricted True _ ((r.closeTcpRead.armTcpReadable false).finishTcpToQuic cfg).2 :=
    drives_finishTcpToQuic cfg (.inl trivial)
  have hfinish := readClosed_leads hdrives.leads hclose
  unfold finishTcpRead
  dsimp only
  split_ifs with hdone
  · exact hdone
  · exact hfinish
  · exact hfinish

theorem readSide_finishTcpRead (hreading : r.tcpReadClosed = false)
    (hopen : (r.finishTcpRead cfg).closing = false) :
    (r.finishTcpRead cfg).readSide = { r.readSide with tcpReadClosed := true } := by
  have hclose : (r.closeTcpRead.armTcpReadable false).readSide =
      { r.readSide with tcpReadClosed := true } := by
    rw [readSide_armTcpReadable]
    exact congrArg (fun side => { side with tcpReadClosed := true })
      (r.readSide_emit (e := .tcpEof) rfl)
  have hfinish := @readSide_finishTcpToQuic cfg (r.closeTcpRead.armTcpReadable false)
  unfold finishTcpRead at hopen ⊢
  rw [if_neg (by simp [hreading])] at hopen ⊢
  dsimp only at hopen ⊢
  split_ifs at hopen ⊢
  · exact (hfinish hopen).trans hclose
  · exact (readSide_setRelayStop _).trans ((hfinish hopen).trans hclose)

/-- What a turn of the read loop comes to: nothing new was read, a batch was
read and submitted, or the input has ended. -/
inductive TurnEnd (r : Relay) (readBytes : Nat) : ReadTurn → Relay × Option Nat → Prop
  | idle {r' : Relay} {next : Option Nat} (hopen : r'.closing = false → r'.readSide = r.readSide)
      (hnext : next ≠ none → r'.readSide = r.readSide) : TurnEnd r readBytes .idle (r', next)
  | batch {bytes : Bytes} {views : List Bytes} {next : Option Nat}
      (hviews : views.flatten = bytes) :
      TurnEnd r readBytes (.batch bytes views)
        ((((r.noteBufferLimit cfg readBytes).takeTcpInput bytes).submitReadBatch cfg views).2, next)
  | finish {r' : Relay} (hended : r'.tcpReadClosed = true)
      (hopen : r'.closing = false → r'.readSide = { r.readSide with tcpReadClosed := true }) :
      TurnEnd r readBytes .finish (r', none)

theorem turnEnd_drainTcpReadableTurn (readBytes : Nat) :
    TurnEnd cfg r readBytes (r.readTurn cfg readBytes) (r.drainTcpReadableTurn cfg readBytes) := by
  have hnote := r.readSide_noteBufferLimit cfg readBytes
  have hclosing : (r.noteBufferLimit cfg readBytes).closing = r.closing :=
    congrArg ReadSide.closing hnote
  have hclosed : (r.noteBufferLimit cfg readBytes).tcpReadClosed = r.tcpReadClosed :=
    congrArg ReadSide.tcpReadClosed hnote
  unfold drainTcpReadableTurn readTurn
  by_cases hbudget : readTickBudget cfg ≤ readBytes
  · simp only [hbudget, decide_true, Bool.true_or, ↓reduceIte]
    exact .idle (fun _ => rfl) (fun _ => rfl)
  by_cases hiov : r.acquiredBuffers cfg readBytes = 0
  · simp only [hbudget, hiov, decide_true, decide_false, Bool.or_true, ↓reduceIte]
    exact .idle (fun _ => hnote) (fun _ => hnote)
  simp only [hbudget, hiov, decide_false, Bool.or_self, Bool.false_eq_true, ↓reduceIte, readBuffers,
    noteBufferLimit_io,
    noteBufferLimit_tcpInput]
  cases r.io.read with
  | data n =>
    dsimp only
    split
    · exact .idle (fun _ => hnote) (fun _ => hnote)
    · refine .batch (splitViews_flatten _ _ _ ?_)
      rw [length_take]
      omega
  | eof =>
    dsimp only
    split
    · next hdone =>
      rcases Bool.or_eq_true_iff.mp hdone with hread | hclose
      · have hsame : (r.noteBufferLimit cfg readBytes).finishTcpRead cfg =
            r.noteBufferLimit cfg readBytes := by
          unfold finishTcpRead
          rw [if_pos (hclosed.trans hread)]
        rw [hsame]
        exact .idle (fun _ => hnote) (fun _ => hnote)
      · refine .idle (fun hopen => ?_) (fun h => absurd rfl h)
        have hfollows : Follows True (r.noteBufferLimit cfg readBytes) _ :=
          follows_of_drives (drives_finishTcpRead cfg (.inl trivial) (.inl trivial)) (.inl trivial)
        have hstays := hfollows.closing (hclosing.trans hclose)
        cases hstays.symm.trans hopen
    next hreading =>
      refine .finish (readClosed_finishTcpRead cfg) fun hopen => ?_
      have hread : r.tcpReadClosed = false := (by simpa using hreading : _ ∧ _).1
      rw [readSide_finishTcpRead cfg (hclosed.trans hread) hopen, hnote]
  | eintr | eagain => exact .idle (fun _ => hnote) (fun _ => hnote)
  | error =>
    refine .idle (fun hopen => ?_) (fun h => absurd rfl h)
    exact (readSide_keepsUpload (upload_failRelayFatal cfg _) hopen).trans hnote

end Relay

/-! ### Where the turns of the read loop come from -/

def Call.isTurn : Call → Bool
  | .drainTcpReadableTurn _ => true
  | _ => false

theorem Call.not_turn_of_serves {c : Call} (h : c.serves = true) : c.isTurn = false := by
  cases c <;> first | rfl | cases h

namespace Worker

variable (cfg : Config) {w w' : Worker}

/-- The worker is in front of the same calls, and its relay is open or closed
as before. -/
structure SameCalls (w w' : Worker) : Prop where
  calls : w'.calls = w.calls
  closing : w'.relay.closing = w.relay.closing

theorem SameCalls.of_delivers (h : Delivers w w') : SameCalls w w' := by
  cases h with
  | spares h | failed h =>
    exact ⟨h.calls, h.side.elim fun _ hside => congrArg SendSide.closing hside⟩
  | sent _ _ _ hcalls _ hside => exact ⟨hcalls, congrArg SendSide.closing hside⟩

/-- Between two calls nothing happens to the calls of the worker; a new handler
does not start with a turn of the read loop. -/
theorem calls_step_of_not_call {a : Action} (h : w.step cfg a = some w') (ha : ∀ io, a ≠ .call io) :
    SameCalls w w' ∨ (w'.relay = w.relay ∧ ∀ d ∈ w'.calls, d.isTurn = false) := by
  cases a with
  | call io => exact absurd rfl (ha io)
  | drainEvents =>
    obtain ⟨-, rfl⟩ := guarded_iff.mp h
    have hstart : ∀ d ∈ drainEventsCalls, d.isTurn = false := by decide
    exact .inr ⟨rfl, hstart⟩
  | epoll event =>
    obtain ⟨-, rfl⟩ := guarded_iff.mp h
    have hwritable : ∀ d ∈ writableCalls, d.isTurn = false := by decide
    refine .inr ⟨rfl, fun d hd => ?_⟩
    rcases mem_processTcpEvents hd with ⟨rfl, -⟩ | hd | rfl
    · rfl
    · exact hwritable d hd
    · rfl
  | _ => exact .inl (.of_delivers (delivers_step cfg rfl h))

/-- A call that is not the read loop adds no turn of it. -/
theorem calls_execute {d : Call} {e : Call} (hloop : e ≠ .drainTcpReadable)
    (hturn : e.isTurn = false) (hd : d ∈ (w.execute cfg e).calls) :
    d ∈ w.calls ∨ d.isTurn = false := by
  obtain ⟨front, hfront, heq | ⟨-, n, heq⟩⟩ | ⟨hreads, -⟩ := execute_calls cfg w e
  · rw [heq] at hd
    exact (mem_append.mp hd).symm.imp_right fun hd => Call.not_turn_of_serves (hfront d hd)
  · rw [heq] at hd
    rcases mem_append.mp hd with hd | hd
    · exact .inr (Call.not_turn_of_serves (hfront d hd))
    · rcases mem_cons.mp hd with rfl | hd
      · exact .inr rfl
      · exact .inl hd
  · cases e with
    | drainTcpReadable => exact absurd rfl hloop
    | drainTcpReadableTurn n => cases hturn
    | _ => cases hreads

/-- The read loop runs only on a relay that is open for reading, and at the
front of the worker's calls. -/
structure ReadsOpen (w : Worker) : Prop where
  single : ∀ d ∈ w.calls.tail, d.isTurn = false
  reading : ∀ d ∈ w.calls, d.isTurn = true → w.relay.closing = false ∧ w.relay.tcpReadClosed = false

theorem ReadsOpen.of_no_turn (h : ∀ d ∈ w.calls, d.isTurn = false) : w.ReadsOpen :=
  ⟨fun d hd => h d (mem_of_mem_tail hd), fun d hd ht => absurd (ht.symm.trans (h d hd)) (by decide)⟩

/-- A turn in front of calls without one. -/
theorem ReadsOpen.of_turn {n : Nat} {rest : List Call}
    (hcalls : w.calls = .drainTcpReadableTurn n :: rest) (hrest : ∀ d ∈ rest, d.isTurn = false)
    (hopen : w.relay.closing = false ∧ w.relay.tcpReadClosed = false) :
    w.ReadsOpen := by
  refine ⟨?_, fun _ _ _ => hopen⟩
  rw [hcalls]
  exact hrest

theorem readsOpen_start (reg : Registration) (tcpInput : Bytes) :
    (start cfg reg tcpInput).ReadsOpen :=
  .of_no_turn (by simp [start, Call.isTurn])

theorem ReadsOpen.execute {e : Call} (hrest : ∀ d ∈ w.calls, d.isTurn = false)
    (hopen : e.isTurn = true → w.relay.closing = false ∧ w.relay.tcpReadClosed = false) :
    (w.execute cfg e).ReadsOpen := by
  by_cases hloop : e = .drainTcpReadable
  · subst hloop
    simp only [Worker.execute]
    cases henter : w.relay.drainTcpReadable.1 with
    | false => exact .of_no_turn hrest
    | true =>
      refine .of_turn rfl hrest ?_
      have hside : w.relay.drainTcpReadable.2 = w.relay ∧ w.relay.closing = false ∧
          w.relay.tcpReadClosed = false := by
        unfold drainTcpReadable at henter ⊢
        split_ifs at henter ⊢
        simp_all
      obtain ⟨hsame, hside⟩ := hside
      show w.relay.drainTcpReadable.2.closing = false ∧
        w.relay.drainTcpReadable.2.tcpReadClosed = false
      rw [hsame]
      exact hside
  by_cases hturn : e.isTurn = true
  · obtain ⟨n, rfl⟩ : ∃ n, e = .drainTcpReadableTurn n := by
      cases e <;> first | exact ⟨_, rfl⟩ | cases hturn
    have hside {r' : Relay} (h : r'.readSide.closing = w.relay.closing ∧
        r'.readSide.tcpReadClosed = w.relay.tcpReadClosed) :
        r'.closing = false ∧ r'.tcpReadClosed = false :=
          ⟨h.1.trans (hopen rfl).1, h.2.trans (hopen rfl).2⟩
    have hend := @Relay.turnEnd_drainTcpReadableTurn cfg w.relay n
    simp only [Worker.execute]
    generalize w.relay.readTurn cfg n = turn at hend
    generalize w.relay.drainTcpReadableTurn cfg n = p at hend ⊢
    cases hend with
    | @idle r' next _ hnext =>
      cases next with
      | none => exact .of_no_turn hrest
      | some m =>
        refine .of_turn rfl hrest (hside ?_)
        rw [hnext (by simp)]
        exact ⟨rfl, rfl⟩
    | @batch bytes views next _ =>
      cases next with
      | none => exact .of_no_turn hrest
      | some m =>
        refine .of_turn rfl hrest (hside ?_)
        rw [readSide_submitReadBatch, readSide_takeTcpInput, readSide_noteBufferLimit]
        exact ⟨rfl, rfl⟩
    | finish _ => exact .of_no_turn hrest
  · have hturn : e.isTurn = false := by simpa using hturn
    refine .of_no_turn fun d hd => ?_
    rcases calls_execute cfg hloop hturn hd with hd | hd
    · exact hrest d hd
    · exact hd

/-- Only the turns of the read loop read. -/
theorem readSide_execute (hs : w.relay.Sound) {e : Call} (hturn : e.isTurn = false)
    (hopen : (w.execute cfg e).relay.closing = false) :
    (w.execute cfg e).relay.readSide = w.relay.readSide := by
  by_cases hretry : e = .retryPendingQuicSends
  · subst hretry
    exact w.relay.readSide_retryPendingQuicSends
  · refine readSide_keepsUpload (keepsUpload_execute cfg hs ?_ hretry) hopen
    rintro n rfl
    cases hturn

end Worker

/-! ### The relay and its compressor -/

theorem readTurn_answer (c : StreamCoder UInt8) (cfg : Config) (r : Relay) (io : Io) (s : c.State)
    (t : ReadTurn) (n : Nat) :
    (r.answering (t.answer c s io)).readTurn cfg n = (r.answering io).readTurn cfg n := by
  cases t <;> rfl

theorem bufferOutput_flatten (cfg : Config) {r : Relay} {out : Bytes} {views : List Bytes}
    (h : r.bufferOutput cfg out = some views) : views.flatten = out := by
  unfold bufferOutput at h
  dsimp only at h
  split at h
  · next heq =>
    cases h
    exact heq
  · cases h

/-- The bytes of a submitted batch are what the compressor made of it. -/
theorem compressBatch_of_submitted (c : StreamCoder UInt8) (cfg : Config) {r : Relay} {s : c.State}
    {io : Io} {bytes out : Bytes} {views : List Bytes}
    (hio : r.io = (ReadTurn.batch bytes views).answer c s io) (hcompress : r.compresses = true)
    (h : r.submittedBatch cfg views = some out) :
    ∃ s', compressBatch c s views = some (out, s') := by
  obtain ⟨sendViews, hbuild, hsubmit⟩ := bind_eq_some_iff.mp h
  split at hsubmit
  · cases hsubmit
    simp only [buildTcpToQuicViews, hcompress, hio, ReadTurn.answer, compressAll_compressAnswers,
      Bool.not_true,
      Bool.false_eq_true, ↓reduceIte] at hbuild
    unfold compressBatch
    cases hall : c.compressAll s views with
    | none => simp [hall] at hbuild
    | some p =>
      simp only [hall, map_some, bind_eq_bind, bind_some] at hbuild ⊢
      split_ifs at hbuild ⊢ with hempty
      · cases hflush : c.flush p.2 with
        | none => simp [hflush] at hbuild
        | some q =>
          simp only [hflush, map_some, bind_some] at hbuild
          exact ⟨q.2, by rw [bufferOutput_flatten cfg hbuild]⟩
      · exact ⟨p.2, by rw [bufferOutput_flatten cfg hbuild]⟩
  · cases hsubmit

/-- While a relay reads, its compressor has taken what was read and has emitted
what was submitted. -/
def Relay.Feeds {c : StreamCoder UInt8} (r : Relay) (s : c.State) (submitted : Bytes) : Prop :=
  r.closing = false → r.tcpReadClosed = false →
    r.compresses = true ∧ c.Reaches s (bytesRead r.log) submitted

section

variable {c : StreamCoder UInt8} (cfg : Config) {r r' : Relay} {s s' : c.State} {submitted : Bytes}

theorem Relay.Feeds.quiet (h : r.Feeds s submitted)
    (hread : r'.closing = false → r'.readSide = r.readSide) :
    r'.Feeds s submitted := by
  intro hopen hreading
  have hside := hread hopen
  have hbytes : bytesRead r'.log = bytesRead r.log := congrArg ReadSide.bytes hside
  have hcompress : r'.compresses = r.compresses := congrArg ReadSide.compresses hside
  rw [hbytes, hcompress]
  exact h ((congrArg ReadSide.closing hside).symm.trans hopen)
    ((congrArg ReadSide.tcpReadClosed hside).symm.trans hreading)

theorem reaches_compressBatch {taken emitted out : Bytes} {views : List Bytes}
    (h : c.Reaches s taken emitted) (hbatch : compressBatch c s views = some (out, s')) :
    c.Reaches s' (taken ++ views.flatten) (emitted ++ out) := by
  obtain ⟨p, hall, hrest⟩ := bind_eq_some_iff.mp hbatch
  have hreach := h.compressAll hall
  split at hrest
  · next hempty =>
    rw [hempty, append_nil] at hreach
    exact hreach.flush hrest
  · cases hrest
    exact hreach

/-- The relay when a turn has taken its input. -/
theorem Relay.readSide_taken (r : Relay) (io : Io) (n : Nat) (bytes : Bytes) :
    (((r.answering io).noteBufferLimit cfg n).takeTcpInput bytes).readSide
      = { r.readSide with
          bytes := bytesRead r.log ++ bytes
          input := r.tcpInput.drop bytes.length } := by
  rw [readSide_takeTcpInput, readSide_noteBufferLimit]
  rfl

theorem compressBatch_of_submitsTurn {io : Io} {n : Nat} {bytes out : Bytes} {views : List Bytes}
    (hcompress : r.compresses = true)
    (hout : (r.answering ((ReadTurn.batch bytes views).answer c s io)).submitsTurn cfg c s n
      (.batch bytes views) = some out) :
    ∃ s', compressBatch c s views = some (out, s') := by
  have hio :
    (((r.answering ((ReadTurn.batch bytes views).answer c s io)).noteBufferLimit cfg
    n).takeTcpInput bytes).io =
      (ReadTurn.batch bytes views).answer c s io := noteBufferLimit_io cfg _ n
  exact compressBatch_of_submitted c cfg hio
    ((congrArg ReadSide.compresses (r.readSide_taken cfg _ n bytes)).trans hcompress)
    hout

/-- A turn of the read loop whose batch, if it reads one, is submitted. -/
theorem Relay.Feeds.turn (h : r.Feeds s submitted) (hopen : r.closing = false)
    (hreading : r.tcpReadClosed = false) {io : Io} {n : Nat} {t : ReadTurn} {p : Relay × Option Nat}
    (hend : TurnEnd cfg (r.answering (t.answer c s io)) n t p)
    (hok : ∀ bytes views, t = .batch bytes views →
      ((r.answering (t.answer c s io)).submitsTurn cfg c s n t).isSome = true) :
    p.1.Feeds (t.after c s)
    (submitted ++ ((r.answering (t.answer c s io)).submitsTurn cfg c s n t).getD []) := by
  obtain ⟨hcompress, hreaches⟩ := h hopen hreading
  cases hend with
  | idle hsame _ =>
    simp only [submitsTurn, getD_none, append_nil]
    exact h.quiet hsame
  | @batch bytes views _ hviews =>
    intro _ _
    obtain ⟨out, hout⟩ := isSome_iff_exists.mp (hok bytes views rfl)
    obtain ⟨s', hbatch⟩ := compressBatch_of_submitsTurn cfg hcompress hout
    have hside := r.readSide_taken cfg ((ReadTurn.batch bytes views).answer c s io) n bytes
    have hread :=
      readSide_submitReadBatch cfg
        (((r.answering ((ReadTurn.batch bytes views).answer c s io)).noteBufferLimit
      cfg n).takeTcpInput bytes) views
    refine ⟨(congrArg ReadSide.compresses (hread.trans hside)).trans hcompress, ?_⟩
    rw [show bytesRead _ = bytesRead r.log ++ bytes
      from congrArg ReadSide.bytes (hread.trans hside), hout, ← hviews]
    simpa [ReadTurn.after, hbatch] using reaches_compressBatch hreaches hbatch
  | finish hended => exact fun _ hreading' => absurd (hended.symm.trans hreading') (by decide)

end

namespace Compressing

variable {c : StreamCoder UInt8} (cfg : Config) {x y : Compressing c}

structure Feeds (x : Compressing c) : Prop where
  sound : x.worker.Sound
  reads : x.worker.ReadsOpen
  feeds : x.worker.relay.Feeds x.compressor x.submitted

section

variable (h : x.Feeds)
include h

theorem feeds_step_of_not_call {a : Action} (ha : ∀ io, a ≠ .call io)
    (hstep : x.step cfg a = some y) :
    y.Feeds := by
  have hanswer : x.answer cfg a = a := by
    cases a <;> first | rfl | exact absurd rfl (ha _)
  have hidle : x.turn cfg a = .idle ∧ x.submits cfg a = none := by
    cases a <;> first | exact ⟨rfl, rfl⟩ | exact absurd rfl (ha _)
  obtain ⟨w, hw, rfl⟩ := map_eq_some_iff.mp hstep
  rw [hanswer] at hw
  have hsound := Worker.sound_step cfg h.sound hw
  have hread := readSide_keepsUpload (Worker.upload_step_of_not_call cfg hw ha)
  have hreads : w.ReadsOpen := by
    rcases Worker.calls_step_of_not_call cfg hw ha with hsame | ⟨-, hnone⟩
    · refine ⟨hsame.calls ▸ h.reads.single, fun d hd ht => ?_⟩
      obtain ⟨hopen, hreading⟩ := h.reads.reading d (hsame.calls ▸ hd) ht
      have hopen' := hsame.closing.trans hopen
      exact ⟨hopen', (congrArg ReadSide.tcpReadClosed (hread hopen')).trans hreading⟩
    · exact .of_no_turn hnone
  simp only [hidle.1, hidle.2, ReadTurn.after, getD_none, append_nil]
  exact ⟨hsound, hreads, h.feeds.quiet hread⟩

/-- What the worker has to do behind its next call has no turn of the read loop. -/
theorem Feeds.rest {e : Call} {rest : List Call} (hcalls : x.worker.calls = e :: rest) :
    ∀ d ∈ rest, d.isTurn = false := by
  have hsingle := h.reads.single
  rwa [hcalls] at hsingle

/-- A call of the worker that is not a turn of the read loop. -/
theorem feeds_call {io : Io} {e : Call} {rest : List Call} (hcalls : x.worker.calls = e :: rest)
    (hturn : e.isTurn = false) (hstep : x.step cfg (.call io) = some y) : y.Feeds := by
  have hidle : x.turn cfg (.call io) = .idle := by
    simp only [turn, hcalls]
    cases e <;> first | rfl | cases hturn
  obtain ⟨w, hw, rfl⟩ := map_eq_some_iff.mp hstep
  simp only [answer, hidle, ReadTurn.answer] at hw
  have hsound := Worker.sound_step cfg h.sound hw
  obtain ⟨e', rest', hcalls', rfl⟩ := Worker.step_call cfg hw
  obtain ⟨rfl, rfl⟩ := cons.inj (hcalls.symm.trans hcalls')
  have hio : (x.worker.relay.answering io).Sound :=
    h.sound.relay.keeps (keeps_answering _ io).download
  have hfeeds : (x.worker.relay.answering io).Feeds x.compressor x.submitted :=
    h.feeds.quiet fun _ => rfl
  simp only [submits, hidle, submitsTurn, ReadTurn.after, getD_none, append_nil]
  exact ⟨hsound, .execute cfg (h.rest hcalls) fun ht => absurd (ht.symm.trans hturn) (by decide),
    hfeeds.quiet (Worker.readSide_execute cfg hio hturn)⟩

/-- A turn of the read loop, executed with the answers of the compressor. -/
theorem turnEnd_step {io : Io} {n : Nat} {rest : List Call}
    (hcalls : x.worker.calls = .drainTcpReadableTurn n :: rest)
    (hstep : x.step cfg (.call io) = some y) :
    ∃ next, Relay.TurnEnd cfg
      (x.worker.relay.answering ((x.turn cfg (.call io)).answer c x.compressor io)) n
        (x.turn cfg (.call io)) (y.worker.relay, next) := by
  obtain ⟨hopen, hreading⟩ := h.reads.reading (.drainTcpReadableTurn n) (by simp [hcalls]) rfl
  have hturn : x.turn cfg (.call io) = (x.worker.relay.answering io).readTurn cfg n := by
    simp only [turn, hcalls, (h.feeds hopen hreading).1, ↓reduceIte]
  have hend := @Relay.turnEnd_drainTcpReadableTurn cfg
    (x.worker.relay.answering ((x.turn cfg (.call io)).answer c x.compressor io)) n
  rw [readTurn_answer, ← hturn] at hend
  obtain ⟨w, hw, rfl⟩ := map_eq_some_iff.mp hstep
  obtain ⟨e, rest', hcalls', rfl⟩ := Worker.step_call cfg hw
  obtain ⟨rfl, rfl⟩ := cons.inj (hcalls.symm.trans hcalls')
  exact ⟨_, hend⟩

theorem readsOpen_turn {io : Io} {n : Nat} {rest : List Call}
    (hcalls : x.worker.calls = .drainTcpReadableTurn n :: rest)
    (hstep : x.step cfg (.call io) = some y) :
    y.worker.ReadsOpen := by
  have hopen := h.reads.reading (.drainTcpReadableTurn n) (by simp [hcalls]) rfl
  obtain ⟨w, hw, rfl⟩ := map_eq_some_iff.mp hstep
  obtain ⟨e, rest', hcalls', rfl⟩ := Worker.step_call cfg hw
  obtain ⟨rfl, rfl⟩ := cons.inj (hcalls.symm.trans hcalls')
  dsimp only
  apply Worker.ReadsOpen.execute cfg
  · exact h.rest hcalls
  · exact fun _ => hopen

theorem feeds_turn {io : Io} {n : Nat} {rest : List Call}
    (hcalls : x.worker.calls = .drainTcpReadableTurn n :: rest)
    (hok : x.submitsBatch cfg (.call io) = true) (hstep : x.step cfg (.call io) = some y) :
    y.Feeds := by
  obtain ⟨hopen, hreading⟩ := h.reads.reading (.drainTcpReadableTurn n) (by simp [hcalls]) rfl
  have hbytes : x.turnBytes = n := by simp only [turnBytes, hcalls]
  have hreads := readsOpen_turn cfg h hcalls hstep
  obtain ⟨next, hend⟩ := turnEnd_step cfg h hcalls hstep
  obtain ⟨w, hw, rfl⟩ := map_eq_some_iff.mp hstep
  simp only [submits, hbytes]
  refine ⟨Worker.sound_step cfg h.sound hw, hreads, h.feeds.turn cfg hopen hreading hend ?_⟩
  intro bytes views hbatch
  simpa only [submitsBatch, submits, hbytes, hbatch] using hok

theorem feeds_step {a : Action} (hok : x.submitsBatch cfg a = true)
    (hstep : x.step cfg a = some y) :
    y.Feeds := by
  by_cases ha : ∃ io, a = .call io
  · obtain ⟨io, rfl⟩ := ha
    obtain ⟨w, hw, -⟩ := map_eq_some_iff.mp hstep
    obtain ⟨e, rest, hcalls, -⟩ := Worker.step_call cfg hw
    cases hturn : e.isTurn with
    | false => exact feeds_call cfg h hcalls hturn hstep
    | true =>
      obtain ⟨n, rfl⟩ : ∃ n, e = .drainTcpReadableTurn n := by
        cases e <;> first | exact ⟨_, rfl⟩ | cases hturn
      exact feeds_turn cfg h hcalls hok hstep
  · exact feeds_step_of_not_call cfg h (by simpa using ha) hstep

end

theorem feeds_start {reg : Registration} (hreg : reg.compresses = true) (tcpInput : Bytes) :
    (start cfg c reg tcpInput).Feeds := by
  refine ⟨Worker.sound_start cfg reg tcpInput, Worker.readsOpen_start cfg reg tcpInput,
    fun _ _ => ⟨hreg, ?_⟩⟩
  exact .start

/-- A step that reads a batch is a turn of the read loop. -/
theorem call_of_batch {a : Action} {bytes : Bytes} {views : List Bytes}
    (h : x.turn cfg a = .batch bytes views) :
    ∃ io n rest, a = .call io ∧ x.worker.calls = .drainTcpReadableTurn n :: rest := by
  unfold turn at h
  split at h
  · split at h
    · next hcalls => exact ⟨_, _, _, rfl, hcalls⟩
    · cases h
  · cases h

/-- A batch leaves the relay open for reading. -/
theorem open_of_batch {a : Action} {bytes : Bytes} {views : List Bytes} (h : x.Feeds)
    (hbatch : x.turn cfg a = .batch bytes views) (hstep : x.step cfg a = some y) :
    y.worker.relay.closing = false ∧ y.worker.relay.tcpReadClosed = false := by
  obtain ⟨io, n, rest, rfl, hcalls⟩ := call_of_batch cfg hbatch
  obtain ⟨hopen, hreading⟩ := h.reads.reading (.drainTcpReadableTurn n) (by simp [hcalls]) rfl
  obtain ⟨next, hend⟩ := turnEnd_step cfg h hcalls hstep
  rw [hbatch] at hend
  generalize y.worker.relay = r at hend
  cases hend with
  | batch _ =>
    have hread :=
      readSide_submitReadBatch cfg
        (((x.worker.relay.answering ((ReadTurn.batch bytes views).answer c
      x.compressor io)).noteBufferLimit cfg n).takeTcpInput bytes) views
    rw [readSide_taken] at hread
    exact ⟨(congrArg ReadSide.closing hread).trans hopen,
      (congrArg ReadSide.tcpReadClosed hread).trans hreading⟩

/-- The compressor behind a submitted batch holds nothing exactly if it was
flushed or had nothing left. -/
theorem held_of_compressBatch {decompress : Bytes → Bytes} (hlawful : c.Lawful decompress)
    {s s' : c.State} {out : Bytes} {views : List Bytes}
    (h : compressBatch c s views = some (out, s')) :
    c.held s' = [] ↔ ∀ out s', c.compressAll s views = some (out, s') →
      out = [] ∨ c.held s' = [] := by
  obtain ⟨⟨emitted, t⟩, hall, hrest⟩ := bind_eq_some_iff.mp h
  simp only [hall, some.injEq, Prod.mk.injEq]
  split at hrest
  · next hempty =>
    refine ⟨?_, fun _ => hlawful.flushed hrest⟩
    rintro - _ _ ⟨rfl, rfl⟩
    exact .inl hempty
  · next hsome =>
    cases hrest
    constructor
    · rintro hheld _ _ ⟨rfl, rfl⟩
      exact .inr hheld
    · intro hany
      exact (hany _ _ ⟨rfl, rfl⟩).resolve_left hsome

/-- **Compressed data that is not withheld.** Right after a batch of a compressing
relay all of whose batches were submitted, what was submitted decodes to all that
was read exactly if the `Compress` calls for the batch emitted nothing, so that a
flush followed, or kept nothing back. -/
theorem nothing_withheld_iff (decompress : Bytes → Bytes) (hlawful : c.Lawful decompress)
    (reg : Registration) (tcpInput : Bytes) (as : List Action) (a : Action) (bytes : Bytes)
    (views : List Bytes) (hreg : reg.compresses = true)
    (hok : Meets (step cfg) (fun (x : Compressing c) a => x.submitsBatch cfg a = true)
      (start cfg c reg tcpInput) (as ++ [a]))
    (hrun : run (step cfg) (start cfg c reg tcpInput) as = some x) (hstep : x.step cfg a = some y)
    (hbatch : x.turn cfg a = .batch bytes views) :
    decompress y.submitted = bytesRead y.worker.relay.log ↔
      ∀ out s, c.compressAll x.compressor views = some (out, s) → out = [] ∨ c.held s = [] := by
  have hsubmits : x.submitsBatch cfg a = true := (hok.right hrun).1
  have hfeeds : x.Feeds :=
    invariant_of_meets (fun _ _ _ h ho hs => feeds_step cfg h ho hs) (feeds_start cfg hreg tcpInput)
    hok.left hrun
  obtain ⟨hopen, hreading⟩ := open_of_batch cfg hfeeds hbatch hstep
  obtain ⟨-, hreaches⟩ := (feeds_step cfg hfeeds hsubmits hstep).feeds hopen hreading
  rw [hlawful.decoded_eq_iff hreaches]
  obtain ⟨io, n, rest, rfl, hcalls⟩ := call_of_batch cfg hbatch
  obtain ⟨hopen, hreading⟩ := hfeeds.reads.reading (.drainTcpReadableTurn n) (by simp [hcalls]) rfl
  simp only [submitsBatch, submits, hbatch] at hsubmits
  obtain ⟨out, hout⟩ := isSome_iff_exists.mp hsubmits
  obtain ⟨s', hs'⟩ := compressBatch_of_submitsTurn cfg (hfeeds.feeds hopen hreading).1 hout
  obtain ⟨w, -, rfl⟩ := map_eq_some_iff.mp hstep
  simp only [hbatch, ReadTurn.after, hs', map_some, getD_some]
  exact held_of_compressBatch hlawful hs'

end Compressing

/-- A coder that emits its input and keeps the last byte back until it is
flushed. -/
def lastHeld : StreamCoder UInt8 where
  State := Bytes
  start := []
  held := id
  compress held bytes := some ((held ++ bytes).dropLast, ((held ++ bytes).getLast?).toList)
  flush held := some (held, [])
  finish held := some (held, [])

theorem lastHeld_lawful : lastHeld.Lawful id := by
  refine ⟨fun {s taken emitted} h => ?_, fun hflush => ?_⟩
  · induction h with
    | start => rfl
    | @compress s s' taken emitted input out _ hs ih =>
      cases hs
      have hlast (l : Bytes) : l.dropLast ++ l.getLast?.toList = l := by
        cases l using reverseRecOn with
        | nil => rfl
        | append_singleton l a => simp
      rw [← ih, append_assoc, id, id, append_assoc]
      exact congrArg (emitted ++ ·) (hlast (lastHeld.held s ++ input))
    | flush _ hs ih =>
      cases hs
      exact (append_nil _).trans ih
  · obtain ⟨-, rfl⟩ := Prod.mk.inj (some.inj hflush)
    rfl

namespace Compressing

def zstdRelay : Registration := { compressor := true, compressAlgo := .zstd }

/-- The relay is registered and finds its socket readable. -/
def beforeRead : List Action := Worker.registration ++ [.epoll { readable := true }, .call {}]

/-- One byte is read, the coder emits nothing, and the worker flushes it. -/
def readOne : Action := .call { read := .data 1, outputBuffers := 1 }

theorem readOne_submitted :
    ∃ x y : Compressing lastHeld,
      run (step {}) (start {} lastHeld zstdRelay [1, 2]) beforeRead = some x ∧
      x.step {} readOne = some y ∧ y.submitted = bytesRead y.worker.relay.log := by
  have htrace : (run (step {}) (start {} lastHeld zstdRelay [1, 2]) beforeRead).map
      (fun x => ((x.compressor : Bytes), x.turn {} readOne, (x.step {} readOne).isSome))
        = some ([], .batch [1] [[1]], true) := by decide
  obtain ⟨x, hx, hobs⟩ := map_eq_some_iff.mp htrace
  obtain ⟨hcompressor, hobs⟩ := Prod.mk.inj hobs
  obtain ⟨hturn, hstep⟩ := Prod.mk.inj hobs
  obtain ⟨y, hy⟩ := isSome_iff_exists.mp hstep
  refine ⟨x, y, hx, hy,
    (nothing_withheld_iff {} id lastHeld_lawful zstdRelay [1, 2] beforeRead readOne [1] [[1]] rfl
    (by decide) hx hy hturn).mpr fun out s hout => ?_⟩
  rw [hcompressor] at hout
  exact .inl (Prod.mk.inj (some.inj hout)).1.symm

/-- Two bytes are read, and the second stays in the coder. -/
def readTwo : Action := .call { read := .data 2, outputBuffers := 1 }

theorem readTwo_withheld :
    lastHeld.Lawful id ∧ ∃ y : Compressing lastHeld,
      Meets (step {}) (fun (x : Compressing lastHeld) a => x.submitsBatch {} a = true)
        (start {} lastHeld zstdRelay [1, 2]) (beforeRead ++ [readTwo]) ∧
      run (step {}) (start {} lastHeld zstdRelay [1, 2]) (beforeRead ++ [readTwo]) = some y ∧
      y.submitted = [1] ∧ bytesRead y.worker.relay.log = [1, 2] := by
  have htrace : (run (step {}) (start {} lastHeld zstdRelay [1, 2]) (beforeRead ++ [readTwo])).map
      (fun x => (x.submitted, bytesRead x.worker.relay.log)) = some ([1], [1, 2]) := by decide
  obtain ⟨y, hy, hobs⟩ := map_eq_some_iff.mp htrace
  exact ⟨lastHeld_lawful, y, by decide, hy, (Prod.mk.inj hobs).1, (Prod.mk.inj hobs).2⟩

end Compressing
end TcpQuicProxy.LinuxRelay
