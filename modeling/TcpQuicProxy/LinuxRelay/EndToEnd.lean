import TcpQuicProxy.LinuxRelay.DownloadOrder
import TcpQuicProxy.LinuxRelay.HalfClose
import TcpQuicProxy.LinuxRelay.UploadOrder

/-!
# A stream between two relays

The near relay reads its socket and sends, the far one receives and writes.
-/

namespace TcpQuicProxy.LinuxRelay.Worker

open Machine List

/-- The bytes between the two sockets, oldest first. -/
def underway (near far : Worker) (onStream : Bytes) : Bytes :=
  far.relay.queuedBytes ++ far.waitingReceives.flatMap Prod.fst ++ onStream ++
    near.relay.pendingQuicSendRetries.flatMap SendOperation.payload

theorem bytesAppended_eq (log : List Effect) :
    bytesAppended log = (receivesAppended log).flatMap Prod.fst := by
  rw [receivesAppended, flatMap_assoc]
  refine congrArg log.flatMap (funext fun e => ?_)
  cases e <;> simp [Effect.appendedBytes, Effect.appendedPayloads]

/-- Without decompression no write is pending that the FIN could be behind. -/
theorem download_step_plain {cfg : Config} {w w' : Worker} {a : Action} (hs : w.Sound)
    (h : w.relay.DownloadInv false) (hstep : w.step cfg a = some w') :
    w'.relay.DownloadInv false := by
  refine DownloadInv.stepped cfg h id
    (stepped_step cfg hs (fun hfin _ _ _ _ hopen => .inl ?_) hstep)
  have hlive := h.live hopen hfin
  cases hsink : w.relay.sinkQuicReceives with
  | false => exact hlive.noWrites (.inl (hlive.mode hsink))
  | true => exact hlive.noWrites (.inr hsink)

/-- **No byte is lost, doubled or moved** between open relays without compression. -/
theorem bytes_conserved (cfg cfg' : Config) (reg reg' : Registration)
    (input input' onStream : Bytes) (as as' : List Action) (near far : Worker)
    (hplain : reg.compresses = false) (hplain' : reg'.decompresses = false)
    (hreads : Meets (step cfg) (readsUnparked · · = true) (start cfg reg input) as)
    (hlanes : Meets (step cfg') (lanesInOrder cfg' · · = true) (start cfg' reg' input') as')
    (hnear : run (step cfg) (start cfg reg input) as = some near)
    (hfar : run (step cfg') (start cfg' reg' input') as' = some far)
    (hopen : near.relay.closing = false) (hstop : .stop ∉ near.relay.log)
    (hsends : near.relay.enableQuicSends = true) (hon : far.relay.callbackSide.shutOff = false)
    (hsink : far.relay.sinkQuicReceives = false) (hfin : FinLast far.relay.log)
    (hstream : bytesSent near.relay.log =
      (receivesDelivered far.relay.log).flatMap Prod.fst ++ onStream) :
    bytesRead near.relay.log = bytesWritten far.relay.log ++ underway near far onStream := by
  have hup :=
    (invariant_of_meets
      (fun _ _ _ h hr hs => And.intro (sound_step cfg h.1 hs) (upload_step cfg h.1 h.2 hr hs))
    ⟨sound_start cfg reg input, upload_start cfg input hplain⟩ hreads hnear).2
  have horder := (invariant_of_meets (fun _ _ _ h hr hs => LanesInv.step h hr hs)
    (lanesInv_start cfg' reg' input') hlanes hfar).receiveOrder
  have hdown :=
    (invariant
      (fun _ _ _ h hs => And.intro (sound_step cfg' h.1 hs) (download_step_plain h.1 h.2 hs))
    ⟨sound_start cfg' reg' input', hplain' ▸ download_start cfg' reg' input'⟩ hfar).2
  rw [← (hup.live hopen hstop).whole hsends, hstream, ← horder.noneLost hon, flatMap_append,
    ← bytesAppended_eq,
    ← (hdown.live (Relay.open_of_accepting hon) hfin).plain hsink rfl]
  simp only [underway, append_assoc]

theorem drainedLane_conserved :
    ∃ near far, run (step {}) (start {} {} [0, 1, 2]) retriedUpload = some near ∧
    run (step smallQueue) (start smallQueue {} []) drainedLane = some far ∧
      bytesRead near.relay.log = bytesWritten far.relay.log ++ underway near far [] := by
  refine ⟨_, _, (Option.some_get (by decide +kernel)).symm,
    (Option.some_get (by decide +kernel)).symm, ?_⟩
  apply bytes_conserved {} smallQueue {} {} [0, 1, 2] [] [] retriedUpload drainedLane <;>
    first | exact (Option.some_get _).symm | decide +kernel

end TcpQuicProxy.LinuxRelay.Worker
