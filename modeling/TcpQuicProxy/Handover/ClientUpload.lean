import TcpQuicProxy.Handover.Joint
import TcpQuicProxy.Ingress.ClientEntry
import TcpQuicProxy.LinuxRelay.Compression

/-!
# What a client sends behind its request

The reactor reads the socket of a client up to the end of its request. When the open is accepted, a
worker is published that reads on from there: what it finds at the socket is what the reactor has
left, and it sends it in the order that its upload keeps.
-/

namespace TcpQuicProxy.LinuxRelay

open Machine List

variable {cfg : Config} {input : Bytes} {r r' : Relay}

/-- An open relay has read the beginning of its input. -/
def Relay.Supplied (input : Bytes) (r : Relay) : Prop :=
  r.readSide.closing = false → r.readSide.bytes ++ r.readSide.input = input

theorem Relay.Supplied.of_readSide (h : r.Supplied input)
    (hread : r'.closing = false → r'.readSide = r.readSide) : r'.Supplied input := by
  intro hopen
  have hside := hread hopen
  rw [hside] at hopen ⊢
  exact h hopen

/-- What a turn reads are the next bytes of the input. -/
theorem Relay.prefix_of_batch {n : Nat} {bytes : Bytes} {views : List Bytes}
    (h : r.readTurn cfg n = .batch bytes views) : bytes <+: r.tcpInput := by
  simp only [readTurn] at h
  split at h
  · cases h
  · split at h
    · split at h
      · cases h
      · cases h
        exact take_prefix _ _
    · split at h <;> cases h
    · cases h

theorem Relay.Supplied.turn (h : r.Supplied input) (n : Nat) :
    (r.drainTcpReadableTurn cfg n).1.Supplied input := by
  have hend := @turnEnd_drainTcpReadableTurn cfg r n
  generalize hturn : r.readTurn cfg n = turn at hend
  generalize r.drainTcpReadableTurn cfg n = p at hend
  cases hend with
  | idle hsame _ => exact h.of_readSide hsame
  | @batch bytes views _ _ =>
    obtain ⟨rest, hrest⟩ : bytes <+: r.readSide.input := prefix_of_batch hturn
    intro hopen
    rw [readSide_submitReadBatch, readSide_takeTcpInput, readSide_noteBufferLimit] at hopen ⊢
    rw [← h hopen, ← hrest]
    simp
  | finish _ hsame =>
    intro hopen
    have hside := hsame hopen
    rw [hside] at hopen ⊢
    exact h hopen

end TcpQuicProxy.LinuxRelay

namespace TcpQuicProxy.Handover

open Machine Platform Ingress LinuxRelay List

end TcpQuicProxy.Handover
