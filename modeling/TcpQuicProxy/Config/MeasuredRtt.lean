import Mathlib.Data.List.Basic

/-!
# The smoothed round-trip time

Each connection is sampled in microseconds; the process keeps one exponential average in
milliseconds, in 32-bit arithmetic that truncates.
-/

namespace TcpQuicProxy.Config

open List

/-- The round-trip times of `QUIC_STATISTICS_V2`. -/
structure Statistics where
  rtt : UInt32
  minRtt : UInt32
  deriving DecidableEq

/-- The round-trip time of `g_Runtime.Obs`. -/
structure Observations where
  measuredRttMs : UInt32 := 0
  hasRtt : Bool := false
  sampleCount : Nat := 0
  deriving DecidableEq

def updateEmaU32 (current sample : UInt32) (hasValue : Bool) : UInt32 :=
  if !hasValue || current == 0 then sample else (current * 7 + sample) / 8

def Observations.recordMeasuredRtt (o : Observations) (rttMs : UInt32) : Observations :=
  if rttMs = 0 then o
  else
    { measuredRttMs := updateEmaU32 o.measuredRttMs rttMs o.hasRtt
      hasRtt := true
      sampleCount := o.sampleCount + 1 }

/-- What `TqSampleConnectionRtt` records of the statistics. -/
def Statistics.sample (stats : Statistics) : Option UInt32 :=
  let sampleUs := if 0 < stats.minRtt then stats.minRtt else stats.rtt
  if sampleUs = 0 then none else some (max 1 (sampleUs / 1000))

/-- `TqSampleConnectionRtt`, with the statistics of the connection if it is valid and gives them. -/
def Observations.sampleConnectionRtt (o : Observations) (stats : Option Statistics) :
    Observations :=
  match stats.bind Statistics.sample with
  | some rttMs => o.recordMeasuredRtt rttMs
  | none => o

/-- The samples that a sequence of measurements records. -/
def samples (measurements : List (Option Statistics)) : List UInt32 :=
  measurements.filterMap (·.bind Statistics.sample)

/-- A sample in milliseconds: at least one, and a thousandth of a 32-bit number. -/
def IsSample (ms : UInt32) : Prop := 1 ≤ ms.toNat ∧ ms.toNat ≤ 4294967

theorem isSample_of_mem {measurements : List (Option Statistics)} {ms : UInt32}
    (h : ms ∈ samples measurements) : IsSample ms := by
  obtain ⟨stats, -, hstats⟩ := mem_filterMap.mp h
  obtain ⟨stats, -, hsample⟩ := Option.bind_eq_some_iff.mp hstats
  unfold Statistics.sample at hsample
  generalize (if 0 < stats.minRtt then stats.minRtt else stats.rtt) = us at hsample
  rw [Option.ite_none_left_eq_some] at hsample
  cases hsample.2
  have hlt := us.toNat_lt
  have hdiv : (us / 1000).toNat = us.toNat / 1000 := UInt32.toNat_div ..
  change IsSample (if 1 ≤ us / 1000 then us / 1000 else 1)
  split
  next hle =>
    rw [UInt32.le_iff_toNat_le, hdiv] at hle
    exact ⟨hdiv ▸ hle, by omega⟩
  next => exact ⟨by decide, by decide⟩

theorem foldl_sampleConnectionRtt (measurements : List (Option Statistics)) (o : Observations) :
    measurements.foldl Observations.sampleConnectionRtt o =
      (samples measurements).foldl Observations.recordMeasuredRtt o := by
  induction measurements generalizing o with
  | nil => rfl
  | cons stats rest ih =>
    rw [foldl_cons, ih, Observations.sampleConnectionRtt]
    unfold samples
    rw [filterMap_cons]
    cases stats.bind Statistics.sample <;> rfl

namespace Observations

variable {o : Observations} {ms : UInt32}

/-- The sums stay below `2 ^ 32`. -/
theorem toNat_sum {current : UInt32} (hcurrent : current.toNat ≤ 4294967) (hms : IsSample ms) :
    (current * 7).toNat = current.toNat * 7 ∧
      (current * 7 + ms).toNat = current.toNat * 7 + ms.toNat := by
  obtain ⟨-, hle⟩ := hms
  have hprod : (current * 7).toNat = current.toNat * 7 := by
    rw [UInt32.toNat_mul]
    exact Nat.mod_eq_of_lt (by simp; omega)
  refine ⟨hprod, ?_⟩
  rw [UInt32.toNat_add, hprod]
  exact Nat.mod_eq_of_lt (by omega)

/-- The average is a sample, or there is none yet. -/
structure Sane (o : Observations) : Prop where
  le : o.measuredRttMs.toNat ≤ 4294967
  pos : o.hasRtt = true → 1 ≤ o.measuredRttMs.toNat

theorem measured_record (ho : o.Sane) (hms : IsSample ms) :
    (o.recordMeasuredRtt ms).measuredRttMs.toNat =
      if o.hasRtt then (o.measuredRttMs.toNat * 7 + ms.toNat) / 8 else ms.toNat := by
  have hne : ms ≠ 0 := by
    rintro rfl
    exact absurd hms.1 (by decide)
  rw [recordMeasuredRtt, if_neg hne]
  cases hrtt : o.hasRtt with
  | false => simp [updateEmaU32]
  | true =>
    have hpos := ho.pos hrtt
    have hzero : (o.measuredRttMs == 0) = false := by
      rw [beq_eq_false_iff_ne]
      intro h
      rw [h] at hpos
      exact absurd hpos (by decide)
    simp only [updateEmaU32, hzero, Bool.not_true, Bool.or_self, Bool.false_eq_true,
      if_false, if_true]
    rw [UInt32.toNat_div, (toNat_sum ho.le hms).2]
    rfl

/-- The average lies between the bounds of its samples. -/
def Between (lo hi : Nat) (o : Observations) : Prop :=
  o.hasRtt = true → lo ≤ o.measuredRttMs.toNat ∧ o.measuredRttMs.toNat ≤ hi

theorem hasRtt_record (hms : IsSample ms) : (o.recordMeasuredRtt ms).hasRtt = true := by
  unfold recordMeasuredRtt
  split
  next hzero => exact absurd (hzero ▸ hms.1) (by decide)
  next => rfl

theorem hasRtt_foldl {l : List UInt32} (hl : ∀ ms ∈ l, IsSample ms) :
    (l.foldl recordMeasuredRtt {}).hasRtt = true ↔ l ≠ [] := by
  rcases l.eq_nil_or_concat with rfl | ⟨rest, ms, rfl⟩
  · decide
  · rw [concat_eq_append] at hl ⊢
    rw [foldl_concat]
    exact iff_of_true (hasRtt_record (hl ms (by simp))) (by simp)

theorem Sane.record (ho : o.Sane) (hms : IsSample ms) : (o.recordMeasuredRtt ms).Sane := by
  have hmeasured := measured_record ho hms
  obtain ⟨hge, hle⟩ := hms
  split at hmeasured
  next hrtt =>
    have hbounds := And.intro ho.le (ho.pos hrtt)
    exact ⟨by omega, fun _ => by omega⟩
  next => exact ⟨hmeasured ▸ hle, fun _ => hmeasured ▸ hge⟩

theorem between_record {lo hi : Nat} (hsane : o.Sane) (hms : IsSample ms) (ho : o.Between lo hi)
    (hlo : lo ≤ ms.toNat) (hhi : ms.toNat ≤ hi) : (o.recordMeasuredRtt ms).Between lo hi := by
  intro _
  rw [measured_record hsane hms]
  split
  next hrtt =>
    have hbounds := ho hrtt
    omega
  next => exact ⟨hlo, hhi⟩

theorem between_foldl {lo hi : Nat} {l : List UInt32} (hl : ∀ ms ∈ l, IsSample ms)
    (hbounds : ∀ ms ∈ l, lo ≤ ms.toNat ∧ ms.toNat ≤ hi) (hsane : o.Sane) (ho : o.Between lo hi) :
    (l.foldl recordMeasuredRtt o).Sane ∧ (l.foldl recordMeasuredRtt o).Between lo hi := by
  induction l generalizing o with
  | nil => exact ⟨hsane, ho⟩
  | cons ms rest ih =>
    obtain ⟨hms, hrest⟩ := forall_mem_cons.mp hl
    obtain ⟨hb, hbrest⟩ := forall_mem_cons.mp hbounds
    exact ih hrest hbrest (hsane.record hms) (between_record hsane hms ho hb.1 hb.2)

/-- Samples that all equal `s` bring the average to `s` from above and to within seven of it from
below: until there, each of them moves it by one at least. -/
theorem settled_foldl {s : UInt32} (hs : IsSample s) {l : List UInt32} (hl : ∀ ms ∈ l, ms = s)
    (hsane : o.Sane) (hrtt : o.hasRtt = true)
    (hlong : o.measuredRttMs.toNat - s.toNat + (s.toNat - o.measuredRttMs.toNat - 7) ≤ l.length) :
    (l.foldl recordMeasuredRtt o).measuredRttMs.toNat ≤ s.toNat ∧
      s.toNat ≤ (l.foldl recordMeasuredRtt o).measuredRttMs.toNat + 7 ∧
      (s.toNat ≤ o.measuredRttMs.toNat →
        s.toNat ≤ (l.foldl recordMeasuredRtt o).measuredRttMs.toNat) := by
  induction l generalizing o with
  | nil =>
    rw [length_nil] at hlong
    rw [foldl_nil]
    exact ⟨by omega, by omega, id⟩
  | cons ms rest ih =>
    obtain ⟨rfl, hrest⟩ := forall_mem_cons.mp hl
    have hmeasured := measured_record hsane hs
    rw [if_pos hrtt] at hmeasured
    rw [length_cons] at hlong
    obtain ⟨hle, hge, habove⟩ := ih hrest (hsane.record hs) (hasRtt_record hs) (by omega)
    exact ⟨hle, hge, fun h => habove (by omega)⟩

end Observations

/-- After every sequence of measurements the average lies between the bounds of the samples and
the next one does not overflow; from there on, measurements that all sample `s` bring it to within
seven below `s`, and to `s` itself from above. -/
theorem smoothed_rtt_meaningful (measurements : List (Option Statistics)) :
    let o := measurements.foldl Observations.sampleConnectionRtt {}
    (o.hasRtt = true ↔ samples measurements ≠ []) ∧
    (∀ lo hi, (∀ ms ∈ samples measurements, lo ≤ ms ∧ ms ≤ hi) → o.hasRtt = true →
      lo ≤ o.measuredRttMs ∧ o.measuredRttMs ≤ hi) ∧
    (∀ next, ∀ ms ∈ samples [next],
      (o.measuredRttMs * 7).toNat = o.measuredRttMs.toNat * 7 ∧
      (o.measuredRttMs * 7 + ms).toNat = o.measuredRttMs.toNat * 7 + ms.toNat) ∧
    ∀ s, ∃ n, ∀ more, (∀ ms ∈ samples more, ms = s) → n ≤ (samples more).length →
      let after := more.foldl Observations.sampleConnectionRtt o
      after.measuredRttMs ≤ s ∧ s.toNat ≤ after.measuredRttMs.toNat + 7 ∧
        (s ≤ o.measuredRttMs → after.measuredRttMs = s) := by
  intro o
  have ho : o = (samples measurements).foldl Observations.recordMeasuredRtt {} :=
    foldl_sampleConnectionRtt measurements {}
  have hsamples : ∀ ms ∈ samples measurements, IsSample ms := fun ms => isSample_of_mem
  have hstart : Observations.Sane {} := ⟨by decide, nofun⟩
  have hsane : o.Sane := by
    rw [ho]
    exact (Observations.between_foldl hsamples hsamples hstart nofun).1
  refine ⟨?_, fun lo hi hbounds hrtt => ?_, fun next ms hms => ?_,
    fun s => ⟨o.measuredRttMs.toNat + s.toNat + 1, fun more hmore hlong => ?_⟩⟩
  · rw [ho]
    exact Observations.hasRtt_foldl hsamples
  · rw [ho] at hrtt ⊢
    simp only [UInt32.le_iff_toNat_le] at hbounds ⊢
    exact (Observations.between_foldl hsamples hbounds hstart nofun).2 hrtt
  · exact Observations.toNat_sum hsane.le (isSample_of_mem hms)
  · -- the first of the equal samples starts the average, if there was none
    intro after
    have hafter : after = (samples more).foldl Observations.recordMeasuredRtt o :=
      foldl_sampleConnectionRtt more o
    have hall : ∀ ms ∈ samples more, IsSample ms := fun ms => isSample_of_mem
    cases hl : samples more with
    | nil => simp [hl] at hlong
    | cons ms rest =>
      rw [hl] at hmore hlong hall hafter
      obtain ⟨rfl, hrest⟩ := forall_mem_cons.mp hmore
      obtain ⟨hs, -⟩ := forall_mem_cons.mp hall
      have hmeasured := Observations.measured_record hsane hs
      rw [length_cons] at hlong
      obtain ⟨hle, hge, habove⟩ := Observations.settled_foldl hs hrest (hsane.record hs)
        (Observations.hasRtt_record hs) (by split at hmeasured <;> omega)
      rw [hafter, UInt32.le_iff_toNat_le, UInt32.le_iff_toNat_le]
      refine ⟨hle, hge, fun h => UInt32.toNat_inj.mp (Nat.le_antisymm hle (habove ?_))⟩
      split at hmeasured <;> omega

end TcpQuicProxy.Config
