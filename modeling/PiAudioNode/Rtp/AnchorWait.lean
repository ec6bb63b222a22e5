import PiAudioNode.Rtp.MediaClock

/-! The sleep on the anchor in the arithmetic of the machine: the wait is a signed
32-bit difference, and the age in it can be any 32 bits. -/
namespace PiAudioNode.Rtp
open Lib

namespace RxConfig
variable (cfg : RxConfig) (nPtpNs : BitVec 64) (nFirstTs : BitVec 32)

/-- The wait as it is computed, from the low 32 bits of each operand. -/
def nWaitSamples : BitVec 32 :=
  (BitVec.ofNat 32 cfg.nPlayoutDelayMs * BitVec.ofNat 32 sampleRate).sdiv 1000#32 -
    ((nPtpSamples nPtpNs).setWidth 32 - nFirstTs)

/-- The sleep of the thread in microseconds, where it sleeps. -/
def anchorSleepUs : Option Int :=
  let nWait := (cfg.nWaitSamples nPtpNs nFirstTs).toInt
  if 0 < nWait ∧ nWait < sampleRate then some (nWait * 1000000 / sampleRate) else none

/-- The wait without a limit of 32 bits. -/
def exactWait : Int := cfg.nTargetDelayFrames - nAge nPtpNs nFirstTs

end RxConfig

/-- How far a timestamp is ahead of the media clock, up to a whole turn of 32 bits. -/
def aheadBy (nPtpNs : BitVec 64) (nFirstTs : BitVec 32) : Nat := (nFirstTs - BitVec.ofNat 32 (samplesIn nPtpNs)).toNat

/-- The machine computes the exact wait, and the thread sleeps a second at most and only
for a wait below a second. -/
structure WaitsExactly (cfg : RxConfig) (nPtpNs : BitVec 64) (nFirstTs : BitVec 32) : Prop where
  exact : (cfg.nWaitSamples nPtpNs nFirstTs).toInt = cfg.exactWait nPtpNs nFirstTs
  sleep : ∀ us, cfg.anchorSleepUs nPtpNs nFirstTs = some us → us ≤ 1000000 ∧
    0 < cfg.exactWait nPtpNs nFirstTs ∧ cfg.exactWait nPtpNs nFirstTs < 48000

section Machine
variable {cfg : RxConfig} {nPtpNs : BitVec 64} {nFirstTs : BitVec 32}

/-- The configured depth stays far below 32 bits. -/
theorem toInt_targetDelay (h : cfg.nPlayoutDelayMs ≤ 500) :
    ((BitVec.ofNat 32 cfg.nPlayoutDelayMs * BitVec.ofNat 32 sampleRate).sdiv 1000#32).toInt = cfg.nTargetDelayFrames := by
  have hproduct : (BitVec.ofNat 32 cfg.nPlayoutDelayMs * BitVec.ofNat 32 sampleRate).toInt =
      ((cfg.nPlayoutDelayMs * sampleRate : Nat) : Int) := by
    rw [← BitVec.ofNat_mul, BitVec.toInt_ofNat']
    exact Int.bmod_eq_of_le (by unfold sampleRate; omega) (by unfold sampleRate; omega)
  have hthousand : (1000#32).toInt = (1000 : Nat) := rfl
  rw [BitVec.toInt_sdiv, hproduct, hthousand, ← Int.ofNat_tdiv, RxConfig.nTargetDelayFrames]
  apply Int.bmod_eq_of_le
  · unfold sampleRate; omega
  · unfold sampleRate; omega

/-- A signed difference is the exact one where that fits. -/
theorem toInt_sub_eq_iff {x y : BitVec 32} :
    (x - y).toInt = x.toInt - y.toInt ↔ -2 ^ 31 ≤ x.toInt - y.toInt ∧ x.toInt - y.toInt < 2 ^ 31 := by
  constructor
  · intro h
    rw [← h]
    exact ⟨BitVec.le_toInt _, BitVec.toInt_lt⟩
  · rintro ⟨hlow, hhigh⟩
    rw [BitVec.toInt_sub]
    exact Int.bmod_eq_of_le (by omega) (by omega)

theorem toInt_nWaitSamples (h : cfg.nPlayoutDelayMs ≤ 500) :
    (cfg.nWaitSamples nPtpNs nFirstTs).toInt = (cfg.exactWait nPtpNs nFirstTs).bmod (2 ^ 32) := by
  rw [RxConfig.nWaitSamples, BitVec.toInt_sub, toInt_targetDelay h]
  rfl

theorem nWaitSamples_exact_iff (h : cfg.nPlayoutDelayMs ≤ 500) :
    (cfg.nWaitSamples nPtpNs nFirstTs).toInt = cfg.exactWait nPtpNs nFirstTs ↔
      cfg.exactWait nPtpNs nFirstTs < 2 ^ 31 := by
  have hage := BitVec.toInt_lt (x := (nPtpSamples nPtpNs).setWidth 32 - nFirstTs)
  have htarget : 0 ≤ cfg.nTargetDelayFrames := Int.natCast_nonneg _
  rw [RxConfig.nWaitSamples, RxConfig.exactWait, nAge, ← toInt_targetDelay h, toInt_sub_eq_iff, toInt_targetDelay h]
  constructor
  · exact And.right
  · intro hhigh
    exact ⟨by omega, hhigh⟩

theorem nAge_eq_neg_aheadBy (nPtpNs : BitVec 64) (nFirstTs : BitVec 32) : nAge nPtpNs nFirstTs =
    if aheadBy nPtpNs nFirstTs ≤ 2 ^ 31 then -(aheadBy nPtpNs nFirstTs : Int)
    else 2 ^ 32 - (aheadBy nPtpNs nFirstTs : Int) := by
  have hneg (x y : BitVec 32) : x - y = -(y - x) := (neg_sub y x).symm
  rw [nAge, aheadBy, setWidth_nPtpSamples, hneg]
  generalize nFirstTs - BitVec.ofNat 32 (samplesIn nPtpNs) = ahead
  have hahead := ahead.isLt
  rw [BitVec.toInt_eq_toNat_cond, BitVec.toNat_neg]
  split_ifs <;> omega

theorem targetDelay_le (h : cfg.nPlayoutDelayMs ≤ 500) : 0 ≤ cfg.nTargetDelayFrames ∧ cfg.nTargetDelayFrames ≤ 24000 := by
  unfold RxConfig.nTargetDelayFrames sampleRate
  omega

/-- Only a timestamp ahead by nearly half a turn makes the wait too long. -/
theorem exactWait_lt_iff (h : cfg.nPlayoutDelayMs ≤ 500) : cfg.exactWait nPtpNs nFirstTs < 2 ^ 31 ↔
    (aheadBy nPtpNs nFirstTs : Int) < 2 ^ 31 - cfg.nTargetDelayFrames ∨ 2 ^ 31 < aheadBy nPtpNs nFirstTs := by
  have hahead : aheadBy nPtpNs nFirstTs < 2 ^ 32 := BitVec.isLt _
  obtain ⟨hlow, hhigh⟩ := targetDelay_le h
  rw [RxConfig.exactWait, nAge_eq_neg_aheadBy]
  split_ifs <;> omega

/-- A wait that wraps turns negative, so the branch taken is that of the exact wait. -/
theorem anchorSleepUs_eq (h : cfg.nPlayoutDelayMs ≤ 500) : cfg.anchorSleepUs nPtpNs nFirstTs =
    if 0 < cfg.exactWait nPtpNs nFirstTs ∧ cfg.exactWait nPtpNs nFirstTs < 48000 then
      some (cfg.exactWait nPtpNs nFirstTs * 1000000 / 48000) else none := by
  have hage : -2 ^ 31 ≤ nAge nPtpNs nFirstTs := BitVec.le_toInt _
  have hfar : cfg.exactWait nPtpNs nFirstTs ≤ 24000 + 2 ^ 31 := by
    have := (targetDelay_le h).2
    unfold RxConfig.exactWait
    omega
  by_cases hfits : cfg.exactWait nPtpNs nFirstTs < 2 ^ 31
  · have hexact := (nWaitSamples_exact_iff h).mpr hfits
    rw [RxConfig.anchorSleepUs, hexact]
    rfl
  · have hwrapped : (cfg.nWaitSamples nPtpNs nFirstTs).toInt = cfg.exactWait nPtpNs nFirstTs - 2 ^ 32 := by
      rw [toInt_nWaitSamples h, ← Int.sub_bmod_right]
      exact Int.bmod_eq_of_le (by omega) (by omega)
    rw [RxConfig.anchorSleepUs, hwrapped, if_neg, if_neg]
    · omega
    · unfold sampleRate
      omega

/-- What the thread sleeps is what the engine model has it sleep. -/
theorem anchorSleepUs_eq_preroll (h : cfg.nPlayoutDelayMs ≤ 500) :
    (cfg.anchorSleepUs nPtpNs nFirstTs).getD 0 * 1000 = anchorSleepNs cfg nPtpNs.toNat nFirstTs := by
  have hpreroll : prerollFrames cfg nFirstTs (.synced nPtpNs.toNat) =
      if 0 < cfg.exactWait nPtpNs nFirstTs ∧ cfg.exactWait nPtpNs nFirstTs < 48000 then
        (cfg.exactWait nPtpNs nFirstTs).toNat else 0 := by
    rw [RxConfig.exactWait, nAge_eq_ageAt]
    rfl
  rw [anchorSleepUs_eq h, anchorSleepNs, hpreroll]
  split_ifs with hrange
  · unfold sampleRate
    simp only [Option.getD_some]
    omega
  · rfl

theorem ofSession_delay_le (session : SdpSession) (nPlayoutDelayMs : Int) :
    (RxConfig.ofSession session nPlayoutDelayMs).nPlayoutDelayMs ≤ 500 := by
  unfold RxConfig.ofSession
  simp only
  omega

end Machine

/-- For every configured delay, PTP time and first timestamp: the machine's wait is the
exact one unless the timestamp is ahead of the media clock by half a turn of its 32 bits,
or less than that by no more than the configured delay. -/
theorem waitsExactly_iff (session : SdpSession) (nPlayoutDelayMs : Int) (nPtpNs : BitVec 64) (nFirstTs : BitVec 32) :
    WaitsExactly (.ofSession session nPlayoutDelayMs) nPtpNs nFirstTs ↔
      (aheadBy nPtpNs nFirstTs : Int) < 2 ^ 31 - (RxConfig.ofSession session nPlayoutDelayMs).nTargetDelayFrames ∨
        2 ^ 31 < aheadBy nPtpNs nFirstTs := by
  have hdelay := ofSession_delay_le session nPlayoutDelayMs
  generalize RxConfig.ofSession session nPlayoutDelayMs = cfg at hdelay ⊢
  rw [← exactWait_lt_iff hdelay, ← nWaitSamples_exact_iff hdelay]
  refine ⟨WaitsExactly.exact, fun hexact => ⟨hexact, fun us hus => ?_⟩⟩
  rw [anchorSleepUs_eq hdelay] at hus
  split_ifs at hus with hrange
  obtain rfl := Option.some.inj hus
  exact ⟨by omega, hrange⟩

/-- The least delay, and a first timestamp ahead of the clock by half a turn. -/
theorem not_waitsExactly_half_turn : ¬ ∀ (session : SdpSession) (nPlayoutDelayMs : Int) (nPtpNs : BitVec 64)
    (nFirstTs : BitVec 32), WaitsExactly (.ofSession session nPlayoutDelayMs) nPtpNs nFirstTs := by
  intro hclaim
  exact absurd (hclaim {} 2 0 0x80000000).exact (by decide)

end PiAudioNode.Rtp
