import PiAudioNode.Rtp.Anchor
import PiAudioNode.Rtp.SdpRoundTrip
import PiAudioNode.Rtp.Sender

/-! The media clock of both engines in 64-bit arithmetic: the timestamps that the sender
writes, the age that the receiver reads from them, and what the next timestamp is. -/
namespace PiAudioNode.Rtp
open Lib

namespace RtpSender

/-- When a packet is due, counted from the anchor. -/
def deadline (s : RtpSender) (nStartNs nPacket : BitVec 64) : BitVec 64 :=
  nStartNs + nPacket * BitVec.ofInt 64 s.nPacketTimeUs * 1000

/-- The RTP timestamp of a packet: samples since the PTP epoch, with the seconds split
off first. -/
def rtpTimestamp (nDeadlineNs : BitVec 64) : BitVec 32 :=
  let nSec := nDeadlineNs / 1000000000#64
  (nSec * BitVec.ofNat 64 sampleRate +
    nDeadlineNs % 1000000000#64 * BitVec.ofNat 64 sampleRate / 1000000000#64).setWidth 32

end RtpSender

/-- The time the playout thread reads, in samples. -/
def nPtpSamples (nPtpNs : BitVec 64) : BitVec 64 :=
  nPtpNs / 1000000000#64 * BitVec.ofNat 64 sampleRate +
    nPtpNs % 1000000000#64 * BitVec.ofNat 64 sampleRate / 1000000000#64

def nAge (nPtpNs : BitVec 64) (nFirstTs : BitVec 32) : Int := ((nPtpSamples nPtpNs).setWidth 32 - nFirstTs).toInt

/-- The samples that have passed at a time. -/
def samplesIn (ns : BitVec 64) : Nat := ns.toNat * 48000 / 1000000000

/-- Nothing that is computed for a time on the way to its samples exceeds 64 bits. -/
structure Unwrapped (ns : BitVec 64) : Prop where
  seconds : (ns / 1000000000#64).toNat * sampleRate < 2 ^ 64
  rest : (ns % 1000000000#64).toNat * sampleRate < 2 ^ 64
  sum : (ns / 1000000000#64).toNat * sampleRate + (ns % 1000000000#64).toNat * sampleRate / 1000000000 < 2 ^ 64

theorem unwrapped (ns : BitVec 64) : Unwrapped ns := by
  have hns := ns.isLt
  have hbillion : (1000000000#64).toNat = 1000000000 := rfl
  constructor
  all_goals
    simp only [BitVec.toNat_udiv, BitVec.toNat_umod, hbillion, sampleRate]
    omega

/-- The samples of a time are the ones its nanoseconds have. -/
theorem toNat_nPtpSamples (ns : BitVec 64) : (nPtpSamples ns).toNat = ptpSamples ns.toNat := by
  have hunwrapped := unwrapped ns
  have hrate : (BitVec.ofNat 64 sampleRate).toNat = sampleRate := rfl
  have hbillion : (1000000000#64).toNat = 1000000000 := rfl
  have hseconds : (ns / 1000000000#64 * BitVec.ofNat 64 sampleRate).toNat =
      (ns / 1000000000#64).toNat * sampleRate := by
    rw [BitVec.toNat_mul, hrate, Nat.mod_eq_of_lt hunwrapped.seconds]
  have hrest : (ns % 1000000000#64 * BitVec.ofNat 64 sampleRate / 1000000000#64).toNat =
      (ns % 1000000000#64).toNat * sampleRate / 1000000000 := by
    rw [BitVec.toNat_udiv, BitVec.toNat_mul, hrate, Nat.mod_eq_of_lt hunwrapped.rest, hbillion]
  rw [nPtpSamples, BitVec.toNat_add, hseconds, hrest, Nat.mod_eq_of_lt hunwrapped.sum, BitVec.toNat_udiv,
    BitVec.toNat_umod, hbillion, ptpSamples]

theorem setWidth_nPtpSamples (ns : BitVec 64) : (nPtpSamples ns).setWidth 32 = BitVec.ofNat 32 (samplesIn ns) := by
  rw [← BitVec.ofNat_toNat, toNat_nPtpSamples, ptpSamples_eq]
  rfl

/-- The sender stamps by the clock that the receiver reads. -/
theorem rtpTimestamp_eq (ns : BitVec 64) : RtpSender.rtpTimestamp ns = BitVec.ofNat 32 (samplesIn ns) :=
  setWidth_nPtpSamples ns

/-- The age is the one that playout starts by. -/
theorem nAge_eq_ageAt (nPtpNs : BitVec 64) (nTs : BitVec 32) : nAge nPtpNs nTs = ageAt nPtpNs.toNat nTs := by
  rw [nAge, ageAt, ← BitVec.ofNat_toNat, toNat_nPtpSamples]

/-- A difference of two counts that fits 32 bits is what their low words differ by. -/
theorem toInt_ofNat_sub_ofNat {a b : Nat} (h : |(a : Int) - b| < 2 ^ 31) :
    (BitVec.ofNat 32 a - BitVec.ofNat 32 b).toInt = (a : Int) - b := by
  obtain ⟨hlow, hhigh⟩ := abs_lt.mp h
  rw [BitVec.toInt_sub, BitVec.toInt_ofNat', BitVec.toInt_ofNat', Int.bmod_sub_bmod, Int.sub_bmod_bmod]
  exact Int.bmod_eq_of_le (by omega) (by omega)

/-- Both engines count the samples of a 64-bit time without a wrap, and come to the same
32 bits. The age of a timestamp is then the time that has passed on the media clock. -/
theorem media_clock_shared :
    (∀ ns : BitVec 64, Unwrapped ns ∧ RtpSender.rtpTimestamp ns = BitVec.ofNat 32 (samplesIn ns) ∧
      (nPtpSamples ns).setWidth 32 = BitVec.ofNat 32 (samplesIn ns)) ∧
    ∀ nDeadlineNs nPtpNs : BitVec 64, |(samplesIn nPtpNs : Int) - samplesIn nDeadlineNs| < 2 ^ 31 →
      nAge nPtpNs (RtpSender.rtpTimestamp nDeadlineNs) = (samplesIn nPtpNs : Int) - samplesIn nDeadlineNs := by
  refine ⟨fun ns => ⟨unwrapped ns, rtpTimestamp_eq ns, setWidth_nPtpSamples ns⟩, fun nDeadlineNs nPtpNs hnear => ?_⟩
  rw [nAge, rtpTimestamp_eq, setWidth_nPtpSamples]
  exact toInt_ofNat_sub_ofNat hnear

/-- A packet due just before the timestamps wrap, received after they have. -/
theorem media_clock_shared_at_wrap :
    nAge 89478505333333#64 (RtpSender.rtpTimestamp 89478485333333#64) = 960 := by
  have hdue : samplesIn 89478485333333#64 = 4294967295 := by norm_num [samplesIn]
  have hread : samplesIn 89478505333333#64 = 4294968255 := by norm_num [samplesIn]
  have hage := media_clock_shared.2 89478485333333#64 89478505333333#64 (by rw [hdue, hread]; norm_num)
  rw [hdue, hread] at hage
  exact hage

section Contiguous
variable {s : RtpSender} {nStartNs : BitVec 64}

/-- The deadline of a packet, counted without a limit of 64 bits. -/
def RtpSender.dueNs (s : RtpSender) (nStartNs : BitVec 64) (nPacket : Nat) : Nat :=
  nStartNs.toNat + nPacket * s.nPacketTimeUs.toNat * 1000

/-- As long as the clock can tell its deadline, the timestamp of the next packet is the
one of this packet and its frames. -/
def Contiguous (s : RtpSender) (nStartNs : BitVec 64) : Prop :=
  ∀ nPacket : Nat, s.dueNs nStartNs (nPacket + 1) < 2 ^ 64 →
    RtpSender.rtpTimestamp (s.deadline nStartNs (BitVec.ofNat 64 (nPacket + 1))) -
      RtpSender.rtpTimestamp (s.deadline nStartNs (BitVec.ofNat 64 nPacket)) = BitVec.ofNat 32 s.nFramesPerPacket

/-- The packet times that `Configure` accepts. -/
structure PacketTime (s : RtpSender) : Prop where
  least : 125 ≤ s.nPacketTimeUs
  fits : Fits s.nPacketTimeUs

theorem toNat_deadline (h : PacketTime s) {nPacket : Nat} (hdue : s.dueNs nStartNs nPacket < 2 ^ 64) :
    (s.deadline nStartNs (BitVec.ofNat 64 nPacket)).toNat = s.dueNs nStartNs nPacket := by
  have hmin := h.least
  have hmax := h.fits.2
  obtain ⟨us, hus⟩ := Int.eq_ofNat_of_zero_le (le_trans (by norm_num) hmin)
  have hus' : s.nPacketTimeUs.toNat = us := by omega
  unfold RtpSender.dueNs at hdue ⊢
  rw [hus'] at hdue ⊢
  have hone : nPacket ≤ nPacket * us := Nat.le_mul_of_pos_right nPacket (by omega)
  have htime : (BitVec.ofInt 64 s.nPacketTimeUs).toNat = us := by
    rw [hus, BitVec.ofInt_natCast, BitVec.toNat_ofNat]
    omega
  have hpacket : (BitVec.ofNat 64 nPacket).toNat = nPacket := by
    rw [BitVec.toNat_ofNat]
    omega
  have hthousand : (1000 : BitVec 64).toNat = 1000 := rfl
  have hproduct : (BitVec.ofNat 64 nPacket * BitVec.ofInt 64 s.nPacketTimeUs).toNat = nPacket * us := by
    rw [BitVec.toNat_mul_of_lt, hpacket, htime]
    rw [hpacket, htime]
    omega
  rw [RtpSender.deadline, BitVec.toNat_add_of_lt, BitVec.toNat_mul_of_lt, hproduct, hthousand]
  · rw [hproduct, hthousand]
    omega
  · rw [BitVec.toNat_mul_of_lt, hproduct, hthousand]
    · exact hdue
    · rw [hproduct, hthousand]
      omega

/-- How far the samples are from one deadline to the next: the frames of the packet, and
one more when the fractions of a sample add up to one. -/
theorem samples_step (x us : Nat) : (x + us * 1000) * 48000 / 1000000000 =
    x * 48000 / 1000000000 + 48000 * us / 1000000 +
      if 1000000000 ≤ x * 48000 % 1000000000 + us * 48000000 % 1000000000 then 1 else 0 := by
  have hsum : (x + us * 1000) * 48000 = x * 48000 + us * 48000000 := by ring
  have hframes : us * 48000000 / 1000000000 = 48000 * us / 1000000 := by omega
  rw [hsum, Nat.add_div (by norm_num), hframes]

/-- The timestamps of neighbours are apart by the frames of a packet exactly where the
samples at their deadlines are. -/
theorem contiguous_iff_samples (h : PacketTime s) : Contiguous s nStartNs ↔
    ∀ nPacket, s.dueNs nStartNs (nPacket + 1) < 2 ^ 64 →
      s.dueNs nStartNs (nPacket + 1) * 48000 / 1000000000 =
        s.dueNs nStartNs nPacket * 48000 / 1000000000 + s.nFramesPerPacket := by
  refine forall_congr' fun nPacket => imp_congr_right fun hnext => ?_
  have hstep : s.dueNs nStartNs (nPacket + 1) = s.dueNs nStartNs nPacket + s.nPacketTimeUs.toNat * 1000 := by
    simp only [RtpSender.dueNs]
    ring
  have hsamples := samples_step (s.dueNs nStartNs nPacket) s.nPacketTimeUs.toNat
  have hframes : 48000 * s.nPacketTimeUs.toNat / 1000000 = s.nFramesPerPacket := rfl
  rw [← hstep, hframes] at hsamples
  have hdue : s.dueNs nStartNs nPacket < 2 ^ 64 := by omega
  rw [rtpTimestamp_eq, rtpTimestamp_eq, samplesIn, samplesIn, toNat_deadline h hnext, toNat_deadline h hdue, hsamples]
  generalize s.dueNs nStartNs nPacket * 48000 / 1000000000 = x
  split_ifs
  · have hfar : BitVec.ofNat 32 (x + s.nFramesPerPacket + 1) - BitVec.ofNat 32 x =
        BitVec.ofNat 32 (s.nFramesPerPacket + 1) := by
      rw [add_assoc, BitVec.ofNat_add x, BitVec.add_comm, BitVec.add_sub_cancel]
    rw [hfar]
    refine iff_of_false (fun heq => ?_) (by omega)
    have hmod := congrArg BitVec.toNat heq
    rw [BitVec.toNat_ofNat, BitVec.toNat_ofNat] at hmod
    omega
  · refine iff_of_true ?_ rfl
    rw [add_zero, BitVec.ofNat_add, BitVec.add_comm, BitVec.add_sub_cancel]

/-- A packet time of whole samples is the same number of frames from any deadline on. -/
theorem contiguous_of_dvd (h : PacketTime s) (hdvd : 125 ∣ s.nPacketTimeUs) (nStartNs : BitVec 64) :
    Contiguous s nStartNs := by
  refine (contiguous_iff_samples h).mpr fun nPacket _ => ?_
  have hmin := h.least
  simp only [RtpSender.dueNs, RtpSender.nFramesPerPacket, sampleRate]
  generalize hus : s.nPacketTimeUs.toNat = us
  obtain ⟨k, rfl⟩ : 125 ∣ us := by omega
  have hstep : nStartNs.toNat + (nPacket + 1) * (125 * k) * 1000 =
      (nStartNs.toNat + nPacket * (125 * k) * 1000) + 125 * k * 1000 := by ring
  rw [hstep]
  omega

/-- What the timestamps of contiguous packets have come to after some of them. -/
theorem samples_of_contiguous (h : PacketTime s) (hcont : Contiguous s nStartNs) (nPacket : Nat)
    (hdue : s.dueNs nStartNs nPacket < 2 ^ 64) :
    s.dueNs nStartNs nPacket * 48000 / 1000000000 =
      nStartNs.toNat * 48000 / 1000000000 + nPacket * s.nFramesPerPacket := by
  induction nPacket with
  | zero => simp [RtpSender.dueNs]
  | succ nPacket ih =>
    have hbefore : s.dueNs nStartNs nPacket ≤ s.dueNs nStartNs (nPacket + 1) := by
      unfold RtpSender.dueNs
      gcongr
      omega
    rw [(contiguous_iff_samples h).mp hcont nPacket hdue, ih (lt_of_le_of_lt hbefore hdue)]
    ring

/-- No fraction of a sample is left after 125 packets. -/
theorem samples_of_125_packets (x us : Nat) :
    (x + 125 * us * 1000) * 48000 / 1000000000 = x * 48000 / 1000000000 + 6 * us := by
  omega

/-- From any anchor that leaves the clock another 125 packets: their samples are 6 for
each microsecond of the packet time, so that number is a multiple of 125. -/
theorem dvd_of_contiguous (h : PacketTime s) (hcont : Contiguous s nStartNs) (hroom : s.dueNs nStartNs 125 < 2 ^ 64) :
    125 ∣ s.nPacketTimeUs := by
  have hmin := h.least
  have hsamples := samples_of_contiguous h hcont 125 hroom
  have hpassed := samples_of_125_packets nStartNs.toNat s.nPacketTimeUs.toNat
  rw [RtpSender.dueNs, hpassed] at hsamples
  have hframes : 6 * s.nPacketTimeUs.toNat = 125 * s.nFramesPerPacket := Nat.add_left_cancel hsamples
  omega

/-- The timestamps follow each other from any anchor if and only if the packet time is a
whole number of samples, that is, a multiple of 125 microseconds. -/
theorem contiguous_iff (h : PacketTime s) : (∀ nStartNs, Contiguous s nStartNs) ↔ 125 ∣ s.nPacketTimeUs := by
  constructor
  · intro hall
    have hmax := h.fits.2
    refine dvd_of_contiguous h (hall 0) ?_
    have hzero : (0 : BitVec 64).toNat = 0 := rfl
    simp only [RtpSender.dueNs, hzero]
    omega
  · exact contiguous_of_dvd h

/-- At 130 microseconds a packet has 6 frames, and the fifth deadline is 7 samples after
the fourth. -/
theorem not_contiguous_at_130us : ¬ ∀ (s : RtpSender) (nStartNs : BitVec 64), PacketTime s → Contiguous s nStartNs := by
  intro hall
  have hstep := hall { nPacketTimeUs := 130 } 0 ⟨by norm_num, by norm_num, by norm_num⟩ 4 (by decide)
  have hapart : RtpSender.rtpTimestamp (RtpSender.deadline { nPacketTimeUs := 130 } 0 (BitVec.ofNat 64 5)) -
      RtpSender.rtpTimestamp (RtpSender.deadline { nPacketTimeUs := 130 } 0 (BitVec.ofNat 64 4)) = 7 := by decide
  have hframes : RtpSender.nFramesPerPacket { nPacketTimeUs := 130 } = 6 := by decide
  rw [hapart, hframes] at hstep
  cases hstep

theorem contiguous_iff_at_1ms : (∀ nStartNs, Contiguous { nPacketTimeUs := 1000 } nStartNs) ↔ (125 : Int) ∣ 1000 :=
  contiguous_iff (s := { nPacketTimeUs := 1000 }) ⟨by norm_num, by norm_num, by norm_num⟩

end Contiguous

end PiAudioNode.Rtp
