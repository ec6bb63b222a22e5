import PiAudioNode.Rtp.Sender

/-! Samples of 24 bits on the wire: the octets that the sender shifts out of an integer
are the ones that the receiver puts together again. -/
namespace PiAudioNode.Rtp
open Lib RtpSender

section Words

/-- The octets of three put into one word of 32 bits, with the sign of 24. -/
def signExtended (a b c : Byte) : BitVec 32 :=
  let nSample := a.setWidth 32 <<< 16 ||| b.setWidth 32 <<< 8 ||| c.setWidth 32
  if nSample &&& 0x800000 ≠ 0 then nSample ||| 0xff000000 else nSample

/-- The octets of an integer of 32 bits that are shifted down and cut off. -/
def shiftedOctets (nSample : BitVec 32) : Bytes :=
  [(nSample.sshiftRight 16 &&& 0xff).setWidth 8, (nSample.sshiftRight 8 &&& 0xff).setWidth 8,
    (nSample &&& 0xff).setWidth 8]

theorem join_octets (a b c : Byte) :
    a.setWidth 32 <<< 16 ||| b.setWidth 32 <<< 8 ||| c.setWidth 32 = (a ++ b ++ c).setWidth 32 := by
  apply BitVec.eq_of_getLsbD_eq
  intro i hi
  rw [BitVec.getLsbD_setWidth, BitVec.getLsbD_append, BitVec.getLsbD_append]
  simp only [BitVec.getLsbD_or, BitVec.getLsbD_shiftLeft, BitVec.getLsbD_setWidth]
  interval_cases i <;> simp

theorem sign_bit (w : BitVec 24) : w.setWidth 32 &&& 0x800000 ≠ 0 ↔ w.msb = true := by
  have hbit : w.setWidth 32 &&& 0x800000 = if w.msb then 0x800000 else 0 := by
    apply BitVec.eq_of_getLsbD_eq
    intro i hi
    rw [BitVec.msb_eq_getLsbD_last]
    by_cases h : w.getLsbD 23 <;> interval_cases i <;> simp_all
  rw [hbit]
  split_ifs <;> simp_all

/-- The bits set above the sign are those of a wider integer. -/
theorem signExtended_eq (a b c : Byte) : signExtended a b c = (a ++ b ++ c).signExtend 32 := by
  unfold signExtended
  dsimp only
  rw [join_octets, if_congr (sign_bit _) rfl rfl]
  apply BitVec.eq_of_getLsbD_eq
  intro i hi
  rw [BitVec.getLsbD_signExtend]
  by_cases h : (a ++ b ++ c).msb <;> interval_cases i <;> simp [h]

theorem toInt_signExtended (a b c : Byte) : (signExtended a b c).toInt = (a ++ b ++ c).toInt := by
  rw [signExtended_eq, BitVec.toInt_signExtend_of_le (by norm_num)]

/-- What is shifted out of an integer are the octets of its low 24 bits. -/
theorem encode_eq_shiftedOctets (nSample : Int) : encode nSample = shiftedOctets (BitVec.ofInt 32 nSample) := by
  have hlow : BitVec.ofInt 24 nSample = (BitVec.ofInt 32 nSample).setWidth 24 := by
    apply BitVec.eq_of_toNat_eq
    rw [BitVec.toNat_setWidth, BitVec.toNat_ofInt, BitVec.toNat_ofInt]
    omega
  have hoctet (w : BitVec 32) : (w.sshiftRight 16 &&& 0xff).setWidth 8 = (w.setWidth 24).extractLsb' 16 8 ∧
      (w.sshiftRight 8 &&& 0xff).setWidth 8 = (w.setWidth 24).extractLsb' 8 8 ∧
      (w &&& 0xff).setWidth 8 = (w.setWidth 24).extractLsb' 0 8 := by
    refine ⟨?_, ?_, ?_⟩
    all_goals
      ext i hi
      interval_cases i <;> simp [BitVec.getElem_sshiftRight]
  obtain ⟨hhigh, hmiddle, hbottom⟩ := hoctet (BitVec.ofInt 32 nSample)
  rw [encode, shiftedOctets, hlow, hhigh, hmiddle, hbottom]

end Words

section Payload
variable {vAudio : List Int}

theorem length_encode (nSample : Int) : (encode nSample).length = 3 := rfl

theorem length_flatMap_encode (vAudio : List Int) : (vAudio.flatMap encode).length = 3 * vAudio.length := by
  induction vAudio with
  | nil => rfl
  | cons x vAudio ih =>
    rw [List.flatMap_cons, List.length_append, ih, length_encode, List.length_cons]
    ring

/-- The octets of a sample stand where its index has them. -/
theorem byteAt_flatMap_encode {nIndex k : Nat} (hindex : nIndex < vAudio.length) (hk : k < 3) :
    byteAt (vAudio.flatMap encode) (nIndex * 3 + k) = byteAt (encode vAudio[nIndex]) k := by
  induction vAudio generalizing nIndex with
  | nil => cases hindex
  | cons x vAudio ih =>
    cases nIndex with
    | zero =>
      have hfirst : 0 * 3 + k < (encode x).length := by rw [length_encode]; omega
      rw [List.flatMap_cons, byteAt, List.getD_append _ _ _ _ hfirst, zero_mul, zero_add]
      rfl
    | succ nIndex =>
      have hrest : (encode x).length ≤ (nIndex + 1) * 3 + k := by rw [length_encode]; omega
      have hshift : (nIndex + 1) * 3 + k - (encode x).length = nIndex * 3 + k := by rw [length_encode]; omega
      rw [List.flatMap_cons, byteAt, List.getD_append_right _ _ _ _ hrest, hshift]
      exact ih (Nat.lt_of_succ_lt_succ hindex)

theorem append_octets (w : BitVec 24) : w.extractLsb' 16 8 ++ w.extractLsb' 8 8 ++ w.extractLsb' 0 8 = w := by
  apply BitVec.eq_of_getLsbD_eq
  intro i hi
  rw [BitVec.getLsbD_append, BitVec.getLsbD_append]
  interval_cases i <;> simp

/-- A sample of 24 bits is read as the integer that was written. -/
theorem decode_flatMap_encode {nIndex : Nat} (hindex : nIndex < vAudio.length)
    (hrange : ∀ nSample ∈ vAudio, -8388607 ≤ nSample ∧ nSample ≤ 8388607) :
    decode 3 (vAudio.flatMap encode) nIndex = vAudio[nIndex] / 8388608 := by
  have hfirst := byteAt_flatMap_encode hindex (show 0 < 3 by norm_num)
  have hsecond := byteAt_flatMap_encode hindex (show 1 < 3 by norm_num)
  have hthird := byteAt_flatMap_encode hindex (show 2 < 3 by norm_num)
  obtain ⟨hlow, hhigh⟩ := hrange _ (List.getElem_mem hindex)
  generalize vAudio[nIndex] = nSample at hfirst hsecond hthird hlow hhigh ⊢
  have hjoin : byteAt (encode nSample) 0 ++ byteAt (encode nSample) 1 ++ byteAt (encode nSample) 2 =
      BitVec.ofInt 24 nSample := append_octets (BitVec.ofInt 24 nSample)
  have hvalue : (BitVec.ofInt 24 nSample).toInt = nSample := by
    rw [BitVec.toInt_ofInt]
    exact Int.bmod_eq_of_le (by omega) (by omega)
  have hthree : ¬ 3 = 2 := by norm_num
  simp only [decode, hthree, if_false, hfirst, hsecond, hthird, hjoin, hvalue]

end Payload

section Packet
variable (s : RtpSender) (nSeq : BitVec 16) (nRtpTs : BitVec 32) (vAudio : List Int)

theorem headerSize_buildPacket : headerSize (s.buildPacket nSeq nRtpTs vAudio) = 12 := by
  have hfirst : byteAt (s.buildPacket nSeq nRtpTs vAudio) 0 = 0x80 := rfl
  rw [headerSize, hfirst]
  rfl

theorem drop_buildPacket : (s.buildPacket nSeq nRtpTs vAudio).drop 12 = vAudio.flatMap encode := rfl

theorem isRtp_buildPacket : isRtp (s.buildPacket nSeq nRtpTs vAudio) = true := by
  have hfirst : byteAt (s.buildPacket nSeq nRtpTs vAudio) 0 = 0x80 := rfl
  rw [isRtp, hfirst]
  decide

theorem rtpSeq_buildPacket : rtpSeq (s.buildPacket nSeq nRtpTs vAudio) = nSeq := by
  have hjoin : nSeq.extractLsb' 8 8 ++ nSeq.extractLsb' 0 8 = nSeq := BitVec.extractLsb'_append_extractLsb'
  exact hjoin

theorem length_buildPacket : (s.buildPacket nSeq nRtpTs vAudio).length = 12 + 3 * vAudio.length := by
  rw [buildPacket, List.length_append, length_flatMap_encode]
  rfl

end Packet

/-- A packet of stereo samples, as the sender builds it, is stored frame by frame with the
integers that were sent, under the number it was sent with. -/
theorem packet_round_trip (s : RtpSender) (cfg : RxConfig) (r : RtpReceiver) (nLeg : Leg) (nSeq : BitVec 16)
    (nRtpTs : BitVec 32) (vAudio : List Int) (now : Time) (n : Nat) (hsome : 1 ≤ n) (hlength : vAudio.length = 2 * n)
    (hrange : ∀ nSample ∈ vAudio, -8388607 ≤ nSample ∧ nSample ≤ 8388607)
    (hbits : cfg.session.nBitsPerSample = 24) (hchannels : cfg.session.nChannels = 2)
    (hmonitor : r.monitor = ⟨-1, -1⟩) (hempty : (r.vJitter (slotOf nSeq)).nGeneration = 0) :
    (handlePacket cfg r nLeg (s.buildPacket nSeq nRtpTs vAudio) now).1.vJitter (slotOf nSeq) =
      { nGeneration := nSeq.toNat + 1
        nSeq := nSeq
        vSamples := (List.range n).map fun nFrame =>
          { left := vAudio.getD (2 * nFrame) 0 / 8388608, right := vAudio.getD (2 * nFrame + 1) 0 / 8388608 } } := by
  have hbytes : bytesPerSample cfg.session = 3 := by simp [bytesPerSample, hbits]
  have htwo : channels cfg.session = 2 := by simp [channels, hchannels]
  have hframes : payloadFrames cfg.session (s.buildPacket nSeq nRtpTs vAudio) = n := by
    rw [payloadFrames, headerSize_buildPacket, length_buildPacket, hbytes, htwo, hlength]
    omega
  have hdecoded : decodeFrames cfg.session r.monitor (s.buildPacket nSeq nRtpTs vAudio) =
      (List.range n).map fun nFrame =>
        { left := vAudio.getD (2 * nFrame) 0 / 8388608, right := vAudio.getD (2 * nFrame + 1) 0 / 8388608 } := by
    rw [decodeFrames, hframes, headerSize_buildPacket, drop_buildPacket, hbytes, htwo, hmonitor]
    refine List.map_congr_left fun nFrame hmem => ?_
    have hframe := List.mem_range.mp hmem
    have hleft : Monitor.left ⟨-1, -1⟩ 2 = 0 := rfl
    have hright : Monitor.right ⟨-1, -1⟩ 2 = 1 := rfl
    rw [hleft, hright, add_zero, mul_comm nFrame 2, decode_flatMap_encode (by omega) hrange,
      decode_flatMap_encode (by omega) hrange, List.getD_eq_getElem _ _ (by omega), List.getD_eq_getElem _ _ (by omega)]
  have hne : decodeFrames cfg.session r.monitor (s.buildPacket nSeq nRtpTs vAudio) ≠ [] := by
    rw [← List.length_pos_iff, decodeFrames_length, hframes]
    exact hsome
  have hfree : ¬ Holds r (rtpSeq (s.buildPacket nSeq nRtpTs vAudio)) := by
    rw [rtpSeq_buildPacket, Holds, hempty]
    exact (Nat.succ_ne_zero _).symm
  rw [vJitter_handlePacket, if_pos ⟨isRtp_buildPacket s nSeq nRtpTs vAudio, hne, hfree⟩, rtpSeq_buildPacket,
    Function.update_self, hdecoded]

/-- Full scale on both ears and then silence. -/
theorem packet_round_trip_at_full_scale :
    ((handlePacket (RxConfig.ofSession {} 20) {} .primary
      (RtpSender.buildPacket {} 7 0 [8388607, -8388607, 0, 0]) 0).1.vJitter (slotOf 7)).vSamples =
      [⟨8388607 / 8388608, -8388607 / 8388608⟩, ⟨0 / 8388608, 0 / 8388608⟩] := by
  rw [packet_round_trip {} (RxConfig.ofSession {} 20) {} .primary 7 0 [8388607, -8388607, 0, 0] 0 2 (by norm_num) rfl
    (by simp) rfl rfl rfl rfl]
  norm_num [List.range_succ]

end PiAudioNode.Rtp
