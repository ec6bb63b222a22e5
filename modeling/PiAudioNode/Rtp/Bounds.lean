import PiAudioNode.Rtp.Receiver
import PiAudioNode.Rtp.SdpRoundTrip

/-! The octets that the receiver reads of a datagram and the samples it writes, with its
offsets and indices computed in 64 bits. -/
namespace PiAudioNode.Rtp
open Lib

abbrev Size := BitVec 64

section Definitions
variable (session : SdpSession) (monitor : Monitor) (pData : Bytes)

def nSize : Size := BitVec.ofNat 64 pData.length

def nHeader : Size := BitVec.ofNat 64 (headerSize pData)

def nPayload : Size := nSize pData - nHeader pData

def nBytesPerSample : Size := if session.nBitsPerSample = 16 then 2 else 3

def nChannels : Size := if 0 < session.nChannels then BitVec.ofInt 64 session.nChannels else 1

/-- Zero where the packet is left before, for want of a payload. -/
def nFrames : Size :=
  if nSize pData ≤ nHeader pData then 0 else nPayload pData / (nBytesPerSample session * nChannels session)

/-- The channel set for an ear if the stream has it. -/
def monitored (nMon : Int) (nChannels nOther : Size) : Size :=
  if 0 ≤ nMon ∧ BitVec.ofInt 64 nMon < nChannels then BitVec.ofInt 64 nMon else nOther

def nLeft : Size := monitored monitor.nMonLeft (nChannels session) 0

def nRight : Size :=
  monitored monitor.nMonRight (nChannels session) (if 2 ≤ nChannels session then 1 else nLeft session monitor)

/-- The offsets of the header fields. -/
def headerOctets : List Size := [0, 2, 3, 4, 5, 6, 7]

/-- The offsets of one sample. -/
def sampleOctets (nIndex : Size) : List Size :=
  (List.range (nBytesPerSample session).toNat).map fun k =>
    nHeader pData + nIndex * nBytesPerSample session + BitVec.ofNat 64 k

/-- The indices of the samples that go into a frame. -/
def frameSamples (nFrame : Nat) : List Size :=
  [BitVec.ofNat 64 nFrame * nChannels session + nLeft session monitor,
    BitVec.ofNat 64 nFrame * nChannels session + nRight session monitor]

/-- The offsets that the loop over the frames reads. -/
def payloadOctets : List Size :=
  (List.range (nFrames session pData).toNat).flatMap fun nFrame =>
    (frameSamples session monitor nFrame).flatMap (sampleOctets session pData)

/-- The indices that the loop writes. -/
def writtenSamples : List Size :=
  (List.range (nFrames session pData).toNat).flatMap fun nFrame =>
    [BitVec.ofNat 64 nFrame * 2, BitVec.ofNat 64 nFrame * 2 + 1]

/-- Every read is inside the datagram and every write inside the samples of the slot. -/
structure InBounds : Prop where
  header : ∀ nOffset ∈ headerOctets, nOffset.toNat < pData.length
  divisor : nBytesPerSample session * nChannels session ≠ 0
  reads : ∀ nOffset ∈ payloadOctets session monitor pData, nOffset.toNat < pData.length
  frames : (nFrames session pData).toNat = (pData.length - headerSize pData) / (bytesPerSample session * channels session)
  writes : (writtenSamples session pData).map BitVec.toNat = List.range (2 * (nFrames session pData).toNat)
  size : (nFrames session pData * 2).toNat = 2 * (nFrames session pData).toNat

/-- One sample from its octets. -/
def sampleValue : Bytes → ℚ
  | [a, b] => (a ++ b).toInt / 32768
  | [a, b, c] => (a ++ b ++ c).toInt / 8388608
  | _ => 0

/-- The sample that the loop reads for an index. -/
def sampleAt (nIndex : Size) : ℚ :=
  sampleValue ((sampleOctets session pData nIndex).map fun nOffset => byteAt pData nOffset.toNat)

/-- The frames that the loop writes. -/
def framesRead : List Frame :=
  (List.range (nFrames session pData).toNat).map fun nFrame =>
    { left := sampleAt session pData (BitVec.ofNat 64 nFrame * nChannels session + nLeft session monitor)
      right := sampleAt session pData (BitVec.ofNat 64 nFrame * nChannels session + nRight session monitor) }

end Definitions

section Exact
variable {session : SdpSession} {monitor : Monitor} {pData : Bytes}

theorem nBytesPerSample_eq (session : SdpSession) : nBytesPerSample session = BitVec.ofNat 64 (bytesPerSample session) := by
  rw [nBytesPerSample, bytesPerSample]
  split_ifs <;> rfl

theorem nChannels_eq (session : SdpSession) : nChannels session = BitVec.ofNat 64 (channels session) := by
  rw [nChannels, channels]
  split_ifs with hpos
  · rw [← BitVec.ofInt_natCast, Int.toNat_of_nonneg hpos.le]
  · rfl

theorem toNat_ofNat_of_lt {n : Nat} (h : n < 2 ^ 64) : (BitVec.ofNat 64 n).toNat = n := by
  rw [BitVec.toNat_ofNat, Nat.mod_eq_of_lt h]

theorem channels_lt (h : Fits session.nChannels) : channels session < 2 ^ 31 := by
  have hmax := h.2
  rw [channels]
  split_ifs <;> omega

theorem block_lt (h : Fits session.nChannels) : bytesPerSample session * channels session < 2 ^ 64 := by
  have hlt := channels_lt h
  rcases bytesPerSample_cases session with h | h <;> rw [h] <;> omega

theorem toNat_block (h : Fits session.nChannels) :
    (nBytesPerSample session * nChannels session).toNat = bytesPerSample session * channels session := by
  rw [nBytesPerSample_eq, nChannels_eq, ← BitVec.ofNat_mul]
  exact toNat_ofNat_of_lt (block_lt h)

theorem monitored_eq {nMon : Int} {nCount nOther : Nat} (hmon : Fits nMon) (hcount : nCount < 2 ^ 31) :
    monitored nMon (BitVec.ofNat 64 nCount) (BitVec.ofNat 64 nOther) =
      BitVec.ofNat 64 (if 0 ≤ nMon ∧ nMon < nCount then nMon.toNat else nOther) := by
  have hmax := hmon.2
  by_cases hpos : 0 ≤ nMon
  · have hword : BitVec.ofInt 64 nMon = BitVec.ofNat 64 nMon.toNat := by
      rw [← BitVec.ofInt_natCast, Int.toNat_of_nonneg hpos]
    have hlt : BitVec.ofNat 64 nMon.toNat < BitVec.ofNat 64 nCount ↔ nMon < nCount := by
      rw [BitVec.lt_def, toNat_ofNat_of_lt (by omega), toNat_ofNat_of_lt (by omega)]
      omega
    rw [monitored, hword]
    simp only [hlt]
    split_ifs <;> rfl
  · rw [monitored, if_neg fun h => hpos h.1, if_neg fun h => hpos h.1]

theorem nLeft_eq (hchannels : Fits session.nChannels) (hmon : Fits monitor.nMonLeft) :
    nLeft session monitor = BitVec.ofNat 64 (monitor.left (channels session)) := by
  rw [nLeft, nChannels_eq]
  exact monitored_eq hmon (channels_lt hchannels)

theorem nRight_eq (hchannels : Fits session.nChannels) (hleft : Fits monitor.nMonLeft) (hright : Fits monitor.nMonRight) :
    nRight session monitor = BitVec.ofNat 64 (monitor.right (channels session)) := by
  have hlt := channels_lt hchannels
  have hsecond : (2 : Size) ≤ BitVec.ofNat 64 (channels session) ↔ 2 ≤ channels session := by
    rw [BitVec.le_def, toNat_ofNat_of_lt (by omega)]
    rfl
  have hother : (if (2 : Size) ≤ BitVec.ofNat 64 (channels session) then 1 else nLeft session monitor) =
      BitVec.ofNat 64 (if 2 ≤ channels session then 1 else monitor.left (channels session)) := by
    simp only [hsecond, nLeft_eq hchannels hleft]
    split_ifs <;> rfl
  rw [nRight, nChannels_eq, hother, monitored_eq hright hlt, Monitor.right]

theorem headerSize_lt (pData : Bytes) : headerSize pData < 76 := by
  have hcount : (byteAt pData 0 &&& 0x0f).toNat ≤ 15 := by
    rw [BitVec.toNat_and]
    exact Nat.and_le_right
  rw [headerSize]
  omega

/-- The frames are counted as in unbounded numbers. -/
theorem toNat_nFrames (hsize : pData.length < 2 ^ 64) (hchannels : Fits session.nChannels) :
    (nFrames session pData).toNat = payloadFrames session pData := by
  have hheader := headerSize_lt pData
  have hguard : nSize pData ≤ nHeader pData ↔ pData.length ≤ headerSize pData := by
    rw [nSize, nHeader, BitVec.le_def, toNat_ofNat_of_lt hsize, toNat_ofNat_of_lt (by omega)]
  rw [nFrames, payloadFrames]
  by_cases hshort : pData.length ≤ headerSize pData
  · rw [if_pos (hguard.mpr hshort), Nat.sub_eq_zero_of_le hshort, Nat.zero_div]
    rfl
  · have hpayload : (nPayload pData).toNat = pData.length - headerSize pData := by
      rw [nPayload, nSize, nHeader, BitVec.toNat_sub_of_le, toNat_ofNat_of_lt hsize, toNat_ofNat_of_lt (by omega)]
      rw [BitVec.le_def, toNat_ofNat_of_lt hsize, toNat_ofNat_of_lt (by omega)]
      omega
    rw [if_neg fun h => hshort (hguard.mp h), BitVec.toNat_udiv, hpayload, toNat_block hchannels]

/-- The last octet of the last sample is in the payload. -/
theorem offset_lt {nFrame nChannel k : Nat} (hframe : nFrame < payloadFrames session pData)
    (hchannel : nChannel < channels session) (hk : k < bytesPerSample session) :
    headerSize pData + (nFrame * channels session + nChannel) * bytesPerSample session + k < pData.length := by
  have hall : (nFrame + 1) * (bytesPerSample session * channels session) ≤ pData.length - headerSize pData :=
    (Nat.le_div_iff_mul_le (block_pos session)).mp hframe
  have hsample : (nFrame * channels session + nChannel + 1) * bytesPerSample session ≤
      (nFrame + 1) * (bytesPerSample session * channels session) := by
    calc (nFrame * channels session + nChannel + 1) * bytesPerSample session
        ≤ (nFrame * channels session + channels session) * bytesPerSample session := Nat.mul_le_mul_right _ (by omega)
      _ = (nFrame + 1) * (bytesPerSample session * channels session) := by ring
  rw [add_mul, one_mul] at hsample
  omega

/-- Counted in 64 bits the octets of a sample are where they are. -/
theorem sampleOctets_eq (session : SdpSession) (pData : Bytes) (nIndex : Nat) :
    sampleOctets session pData (BitVec.ofNat 64 nIndex) = (List.range (bytesPerSample session)).map fun k =>
      BitVec.ofNat 64 (headerSize pData + nIndex * bytesPerSample session + k) := by
  have hbytes : (BitVec.ofNat 64 (bytesPerSample session)).toNat = bytesPerSample session := by
    refine toNat_ofNat_of_lt ?_
    rcases bytesPerSample_cases session with h | h <;> rw [h] <;> norm_num
  rw [sampleOctets, nBytesPerSample_eq, hbytes]
  refine List.map_congr_left fun k _ => ?_
  rw [nHeader, BitVec.ofNat_add, BitVec.ofNat_add, BitVec.ofNat_mul]

theorem frameSamples_eq (hchannels : Fits session.nChannels) (hleft : Fits monitor.nMonLeft)
    (hright : Fits monitor.nMonRight) (nFrame : Nat) : frameSamples session monitor nFrame =
      [BitVec.ofNat 64 (nFrame * channels session + monitor.left (channels session)),
        BitVec.ofNat 64 (nFrame * channels session + monitor.right (channels session))] := by
  rw [frameSamples, nLeft_eq hchannels hleft, nRight_eq hchannels hleft hright, nChannels_eq, BitVec.ofNat_add,
    BitVec.ofNat_add, BitVec.ofNat_mul]

end Exact

section Bounds
variable {session : SdpSession} {monitor : Monitor} {pData : Bytes}

theorem payloadOctets_lt (hsize : pData.length < 2 ^ 64) (hchannels : Fits session.nChannels)
    (hleft : Fits monitor.nMonLeft) (hright : Fits monitor.nMonRight) :
    ∀ nOffset ∈ payloadOctets session monitor pData, nOffset.toNat < pData.length := by
  intro nOffset hmem
  obtain ⟨nFrame, hframe, hmem⟩ := List.mem_flatMap.mp hmem
  rw [toNat_nFrames hsize hchannels] at hframe
  obtain ⟨nIndex, hindex, hoctet⟩ := List.mem_flatMap.mp hmem
  obtain ⟨nChannel, hchannel, rfl⟩ : ∃ nChannel < channels session,
      nIndex = BitVec.ofNat 64 (nFrame * channels session + nChannel) := by
    rw [frameSamples_eq hchannels hleft hright, List.mem_cons, List.mem_singleton] at hindex
    rcases hindex with h | h
    · exact ⟨_, left_lt monitor (channels_pos session), h⟩
    · exact ⟨_, right_lt monitor (channels_pos session), h⟩
  rw [sampleOctets_eq] at hoctet
  obtain ⟨k, hk, rfl⟩ := List.mem_map.mp hoctet
  have hlt := offset_lt (List.mem_range.mp hframe) hchannel (List.mem_range.mp hk)
  rwa [toNat_ofNat_of_lt (hlt.trans hsize)]

/-- Two indices for each frame, one after the other. -/
theorem writtenSamples_eq (hframes : (nFrames session pData).toNat < 2 ^ 63) :
    (writtenSamples session pData).map BitVec.toNat = List.range (2 * (nFrames session pData).toNat) := by
  rw [writtenSamples]
  generalize (nFrames session pData).toNat = n at hframes
  induction n with
  | zero => rfl
  | succ n ih =>
    have hleft : (BitVec.ofNat 64 n * 2).toNat = 2 * n := by
      rw [BitVec.toNat_mul, toNat_ofNat_of_lt (by omega)]
      have htwo : (2 : Size).toNat = 2 := rfl
      rw [htwo]
      omega
    have hright : (BitVec.ofNat 64 n * 2 + 1).toNat = 2 * n + 1 := by
      rw [BitVec.toNat_add, hleft]
      have hone : (1 : Size).toNat = 1 := rfl
      rw [hone]
      omega
    have htwice : 2 * (n + 1) = 2 * n + 1 + 1 := by ring
    rw [List.range_succ, List.flatMap_append, List.map_append, ih (by omega), htwice, List.range_succ, List.range_succ]
    simp only [List.flatMap_cons, List.flatMap_nil, List.map_cons, List.map_nil, List.append_nil, List.append_assoc,
      List.cons_append, List.nil_append, hleft, hright]

theorem toNat_nFrames_lt (hsize : pData.length < 2 ^ 64) (hchannels : Fits session.nChannels) :
    (nFrames session pData).toNat < 2 ^ 63 := by
  have hblock : 2 ≤ bytesPerSample session * channels session := by
    have hpos := channels_pos session
    rcases bytesPerSample_cases session with h | h <;> rw [h] <;> omega
  rw [toNat_nFrames hsize hchannels, payloadFrames]
  calc (pData.length - headerSize pData) / (bytesPerSample session * channels session)
      ≤ (pData.length - headerSize pData) / 2 := Nat.div_le_div_left hblock (by norm_num)
    _ < 2 ^ 63 := by omega

theorem inBounds (hlong : 12 < pData.length) (hsize : pData.length < 2 ^ 64) (hchannels : Fits session.nChannels)
    (hleft : Fits monitor.nMonLeft) (hright : Fits monitor.nMonRight) : InBounds session monitor pData := by
  have hfew := toNat_nFrames_lt hsize hchannels
  refine ⟨fun nOffset hmem => ?_, ?_, payloadOctets_lt hsize hchannels hleft hright, toNat_nFrames hsize hchannels,
    writtenSamples_eq hfew, ?_⟩
  · have hlast : ∀ nOffset ∈ headerOctets, nOffset.toNat ≤ 7 := by simp [headerOctets]
    have hle := hlast nOffset hmem
    omega
  · intro hzero
    have htoNat := congrArg BitVec.toNat hzero
    rw [toNat_block hchannels] at htoNat
    exact (block_pos session).ne' htoNat
  · rw [BitVec.toNat_mul]
    have htwo : (2 : Size).toNat = 2 := rfl
    rw [htwo]
    omega

/-- The octets that the loop reads for an index are the ones the sample is made of. -/
theorem sampleAt_eq_decode (hsize : pData.length < 2 ^ 64) {nFrame nChannel : Nat}
    (hframe : nFrame < payloadFrames session pData) (hchannel : nChannel < channels session) :
    sampleAt session pData (BitVec.ofNat 64 (nFrame * channels session + nChannel)) =
      decode (bytesPerSample session) (pData.drop (headerSize pData)) (nFrame * channels session + nChannel) := by
  have hoctets : (sampleOctets session pData (BitVec.ofNat 64 (nFrame * channels session + nChannel))).map
      (fun nOffset => byteAt pData nOffset.toNat) = (List.range (bytesPerSample session)).map fun k =>
        byteAt (pData.drop (headerSize pData)) ((nFrame * channels session + nChannel) * bytesPerSample session + k) := by
    rw [sampleOctets_eq, List.map_map]
    refine List.map_congr_left fun k hk => ?_
    have hlt := offset_lt hframe hchannel (List.mem_range.mp hk)
    rw [Function.comp_apply, toNat_ofNat_of_lt (hlt.trans hsize), byteAt, byteAt]
    simp [add_assoc]
  rw [sampleAt, hoctets]
  rcases bytesPerSample_cases session with h | h
  · rw [h]
    rfl
  · rw [h]
    rfl

/-- The frames of a packet are the samples that the loop reads. -/
theorem decodeFrames_eq_framesRead (hsize : pData.length < 2 ^ 64) (hchannels : Fits session.nChannels)
    (hleft : Fits monitor.nMonLeft) (hright : Fits monitor.nMonRight) :
    decodeFrames session monitor pData = framesRead session monitor pData := by
  rw [decodeFrames, framesRead, toNat_nFrames hsize hchannels]
  refine List.map_congr_left fun nFrame hmem => ?_
  have hframe := List.mem_range.mp hmem
  rw [nLeft_eq hchannels hleft, nRight_eq hchannels hleft hright, nChannels_eq, ← BitVec.ofNat_mul, ← BitVec.ofNat_add,
    ← BitVec.ofNat_add, sampleAt_eq_decode hsize hframe (left_lt monitor (channels_pos session)),
    sampleAt_eq_decode hsize hframe (right_lt monitor (channels_pos session))]

section Slots
variable {cfg : RxConfig} {r : RtpReceiver} {nLeg : Leg} {now : Time}

/-- A packet without a whole frame leaves the slots. -/
theorem slots_of_no_frame (h : payloadFrames cfg.session pData = 0) :
    (handlePacket cfg r nLeg pData now).1.vJitter = r.vJitter := by
  have hnone : decodeFrames cfg.session r.monitor pData = [] := by
    rw [← List.length_eq_zero_iff, decodeFrames_length, h]
  rw [vJitter_handlePacket, if_neg fun h => h.2.1 hnone]

/-- Only the slot of its number takes the frames of a packet. -/
theorem slot_cases (nSlot : SlotIndex) :
    (handlePacket cfg r nLeg pData now).1.vJitter nSlot = r.vJitter nSlot ∨
      nSlot = slotOf (rtpSeq pData) ∧
        ((handlePacket cfg r nLeg pData now).1.vJitter nSlot).vSamples = decodeFrames cfg.session r.monitor pData := by
  rw [vJitter_handlePacket]
  split_ifs
  · by_cases hslot : nSlot = slotOf (rtpSeq pData)
    · subst hslot
      exact Or.inr ⟨rfl, by rw [Function.update_self]⟩
    · exact Or.inl (Function.update_of_ne hslot _ _)
  · exact Or.inl rfl

end Slots

end Bounds

end PiAudioNode.Rtp
