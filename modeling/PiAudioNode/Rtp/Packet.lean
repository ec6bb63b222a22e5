import PiAudioNode.Lib.Word
import PiAudioNode.Rtp.Sdp

/-! The datagrams the receiver reads: the RTP header fields and the payload as
stereo frames. -/
namespace PiAudioNode.Rtp
open Lib

/-- One sample for each ear, as a fraction of full scale. -/
structure Frame where
  left : ℚ
  right : ℚ
  deriving DecidableEq

def isRtp (pData : Bytes) : Bool := byteAt pData 0 &&& 0xc0 == 0x80

def rtpSeq (pData : Bytes) : BitVec 16 := get16 pData 2
def rtpTs (pData : Bytes) : BitVec 32 := get32 pData 4

/-- The fixed header and the CSRC list. -/
def headerSize (pData : Bytes) : Nat := 12 + (byteAt pData 0 &&& 0x0f).toNat * 4

def bytesPerSample (session : SdpSession) : Nat := if session.nBitsPerSample = 16 then 2 else 3

def channels (session : SdpSession) : Nat := if 0 < session.nChannels then session.nChannels.toNat else 1

/-- One sample of the payload, two or three octets big-endian. -/
def decode (nBytesPerSample : Nat) (pPayload : Bytes) (nIndex : Nat) : ℚ :=
  let p (k : Nat) := byteAt pPayload (nIndex * nBytesPerSample + k)
  if nBytesPerSample = 2 then (p 0 ++ p 1).toInt / 32768
  else (p 0 ++ p 1 ++ p 2).toInt / 8388608

/-- Which source channel plays on which ear, -1 for the first pair. -/
structure Monitor where
  nMonLeft : Int := -1
  nMonRight : Int := -1

def Monitor.left (m : Monitor) (nChannels : Nat) : Nat :=
  if 0 ≤ m.nMonLeft ∧ m.nMonLeft < nChannels then m.nMonLeft.toNat else 0

def Monitor.right (m : Monitor) (nChannels : Nat) : Nat :=
  if 0 ≤ m.nMonRight ∧ m.nMonRight < nChannels then m.nMonRight.toNat
  else if 2 ≤ nChannels then 1 else m.left nChannels

def payloadFrames (session : SdpSession) (pData : Bytes) : Nat :=
  (pData.length - headerSize pData) / (bytesPerSample session * channels session)

/-- The frames a packet carries; none where its payload holds no whole frame. -/
def decodeFrames (session : SdpSession) (monitor : Monitor) (pData : Bytes) : List Frame :=
  let pPayload := pData.drop (headerSize pData)
  let nChannels := channels session
  (List.range (payloadFrames session pData)).map fun nFrame =>
    { left := decode (bytesPerSample session) pPayload (nFrame * nChannels + monitor.left nChannels)
      right := decode (bytesPerSample session) pPayload (nFrame * nChannels + monitor.right nChannels) }

theorem decodeFrames_length (session : SdpSession) (monitor : Monitor) (pData : Bytes) :
    (decodeFrames session monitor pData).length = payloadFrames session pData := by
  simp [decodeFrames]

theorem bytesPerSample_cases (session : SdpSession) : bytesPerSample session = 2 ∨ bytesPerSample session = 3 := by
  rw [bytesPerSample]
  split_ifs
  · exact Or.inl rfl
  · exact Or.inr rfl

theorem channels_pos (session : SdpSession) : 0 < channels session := by
  rw [channels]
  split_ifs <;> omega

/-- The octets of one frame. -/
theorem block_pos (session : SdpSession) : 0 < bytesPerSample session * channels session := by
  have hpos := channels_pos session
  rcases bytesPerSample_cases session with h | h <;> rw [h] <;> omega

/-- An ear hears a channel that the stream has. -/
theorem left_lt (monitor : Monitor) {n : Nat} (h : 0 < n) : monitor.left n < n := by
  rw [Monitor.left]
  split_ifs <;> omega

theorem right_lt (monitor : Monitor) {n : Nat} (h : 0 < n) : monitor.right n < n := by
  have hleft := left_lt monitor h
  rw [Monitor.right]
  split_ifs <;> omega

/-- A packet of stereo L24 silence. -/
def silentPacket (nSeq : BitVec 16) (nFrames : Nat) : Bytes :=
  [0x80, 96, nSeq.extractLsb' 8 8, nSeq.extractLsb' 0 8, 0, 0, 0, 0, 0, 0, 0, 0] ++ List.replicate (6 * nFrames) 0

theorem length_silentPacket (nSeq : BitVec 16) (nFrames : Nat) :
    (silentPacket nSeq nFrames).length = 12 + 6 * nFrames := by
  rw [silentPacket, List.length_append, List.length_replicate]
  rfl

theorem isRtp_silentPacket (nSeq : BitVec 16) (nFrames : Nat) : isRtp (silentPacket nSeq nFrames) = true := by
  have hfirst : byteAt (silentPacket nSeq nFrames) 0 = 0x80 := rfl
  rw [isRtp, hfirst]
  decide

theorem rtpSeq_silentPacket (nSeq : BitVec 16) (nFrames : Nat) : rtpSeq (silentPacket nSeq nFrames) = nSeq := by
  have hjoin : nSeq.extractLsb' 8 8 ++ nSeq.extractLsb' 0 8 = nSeq := BitVec.extractLsb'_append_extractLsb'
  exact hjoin

theorem payloadFrames_silentPacket {session : SdpSession} (hbytes : bytesPerSample session = 3)
    (hchannels : channels session = 2) (nSeq : BitVec 16) (nFrames : Nat) :
    payloadFrames session (silentPacket nSeq nFrames) = nFrames := by
  rw [payloadFrames, hbytes, hchannels]
  simp [silentPacket, headerSize, byteAt]

end PiAudioNode.Rtp
