import Mathlib

/-! Session descriptions of RTP streams. -/
namespace PiAudioNode.Rtp

structure SdpLeg where
  sMid : String := ""
  sMulticast : String := ""
  sSourceFilter : String := ""
  nPort : BitVec 16 := 5004
  deriving DecidableEq, Inhabited

structure SdpSession where
  sName : String := ""
  vLegs : List SdpLeg := []
  nPayloadType : Int := 96
  nSampleRate : Int := 48000
  nChannels : Int := 2
  nBitsPerSample : Int := 24
  dPacketTimeMs : ℚ := 1
  sPtpGrandmaster : String := ""
  nPtpDomain : Int := 0
  deriving DecidableEq, Inhabited

end PiAudioNode.Rtp
