import PiAudioNode.Config
import PiAudioNode.Ptp.Servo
import PiAudioNode.Rtp.Sender
import PiAudioNode.Rtp.SdpRoundTrip

/-! The description the sender publishes of itself, against the packets it sends. -/
namespace PiAudioNode.Rtp
open Lib Lib.Json Ptp

namespace RtpSender

/-- The legs that are switched on. -/
def enabledLegs (s : RtpSender) : List Nat := (List.range s.vLegs.length).filter fun nLeg => s.legEnabled nLeg

/-- A leg of the description; a mid tells the legs of a pair apart. -/
def describeLeg (s : RtpSender) (nLeg : Nat) : SdpLeg where
  sMid := if 1 < s.enabledLegs.length then if nLeg = 0 then "PRI" else "SEC" else ""
  sMulticast := (s.vLegs[nLeg]?.map SenderLeg.sMulticast).getD ""
  sSourceFilter := s.vSourceIps[nLeg]?.getD ""
  nPort := s.nPort

def describeSession (config : Config) (c : Ptp.PtpClock) (s : RtpSender) : SdpSession where
  sName :=
    let sLabel := config.getValue getString "sender.label" ""
    if sLabel = "" then "pi-audio-node " ++ s.sSourceName else sLabel
  nPayloadType := s.nPayloadType
  dPacketTimeMs := toDouble (s.nPacketTimeUs / 1000)
  sPtpGrandmaster := grandmasterId c.toPtpClient
  vLegs := s.enabledLegs.map s.describeLeg

/-- The description as its two endpoints write it. -/
def transportFile (nSessId : Nat) (config : Config) (c : Ptp.PtpClock) (s : RtpSender) : String :=
  generateSdp nSessId (s.describeSession config c) (s.vSourceIps.headD "0.0.0.0") s.vSourceIps

end RtpSender

def rtpPayloadType (pData : Bytes) : Nat := (byteAt pData 1 &&& 0x7f).toNat

section Definitions
variable (c : Ptp.PtpClock) (s : RtpSender)

/-- What a receiver reads is what the sender sends, and the clock it follows. -/
structure Truthful (read : SdpSession) : Prop where
  legs : ∀ pPacket, read.vLegs.map (fun leg => (inetPton leg.sMulticast, leg.nPort)) =
    (s.sendRound pPacket).map fun x => (some x.1.address, x.1.nPort)
  payloadType : ∀ nSeq nRtpTs vAudio, read.nPayloadType = rtpPayloadType (s.buildPacket nSeq nRtpTs vAudio)
  format : (read.nBitsPerSample, read.nSampleRate, read.nChannels) = (24, (sampleRate : Int), 2)
  packetTime : read.dPacketTimeMs = s.nFramesPerPacket * 1000 / sampleRate
  grandmaster : read.sPtpGrandmaster = grandmasterId c.toPtpClient
  domain : grandmasterId c.toPtpClient ≠ "" → read.nPtpDomain = c.nDomain

/-- The published description reads as a true one, or as none while nothing is sent. -/
def Advertised (nSessId : Nat) (config : Config) : Prop :=
  match parseSdp (s.transportFile nSessId config c) with
  | some read => Truthful c s read
  | none => ∀ pPacket, s.sendRound pPacket = []

/-- The texts that go into the description have no line of their own. -/
structure OneLine (config : Config) : Prop where
  name : '\n' ∉ quote (s.describeSession config c).sName
  legs : ∀ leg ∈ (s.describeSession config c).vLegs, '\n' ∉ quote leg.sMulticast

/-- The settings that the description can tell: it is sent to addresses that read as
the ones the sockets have, under a payload type of seven bits, in packets of a duration
with six digits, and the clock is that of domain 0. -/
structure Publishable : Prop where
  addresses : ∀ nLeg ∈ s.enabledLegs, ∀ leg, s.vLegs[nLeg]? = some leg →
    inetPton (carried leg.sMulticast) = some (RtpSender.destination s.nPort leg).address
  payloadType : 0 ≤ s.nPayloadType ∧ s.nPayloadType < 128
  packetTime : toDouble (sixSignificant (toDouble (s.nPacketTimeUs / 1000))) = s.nFramesPerPacket * 1000 / sampleRate
  domain : grandmasterId c.toPtpClient ≠ "" → c.nDomain = 0

end Definitions

/-- A sender as a `Configure` that succeeded leaves it, whatever its switches are. -/
structure Running (s : RtpSender) : Prop where
  run : s.bRun
  opened : s.vSockets = s.vLegs.map (RtpSender.destination s.nPort)
  sources : ∀ sIp ∈ s.vSourceIps, '\n' ∉ quote sIp
  payloadType : Fits s.nPayloadType
  packetTime : 125 ≤ s.nPacketTimeUs

section Facts
variable {c : Ptp.PtpClock} {s : RtpSender} {config : Config}

theorem inline_grandmasterId (c : PtpClient) : '\n' ∉ quote (grandmasterId c) := by
  unfold grandmasterId
  split
  · intro hc
    have hdigit : ∀ n < 16, Nat.digitChar n ≠ '\n' := by decide
    exact forall_identityToString (p := (· ≠ '\n')) (by decide) hdigit _ _ hc rfl
  · simp [quote]

theorem describable (h : Running s) (hline : OneLine c s config) :
    Describable (s.describeSession config c) (s.vSourceIps.headD "0.0.0.0") s.vSourceIps := by
  refine ⟨hline.name, ?_, h.sources, fun leg hleg => ⟨hline.legs leg hleg, ?_⟩, inline_grandmasterId _⟩
  · cases hips : s.vSourceIps with
    | nil => simp [quote]
    | cons sIp rest => exact h.sources sIp (by simp [hips])
  · obtain ⟨nLeg, -, rfl⟩ := List.mem_map.mp hleg
    rcases Option.eq_none_or_eq_some s.vSourceIps[nLeg]? with hnone | ⟨sIp, hsome⟩
    · simp [RtpSender.describeLeg, hnone, quote]
    · simp only [RtpSender.describeLeg, hsome, Option.getD_some]
      exact h.sources sIp (List.mem_of_getElem? hsome)

theorem printable (h : Running s) : Printable (s.describeSession config c) := by
  have hbits : Fits 24 := ⟨by norm_num, by norm_num⟩
  have hrate : Fits 48000 := ⟨by norm_num, by norm_num⟩
  have hchannels : Fits 2 := ⟨by norm_num, by norm_num⟩
  have hdomain : Fits 0 := ⟨by norm_num, by norm_num⟩
  refine ⟨h.payloadType, hbits, hrate, hchannels, by norm_num [RtpSender.describeSession], ?_, hdomain⟩
  · have hmin : (125 : ℚ) ≤ s.nPacketTimeUs := by exact_mod_cast h.packetTime
    refine toDouble_pos (x := s.nPacketTimeUs / 1000) ?_
    calc (2 : ℚ) ^ (-1022 : Int) ≤ 2 ^ (-3 : Int) := zpow_le_zpow_right₀ (by norm_num) (by norm_num)
      _ = 125 / 1000 := by norm_num
      _ ≤ s.nPacketTimeUs / 1000 := by gcongr

theorem enabledLegs_cases (s : RtpSender) :
    s.enabledLegs = [] ∨ s.enabledLegs = [0] ∨ s.enabledLegs = [1] ∨ s.enabledLegs = [0, 1] := by
  have hswitches (nLeg : Nat) : ¬ s.legEnabled (nLeg + 2) := by
    rw [RtpSender.legEnabled, Vector.getElem?_eq_none (by omega)]
    exact Bool.false_ne_true
  have hmore (n : Nat) : (List.range (n + 2)).filter (fun nLeg => s.legEnabled nLeg) =
      [0, 1].filter fun nLeg => s.legEnabled nLeg := by
    have hrange : List.range (n + 2) = [0, 1] ++ (List.range n).map (· + 2) := by
      simp [List.range_succ_eq_map]
    have hnone : ((List.range n).map (· + 2)).filter (fun nLeg => s.legEnabled nLeg) = [] := by
      refine List.filter_eq_nil_iff.mpr fun nLeg hmem => ?_
      obtain ⟨i, -, rfl⟩ := List.mem_map.mp hmem
      exact hswitches i
    rw [hrange, List.filter_append, hnone, List.append_nil]
  rw [RtpSender.enabledLegs]
  rcases s.vLegs.length with _ | _ | n
  · exact Or.inl rfl
  · by_cases h : s.legEnabled 0 <;> simp [List.range_succ, h]
  · rw [hmore]
    by_cases h : s.legEnabled 0 <;> by_cases h' : s.legEnabled 1 <;> simp [h, h']

theorem grouped (h : s.enabledLegs ≠ []) : Grouped (s.describeSession config c) := by
  rcases enabledLegs_cases s with hlegs | hlegs | hlegs | hlegs
  · exact absurd hlegs h
  · exact Or.inl (by simp [RtpSender.describeSession, hlegs])
  · exact Or.inl (by simp [RtpSender.describeSession, hlegs])
  · exact Or.inr (by simp [RtpSender.describeSession, RtpSender.describeLeg, hlegs])

theorem running_vLegs (h : Running s) {nLeg : Nat} {leg : SenderLeg} (hleg : s.vLegs[nLeg]? = some leg) :
    s.vSockets[nLeg]! = RtpSender.destination s.nPort leg := by
  rw [h.opened, List.getElem!_eq_getElem?_getD, List.getElem?_map, hleg]
  rfl

/-- The round of the loop goes over the legs that are switched on. -/
theorem sendRound_eq (h : Running s) (pPacket : Bytes) :
    s.sendRound pPacket = s.enabledLegs.map fun nLeg => (s.vSockets[nLeg]!, pPacket) := by
  have hlength : s.vSockets.length = s.vLegs.length := by rw [h.opened, List.length_map]
  rw [RtpSender.sendRound, RtpSender.enabledLegs, hlength]
  congr 1
  refine List.filter_congr fun nLeg hmem => ?_
  have hlt := List.mem_range.mp hmem
  simp [RtpSender.SendsOn, h.run, hlength, hlt]

theorem rtpPayloadType_buildPacket (s : RtpSender) (nSeq : BitVec 16) (nRtpTs : BitVec 32) (vAudio : List Int) :
    s.nPayloadType = rtpPayloadType (s.buildPacket nSeq nRtpTs vAudio) ↔ 0 ≤ s.nPayloadType ∧ s.nPayloadType < 128 := by
  have hoctet : byteAt (s.buildPacket nSeq nRtpTs vAudio) 1 = BitVec.ofInt 8 s.nPayloadType := rfl
  have hlow : rtpPayloadType (s.buildPacket nSeq nRtpTs vAudio) = (s.nPayloadType % 256).toNat % 128 := by
    rw [rtpPayloadType, hoctet, BitVec.toNat_and, BitVec.toNat_ofInt]
    exact Nat.and_two_pow_sub_one_eq_mod _ 7
  rw [hlow]
  omega

/-- A description that reads back is true in just those cases. -/
theorem readsTrue_iff (h : Running s) {read : SdpSession} (hread : ReadsBack (s.describeSession config c) read) :
    Truthful c s read ↔ Publishable c s := by
  have hwhere : read.vLegs.map (fun leg => (inetPton leg.sMulticast, leg.nPort)) =
      s.enabledLegs.map fun nLeg => (inetPton (carried (s.describeLeg nLeg).sMulticast), s.nPort) := by
    have hlegs := congrArg (List.map (Prod.map inetPton id)) hread.legs
    simpa [RtpSender.describeSession, RtpSender.describeLeg, Function.comp_def] using hlegs
  have hsent (pPacket : Bytes) : (s.sendRound pPacket).map (fun x => (some x.1.address, x.1.nPort)) =
      s.enabledLegs.map fun nLeg => (some s.vSockets[nLeg]!.address, s.vSockets[nLeg]!.nPort) := by
    rw [sendRound_eq h, List.map_map]
    rfl
  have hlegs : (∀ pPacket, read.vLegs.map (fun leg => (inetPton leg.sMulticast, leg.nPort)) =
      (s.sendRound pPacket).map fun x => (some x.1.address, x.1.nPort)) ↔
        ∀ nLeg ∈ s.enabledLegs, ∀ leg, s.vLegs[nLeg]? = some leg →
          inetPton (carried leg.sMulticast) = some (RtpSender.destination s.nPort leg).address := by
    simp only [hwhere, hsent, forall_const, List.map_inj_left]
    refine forall₂_congr fun nLeg hmem => ?_
    have hlt := List.mem_range.mp (List.mem_filter.mp hmem).1
    obtain ⟨leg, hleg⟩ : ∃ leg, s.vLegs[nLeg]? = some leg := ⟨_, List.getElem?_eq_getElem hlt⟩
    have haddress : (s.describeLeg nLeg).sMulticast = leg.sMulticast := by simp [RtpSender.describeLeg, hleg]
    have hsocket := running_vLegs h hleg
    have hport : (RtpSender.destination s.nPort leg).nPort = s.nPort := rfl
    simp [hleg, haddress, hsocket, hport]
  have hdomain : read.nPtpDomain = 0 := by
    rw [hread.domain]
    exact ite_self _
  constructor
  · intro htrue
    refine ⟨hlegs.mp htrue.legs, ?_, ?_, fun hfollows => ?_⟩
    · have hpt := htrue.payloadType 0 0 []
      rw [hread.payloadType] at hpt
      exact (rtpPayloadType_buildPacket s 0 0 []).mp hpt
    · rw [← htrue.packetTime, hread.packetTime]
      rfl
    · rw [← htrue.domain hfollows, hdomain]
  · intro hpub
    refine ⟨hlegs.mpr hpub.addresses, fun nSeq nRtpTs vAudio => ?_, ?_, ?_, hread.grandmaster, fun hfollows => ?_⟩
    · rw [hread.payloadType]
      exact (rtpPayloadType_buildPacket s nSeq nRtpTs vAudio).mpr hpub.payloadType
    · rw [hread.bits, hread.rate, hread.channels]
      rfl
    · rw [hread.packetTime, ← hpub.packetTime]
      rfl
    · rw [hdomain, hpub.domain hfollows]

theorem advertised_iff (h : Running s) (hline : OneLine c s config) (nSessId : Nat) :
    Advertised c s nSessId config ↔ (s.enabledLegs ≠ [] → Publishable c s) := by
  by_cases hnone : s.enabledLegs = []
  · have hlegs : (s.describeSession config c).vLegs = [] := by simp [RtpSender.describeSession, hnone]
    have hsilent (pPacket : Bytes) : s.sendRound pPacket = [] := by rw [sendRound_eq h, hnone, List.map_nil]
    rw [Advertised, RtpSender.transportFile, parse_empty (describable h hline) nSessId hlegs]
    exact ⟨fun _ hsome => absurd hnone hsome, fun _ => hsilent⟩
  · obtain ⟨read, hparse, hread⟩ := parse_generate (describable h hline) (printable h) (grouped hnone) nSessId
    rw [Advertised, RtpSender.transportFile, hparse]
    exact (readsTrue_iff h hread).trans ⟨fun hpub _ => hpub, fun hpub => hpub hnone⟩

theorem inline_inetNtop (address : BitVec 32) : '\n' ∉ quote (inetNtop address) := by
  have hdigits (n : Nat) : '\n' ∉ Nat.toDigits 10 n := fun hc => absurd (isDigit_toDigits hc) (by decide)
  simp [quote, inetNtop, hdigits]

theorem inline_interfaceIp (sys : SenderSystem) (sInterface : String) : '\n' ∉ quote (sys.interfaceIp sInterface) := by
  rw [SenderSystem.interfaceIp]
  cases sys.interfaceAddress sInterface with
  | none => simp [quote]
  | some address => exact inline_inetNtop address

/-- The loop over the legs leaves the settings, and adds the addresses of interfaces. -/
theorem openLegs_settings (sys : SenderSystem) : ∀ (vLegs : List SenderLeg) (s : RtpSender),
    (RtpSender.openLegs sys vLegs s).2.nPayloadType = s.nPayloadType ∧
      (RtpSender.openLegs sys vLegs s).2.nPacketTimeUs = s.nPacketTimeUs ∧
      ((∀ sIp ∈ s.vSourceIps, '\n' ∉ quote sIp) →
        ∀ sIp ∈ (RtpSender.openLegs sys vLegs s).2.vSourceIps, '\n' ∉ quote sIp)
  | [], s => ⟨rfl, rfl, id⟩
  | leg :: rest, s => by
    rw [RtpSender.openLegs]
    split
    · obtain ⟨hpt, htime, hsources⟩ := openLegs_settings sys rest (RtpSender.setLegEnabled s.vSockets.length leg.bEnabled
        { s with
          vSockets := s.vSockets ++ [RtpSender.destination s.nPort leg]
          vSourceIps := s.vSourceIps ++ [sys.interfaceIp leg.sInterface] })
      refine ⟨hpt, htime, fun h => hsources fun sIp hmem => ?_⟩
      rcases List.mem_append.mp hmem with hmem | hmem
      · exact h sIp hmem
      · rw [List.mem_singleton.mp hmem]
        exact inline_interfaceIp sys leg.sInterface
    · exact ⟨rfl, rfl, id⟩

theorem running_configure (sys : SenderSystem) {vLegs : List SenderLeg} {nPort : BitVec 16}
    {nPayloadType nPacketTimeUs : Int} {pSource : Option Audio.Source} {s₀ : RtpSender} (hpt : Fits nPayloadType)
    (h : (RtpSender.configure sys vLegs nPort nPayloadType nPacketTimeUs pSource s₀).1 = true) :
    Running (RtpSender.configure sys vLegs nPort nPayloadType nPacketTimeUs pSource s₀).2 := by
  have hopened := RtpSender.opened_configure sys vLegs nPort nPayloadType nPacketTimeUs pSource s₀
  cases vLegs with
  | nil => cases h
  | cons leg rest =>
    cases pSource with
    | none => cases h
    | some source =>
      simp only [RtpSender.configure] at h hopened ⊢
      generalize hstart : { s₀.stop with
        vLegs := leg :: rest, nPort := nPort, nPayloadType := nPayloadType
        nPacketTimeUs := max 125 nPacketTimeUs
        pSource := some source
        sSourceName := source.describe
        vSourceIps := [] } = start at h hopened ⊢
      have hfields : start.nPayloadType = nPayloadType ∧ start.nPacketTimeUs = max 125 nPacketTimeUs ∧
          start.vSourceIps = [] := by
        subst hstart
        exact ⟨rfl, rfl, rfl⟩
      obtain ⟨hpayload, htime, hsources⟩ := openLegs_settings sys (leg :: rest) start
      split_ifs at h hopened ⊢ with hopen
      · refine ⟨rfl, hopened rfl, hsources (by simp [hfields.2.2]), ?_, ?_⟩
        · rw [← hfields.1] at hpt
          exact hpayload ▸ hpt
        · rw [htime, hfields.2.1]
          exact le_max_left _ _
      · exact absurd h hopen

/-- Some switches of legs, one after the other. -/
def throwSwitches (switches : List (Nat × Bool)) (s : RtpSender) : RtpSender :=
  switches.foldl (fun s x => s.setLegEnabled x.1 x.2) s

theorem running_throwSwitches (switches : List (Nat × Bool)) (h : Running s) : Running (throwSwitches switches s) := by
  induction switches generalizing s with
  | nil => exact h
  | cons x rest ih => exact ih ⟨h.run, h.opened, h.sources, h.payloadType, h.packetTime⟩

/-- Packets of up to a second that are eighths of a millisecond have six digits. -/
theorem packetTime_of_eighths {k : Nat} (hpos : 0 < k) (hbelow : k < 8000) (h : s.nPacketTimeUs = 125 * k) :
    toDouble (sixSignificant (toDouble (s.nPacketTimeUs / 1000))) = s.nFramesPerPacket * 1000 / sampleRate := by
  have htime : (s.nPacketTimeUs / 1000 : ℚ) = k / 8 := by
    rw [h]
    push_cast
    ring
  have hframes : s.nFramesPerPacket = 6 * k := by
    rw [RtpSender.nFramesPerPacket, h]
    simp only [sampleRate]
    omega
  have hkept := eighths_kept hpos hbelow
  rw [htime, hkept.1, hkept.2, hkept.1, hframes]
  norm_num [sampleRate]
  ring

end Facts

/-- A sender that was configured with these settings, and switched since. -/
def switchedSender (sys : SenderSystem) (vLegs : List SenderLeg) (nPort : BitVec 16) (nPayloadType nPacketTimeUs : Int)
    (pSource : Option Audio.Source) (s₀ : RtpSender) (switches : List (Nat × Bool)) : RtpSender :=
  throwSwitches switches (RtpSender.configure sys vLegs nPort nPayloadType nPacketTimeUs pSource s₀).2

/-- For a sender that was started, with its switches in any position, and a clock in any
state: where its texts stay on their lines, the description is true if and only if the
settings are ones it can tell, or nothing is sent. -/
theorem advertised_iff_publishable (sys : SenderSystem) (vLegs : List SenderLeg) (nPort : BitVec 16)
    (nPayloadType nPacketTimeUs : Int) (pSource : Option Audio.Source) (s₀ : RtpSender) (switches : List (Nat × Bool))
    (config : Config) (c : Ptp.PtpClock) (nSessId : Nat) (hpt : Fits nPayloadType)
    (hstarted : (RtpSender.configure sys vLegs nPort nPayloadType nPacketTimeUs pSource s₀).1 = true)
    (hline : OneLine c (switchedSender sys vLegs nPort nPayloadType nPacketTimeUs pSource s₀ switches) config) :
    Advertised c (switchedSender sys vLegs nPort nPayloadType nPacketTimeUs pSource s₀ switches) nSessId config ↔
      ((switchedSender sys vLegs nPort nPayloadType nPacketTimeUs pSource s₀ switches).enabledLegs ≠ [] →
        Publishable c (switchedSender sys vLegs nPort nPayloadType nPacketTimeUs pSource s₀ switches)) :=
  advertised_iff (running_throwSwitches switches (running_configure sys hpt hstarted)) hline nSessId

/-- Two legs with the addresses the configuration has for them. -/
def pair : List SenderLeg := [⟨"eth0", "239.69.145.10", true⟩, ⟨"eth1", "239.69.146.10", true⟩]

def sweepSender : RtpSender := switchedSender {} pair 5004 96 1000 (some (.sweep (-18))) {} []

/-- A grandmaster is announced twice in a domain. -/
def announcedIn (nDomain : Byte) : Ptp.PtpClock :=
  let pData : Bytes := [0x0B, 2, 0, 64, nDomain] ++ List.replicate 22 0 ++ [1, 0, 1] ++ List.replicate 17 0 ++
    [128, 248, 0x21, 0, 0, 128] ++ List.replicate 7 0 ++ [7, 0, 1, 0xA0]
  clockAfter nDomain.toNat default [.rx ⟨pData, 0, "10.0.0.1", .amber, 0⟩, .rx ⟨pData, 0, "10.0.0.1", .amber, 0⟩]

theorem sweepSender_running : Running sweepSender := by
  refine running_throwSwitches [] (running_configure {} ⟨by norm_num, by norm_num⟩ ?_)
  rfl

theorem sweepSender_oneLine (c : Ptp.PtpClock) : OneLine c sweepSender {} := by
  have hname : (sweepSender.describeSession {} c).sName = "pi-audio-node sweep 20 Hz - 20 kHz" := rfl
  have hlegs : (sweepSender.describeSession {} c).vLegs =
      [{ sMid := "PRI", sMulticast := "239.69.145.10" }, { sMid := "SEC", sMulticast := "239.69.146.10" }] := rfl
  constructor
  · rw [hname]
    simp [quote]
  · rw [hlegs]
    simp [quote]

theorem sweepSender_addresses : ∀ nLeg ∈ sweepSender.enabledLegs, ∀ leg, sweepSender.vLegs[nLeg]? = some leg →
    inetPton (carried leg.sMulticast) = some (RtpSender.destination sweepSender.nPort leg).address := by
  have henabled : sweepSender.enabledLegs = [0, 1] := by decide
  have hlegs : sweepSender.vLegs = pair := rfl
  rw [henabled, hlegs]
  simp only [pair, List.mem_cons, List.not_mem_nil, or_false]
  rintro nLeg (rfl | rfl) leg hleg
  · obtain rfl := Option.some.inj hleg
    decide +kernel
  · obtain rfl := Option.some.inj hleg
    decide +kernel

theorem announcedIn_follows : grandmasterId (announcedIn 127).toPtpClient ≠ "" := by
  decide +kernel

theorem sweepSender_advertised : Advertised (announcedIn 0) sweepSender 0 {} := by
  refine (advertised_iff_publishable {} pair 5004 96 1000 (some (.sweep (-18))) {} [] {} (announcedIn 0) 0
    ⟨by norm_num, by norm_num⟩ rfl (sweepSender_oneLine _)).mpr ?_
  refine fun _ => ⟨sweepSender_addresses, by decide, packetTime_of_eighths (k := 8) (by norm_num) (by norm_num) rfl, ?_⟩
  exact fun _ => by decide +kernel

theorem sweepSender_domain : ¬ Advertised (announcedIn 127) sweepSender 0 {} := by
  intro h
  rw [advertised_iff sweepSender_running (sweepSender_oneLine _) 0] at h
  have hpub := h (by decide)
  have hdomain : (announcedIn 127).nDomain = 127 := by decide +kernel
  have hzero := hpub.domain announcedIn_follows
  rw [hdomain] at hzero
  cases hzero

end PiAudioNode.Rtp
