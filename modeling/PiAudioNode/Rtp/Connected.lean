import PiAudioNode.Rtp.Advertised
import PiAudioNode.Rtp.Control
import PiAudioNode.Rtp.EndToEnd
import PiAudioNode.Rtp.FailedStart

/-! A receiver that is configured from the description a sender publishes of itself: it
joins the groups the packets go to, and what it writes out is what the source gave, or
silence of the same length. -/
namespace PiAudioNode.Rtp
open Lib

/-- Where the packets of each leg go. -/
def RtpSender.sendsTo (s : RtpSender) : List SocketAddr := s.enabledLegs.map fun nLeg => s.vSockets[nLeg]!

/-- A receiver with an open socket in every group that is sent to, one leg for each, and
with the sender's format and packet size. -/
structure Connected (s : RtpSender) (read : SdpSession) (r : RxEngine) : Prop where
  run : r.bRun
  joined : ∀ (k : Nat) (address : SocketAddr), s.sendsTo[k]? = some address → ∃ (rxLeg : RxLeg) (leg : SdpLeg),
    r.aLegs[k]? = some rxLeg ∧ read.vLegs[k]? = some leg ∧ rxLeg.bOpen ∧
    inetPton rxLeg.sMulticast = some address.address ∧ leg.nPort = address.nPort
  format : CarriesL24 r.config.session
  frames : r.config.nFramesPerPacket = s.nFramesPerPacket

section Configured
variable {c : Ptp.PtpClock} {s : RtpSender} {config : Config} {read : SdpSession} {r : RxEngine} {bOpens : Nat → Bool}
  {vInterfaces : List String} {nPlayoutDelayMs : Int}

theorem sendsTo_length_le (s : RtpSender) : s.sendsTo.length ≤ 2 := by
  rw [RtpSender.sendsTo, List.length_map]
  rcases enabledLegs_cases s with hlegs | hlegs | hlegs | hlegs <;> simp [hlegs]

/-- A true description has a leg for each that is sent on. -/
theorem Truthful.leg (h : Truthful c s read) (hrun : Running s) {k : Nat} {address : SocketAddr}
    (haddress : s.sendsTo[k]? = some address) :
    ∃ leg, read.vLegs[k]? = some leg ∧ inetPton leg.sMulticast = some address.address ∧ leg.nPort = address.nPort := by
  have hlegs := h.legs []
  rw [sendRound_eq hrun, List.map_map] at hlegs
  have hat := congrArg (·[k]?) hlegs
  simp only [List.getElem?_map] at hat
  rw [RtpSender.sendsTo, List.getElem?_map, Option.map_eq_some_iff] at haddress
  obtain ⟨nLeg, hleg, rfl⟩ := haddress
  rw [hleg, Option.map_some, Option.map_eq_some_iff] at hat
  obtain ⟨leg, hread, heq⟩ := hat
  exact ⟨leg, hread, congrArg Prod.fst heq, congrArg Prod.snd heq⟩

/-- The size of a packet is read off its duration. -/
theorem framesPerPacket_frames {n : Nat} (hn : 0 < n) : framesPerPacket (n * 1000 / sampleRate) = n := by
  have hms : (sampleRate * (n * 1000 / sampleRate) / 1000 : ℚ) = n := by
    simp only [sampleRate]
    push_cast
    ring
  rw [framesPerPacket, hms, Int.floor_natCast, Int.toNat_natCast, if_neg hn.ne']

theorem nFramesPerPacket_pos (h : Running s) : 0 < s.nFramesPerPacket := by
  have hmin := h.packetTime
  simp only [RtpSender.nFramesPerPacket, sampleRate]
  omega

theorem configure_started (h : (RxEngine.configure bOpens read vInterfaces nPlayoutDelayMs r).1 = true) :
    (RxEngine.configure bOpens read vInterfaces nPlayoutDelayMs r).2.bRun = true ∧
      (RxEngine.configure bOpens read vInterfaces nPlayoutDelayMs r).2.config = .ofSession read nPlayoutDelayMs := by
  unfold RxEngine.configure at h ⊢
  dsimp only at h ⊢
  split_ifs at h ⊢ with hnone hopen
  · exact ⟨rfl, (RxEngine.openLegs_kept 0 (read.vLegs.take 2) _).2⟩
  · exact absurd h hopen

theorem connected_of_truthful (h : Truthful c s read) (hrun : Running s)
    (hstarted : (RxEngine.configure bOpens read vInterfaces nPlayoutDelayMs r).1 = true) :
    Connected s read (RxEngine.configure bOpens read vInterfaces nPlayoutDelayMs r).2 := by
  obtain ⟨hruns, hconfig⟩ := configure_started hstarted
  obtain ⟨⟨hlegs, hinterfaces⟩, hopens⟩ := RxEngine.configure_fst.mp hstarted
  have hformat := Prod.ext_iff.mp h.format
  refine ⟨hruns, ?_, ?_, ?_⟩
  · intro k address haddress
    obtain ⟨leg, hleg, hgroup, hport⟩ := h.leg hrun haddress
    have htwo : k < 2 := lt_of_lt_of_le (List.getElem?_eq_some_iff.mp haddress).1 (sendsTo_length_le s)
    have hcount : k < read.vLegs.length := (List.getElem?_eq_some_iff.mp hleg).1
    have hopened := @RxEngine.configure_leg bOpens vInterfaces read k leg hleg htwo hinterfaces nPlayoutDelayMs r
    rw [if_pos fun j hj => hopens j (by omega)] at hopened
    exact ⟨_, leg, hopened, hleg, hopens k (by omega), hgroup, hport⟩
  · rw [hconfig]
    exact ⟨hformat.1, (Prod.ext_iff.mp hformat.2).2⟩
  · rw [hconfig]
    calc framesPerPacket read.dPacketTimeMs = framesPerPacket (s.nFramesPerPacket * 1000 / sampleRate) := by
          rw [h.packetTime]
      _ = s.nFramesPerPacket := framesPerPacket_frames (nFramesPerPacket_pos hrun)

end Configured

section Output
variable {α σ : Type*} {e : SendEngine α σ} {stream : Stream' α} {cfg : RxConfig} {r : RtpReceiver} {es : List Event}

/-- A number that is played or concealed takes the time of one packet of the sender. -/
def InTime (e : SendEngine α σ) (outs : List Outcome) : Prop :=
  (audioWritten outs).length = (outs.countP Outcome.isPlayed + outs.countP Outcome.isConcealed) * e.settings.nFramesPerPacket

theorem length_framesFrom (monitor : Monitor) (k : Nat) :
    (e.framesFrom stream monitor k 1).length = e.settings.nFramesPerPacket := by
  rw [SendEngine.framesFrom, heard_length, List.length_map, Stream'.length_take, Nat.one_mul]
  exact Nat.mul_div_cancel _ Nat.zero_lt_two

theorem inTime_of_blocks {outs : List Outcome}
    (hplayed : ∀ nSeq vSamples, .played nSeq vSamples ∈ outs → vSamples.length = e.settings.nFramesPerPacket)
    (hconcealed : ∀ nSeq vSamples, .concealed nSeq vSamples ∈ outs → vSamples.length = e.settings.nFramesPerPacket) :
    InTime e outs := by
  induction outs with
  | nil => exact (Nat.zero_mul _).symm
  | cons o outs ih =>
    have hrest : InTime e outs := by
      apply ih
      · exact fun nSeq vSamples hmem => hplayed nSeq vSamples (List.mem_cons_of_mem o hmem)
      · exact fun nSeq vSamples hmem => hconcealed nSeq vSamples (List.mem_cons_of_mem o hmem)
    have hsplit : audioWritten (o :: outs) = o.audio ++ audioWritten outs := rfl
    rw [InTime] at hrest ⊢
    rw [hsplit, List.length_append, hrest, List.countP_cons, List.countP_cons]
    cases o with
    | played nSeq vSamples =>
      have hlength := hplayed nSeq vSamples List.mem_cons_self
      simp only [Outcome.audio, Outcome.isPlayed, Outcome.isConcealed, hlength]
      simp
      ring
    | concealed nSeq vSamples =>
      have hlength := hconcealed nSeq vSamples List.mem_cons_self
      simp only [Outcome.audio, Outcome.isPlayed, Outcome.isConcealed, hlength]
      simp
      ring
    | accepted nLeg nSeq vSamples => simp [Outcome.audio, Outcome.isPlayed, Outcome.isConcealed]
    | duplicate nLeg nSeq => simp [Outcome.audio, Outcome.isPlayed, Outcome.isConcealed]
    | anchored nSeq => simp [Outcome.audio, Outcome.isPlayed, Outcome.isConcealed]
    | dropped nSeq => simp [Outcome.audio, Outcome.isPlayed, Outcome.isConcealed]

/-- Silence stands in for a packet of the sender's size. -/
theorem PlaysSent.inTime {nSent : Nat} (h : PlaysSent e stream nSent cfg r es)
    (hframes : cfg.nFramesPerPacket = e.settings.nFramesPerPacket) : InTime e (runEngine cfg r es).2 := by
  apply inTime_of_blocks
  · intro nSeq vSamples hmem
    obtain ⟨k, -, -, before, -, rfl⟩ := h nSeq vSamples hmem
    exact length_framesFrom _ k
  · intro nSeq vSamples hmem
    obtain ⟨pre, post, houts⟩ := List.append_of_mem hmem
    have hsilence : vSamples = cfg.vSilence := ((ledger_runEngine cfg r es).proper pre _ post houts).2
    rw [hsilence, RxConfig.vSilence, List.length_replicate, hframes]

/-- A receiver that starts on a session is connected to the sender, and over any network
it plays what the source gave, and keeps its time. -/
def Receives (e : SendEngine α σ) (stream : Stream' α) (sent : List SendOutcome) (read : SdpSession) : Prop :=
  ∀ bOpens vInterfaces nPlayoutDelayMs engine,
    (RxEngine.configure bOpens read vInterfaces nPlayoutDelayMs engine).1 = true →
    let engine' := (RxEngine.configure bOpens read vInterfaces nPlayoutDelayMs engine).2
    Connected e.settings read engine' ∧ ∀ r es, Carried sent es →
      PlaysSent e stream (departed sent) engine'.config r es ∧ InTime e (runEngine engine'.config r es).2

end Output

/-- A file in a loop, sent on both legs. -/
def fileSender : RtpSender := switchedSender {} pair 5004 96 1000 (some (.memory "a.wav" true)) {} []

def fileEngine : SendEngine Int (Audio.MemorySource Int) := { SendEngine.loopedFile with settings := fileSender }

theorem fileSender_oneLine : OneLine (announcedIn 0) fileSender {} := by
  have hname : (fileSender.describeSession {} (announcedIn 0)).sName = "pi-audio-node a.wav" := rfl
  have hlegs : (fileSender.describeSession {} (announcedIn 0)).vLegs =
      [{ sMid := "PRI", sMulticast := "239.69.145.10" }, { sMid := "SEC", sMulticast := "239.69.146.10" }] := rfl
  constructor
  · rw [hname]
    simp [quote]
  · rw [hlegs]
    simp [quote]

theorem fileSender_publishable : Publishable (announcedIn 0) fileSender := by
  have hsame : fileSender.enabledLegs = sweepSender.enabledLegs ∧ fileSender.vLegs = sweepSender.vLegs ∧
      fileSender.nPort = sweepSender.nPort := ⟨rfl, rfl, rfl⟩
  have hframes : fileSender.nPacketTimeUs = 125 * (8 : Nat) := rfl
  refine ⟨?_, by decide, packetTime_of_eighths (by norm_num) (by norm_num) hframes, fun _ => by decide +kernel⟩
  rw [hsame.1, hsame.2.1, hsame.2.2]
  exact sweepSender_addresses

end PiAudioNode.Rtp
