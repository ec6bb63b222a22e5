import PiAudioNode.Rtp.Accounting
import PiAudioNode.Rtp.Codec
import PiAudioNode.Rtp.SendLoop

/-! From the source of a sender to the output of a receiver. The network between them
may lose, repeat, delay and reorder the packets on each leg as it likes. -/
namespace PiAudioNode.Rtp
open Lib RtpSender

/-- What the monitor lets hear of interleaved stereo samples. -/
def heard (monitor : Monitor) (vAudio : List Sample24) : List Frame :=
  (List.range (vAudio.length / 2)).map fun nFrame =>
    { left := (vAudio[2 * nFrame + monitor.left 2]?.elim 0 Sample24.nSample) / 8388608
      right := (vAudio[2 * nFrame + monitor.right 2]?.elim 0 Sample24.nSample) / 8388608 }

/-- The session carries what the sender sends. -/
structure CarriesL24 (session : SdpSession) : Prop where
  bits : session.nBitsPerSample = 24
  channels : session.nChannels = 2

section Decoding
variable {session : SdpSession} {monitor : Monitor}

theorem heard_length (monitor : Monitor) (vAudio : List Sample24) : (heard monitor vAudio).length = vAudio.length / 2 := by
  rw [heard, List.length_map, List.length_range]

/-- A packet is decoded to what is heard of its samples. -/
theorem decodeFrames_buildPacket (h : CarriesL24 session) (s : RtpSender) (nSeq : BitVec 16) (nRtpTs : BitVec 32)
    (vAudio : List Sample24) :
    decodeFrames session monitor (s.buildPacket nSeq nRtpTs (vAudio.map Sample24.nSample)) = heard monitor vAudio := by
  have hbytes : bytesPerSample session = 3 := by simp [bytesPerSample, h.bits]
  have htwo : channels session = 2 := by simp [channels, h.channels]
  have hframes : payloadFrames session (s.buildPacket nSeq nRtpTs (vAudio.map Sample24.nSample)) = vAudio.length / 2 := by
    rw [payloadFrames, headerSize_buildPacket, length_buildPacket, hbytes, htwo, List.length_map]
    omega
  have hrange : ∀ nSample ∈ vAudio.map Sample24.nSample, -8388607 ≤ nSample ∧ nSample ≤ 8388607 := by
    intro nSample hmem
    obtain ⟨sample, -, rfl⟩ := List.mem_map.mp hmem
    exact ⟨sample.low, sample.high⟩
  have hsample {nIndex : Nat} (hindex : nIndex < vAudio.length) :
      decode 3 ((vAudio.map Sample24.nSample).flatMap encode) nIndex = (vAudio[nIndex]?.elim 0 Sample24.nSample) / 8388608 := by
    have hin : nIndex < (vAudio.map Sample24.nSample).length := by rwa [List.length_map]
    rw [decode_flatMap_encode hin hrange, List.getElem_map, List.getElem?_eq_getElem hindex, Option.elim_some]
  rw [decodeFrames, hframes, headerSize_buildPacket, drop_buildPacket, hbytes, htwo, heard]
  refine List.map_congr_left fun nFrame hmem => ?_
  have hframe := List.mem_range.mp hmem
  have hleft := left_lt monitor (show 0 < 2 by norm_num)
  have hright := right_lt monitor (show 0 < 2 by norm_num)
  rw [mul_comm nFrame 2, hsample (by omega), hsample (by omega)]

/-- What is heard of two stretches of whole frames, one after the other. -/
theorem heard_append {vAudio vMore : List Sample24} (heven : vAudio.length % 2 = 0) :
    heard monitor (vAudio ++ vMore) = heard monitor vAudio ++ heard monitor vMore := by
  have hcount : (vAudio ++ vMore).length / 2 = vAudio.length / 2 + vMore.length / 2 := by
    rw [List.length_append]
    omega
  have hleft := left_lt monitor (show 0 < 2 by norm_num)
  have hright := right_lt monitor (show 0 < 2 by norm_num)
  rw [heard, hcount, List.range_add, List.map_append, List.map_map]
  congr 1
  · refine List.map_congr_left fun nFrame hmem => ?_
    have hframe := List.mem_range.mp hmem
    rw [List.getElem?_append_left (by omega), List.getElem?_append_left (by omega)]
  · refine List.map_congr_left fun nFrame _ => ?_
    have hshift (nChannel : Nat) : 2 * (vAudio.length / 2 + nFrame) + nChannel - vAudio.length = 2 * nFrame + nChannel := by
      omega
    rw [Function.comp_apply, List.getElem?_append_right (by omega), List.getElem?_append_right (by omega), hshift, hshift]

end Decoding

namespace SendEngine
variable {α σ : Type*} (e : SendEngine α σ) (stream : Stream' α)

/-- What is heard of so many packets of a stream, from the k-th on. -/
def framesFrom (monitor : Monitor) (k nPackets : Nat) : List Frame :=
  heard monitor (((stream.drop (k * (e.settings.nFramesPerPacket * 2))).take
    (nPackets * (e.settings.nFramesPerPacket * 2))).map e.quantise)

variable {e} {stream} {monitor : Monitor}

theorem framesFrom_zero (k : Nat) : e.framesFrom stream monitor k 0 = [] := by
  rw [framesFrom, Nat.zero_mul, Stream'.take_zero, List.map_nil, heard, List.length_nil, Nat.zero_div]
  rfl

theorem framesFrom_succ (k nPackets : Nat) : e.framesFrom stream monitor k (nPackets + 1) =
    e.framesFrom stream monitor k nPackets ++ e.framesFrom stream monitor (k + nPackets) 1 := by
  have hdrop : (stream.drop (k * (e.settings.nFramesPerPacket * 2))).drop (nPackets * (e.settings.nFramesPerPacket * 2)) =
      stream.drop ((k + nPackets) * (e.settings.nFramesPerPacket * 2)) := by
    rw [Stream'.drop_drop, Nat.add_mul]
  rw [framesFrom, Nat.add_mul, Stream'.take_add, List.map_append, heard_append, hdrop]
  · rfl
  · rw [List.length_map, Stream'.length_take, ← Nat.mul_assoc, Nat.mul_mod_left]

/-- The k-th packet, decoded. -/
theorem decodeFrames_packet {session : SdpSession} (h : CarriesL24 session) (nSeq : BitVec 16) (nDeadlineNs : BitVec 64)
    (k : Nat) : decodeFrames session monitor (e.packet nSeq nDeadlineNs (e.audioOf stream k)) =
      e.framesFrom stream monitor k 1 := by
  have hsamples : (e.audioOf stream k).map (fun x => (e.quantise x).nSample) =
      ((e.audioOf stream k).map e.quantise).map Sample24.nSample := by
    rw [List.map_map]
    rfl
  rw [packet, hsamples, decodeFrames_buildPacket h, framesFrom, Nat.one_mul]
  rfl

end SendEngine

section Journey
variable {α σ : Type*} {e : SendEngine α σ} {stream : Stream' α} {cfg : RxConfig} {r : RtpReceiver}
  {sent : List SendOutcome} {es : List Event}

/-- Whatever arrives on a leg was sent. -/
def Carried (sent : List SendOutcome) (es : List Event) : Prop :=
  ∀ nLeg pData now, .packet nLeg pData now ∈ es → ∃ d, .sent d ∈ sent ∧ d.pPacket = pData

theorem departed_lt {pre post : List SendOutcome} {d : Departure} : departed pre < departed (pre ++ .sent d :: post) := by
  have hone : 0 < departed (.sent d :: post) := List.countP_pos_iff.mpr ⟨.sent d, List.mem_cons_self, rfl⟩
  rw [departed_append]
  omega

/-- A packet that arrives has a place in the stream. -/
theorem Carried.place (hsent : Admits (e.Transmits stream) sent) (hcarried : Carried sent es) {nLeg : Leg} {pData : Bytes}
    {now : Time} (hmem : .packet nLeg pData now ∈ es) :
    ∃ k nDeadlineNs, k < departed sent ∧ pData = e.packet (e.seqOf k) nDeadlineNs (e.audioOf stream k) := by
  obtain ⟨d, hd, rfl⟩ := hcarried nLeg pData now hmem
  obtain ⟨pre, post, rfl⟩ := List.append_of_mem hd
  exact ⟨departed pre, d.nDeadlineNs, departed_lt, (hsent pre _ post rfl).1⟩

theorem rtpSeq_packet (nSeq : BitVec 16) (nDeadlineNs : BitVec 64) (vAudio : List α) :
    rtpSeq (e.packet nSeq nDeadlineNs vAudio) = nSeq := rtpSeq_buildPacket _ _ _ _

/-- What is played was sent under its number, and is what the monitor let hear of it when
it arrived. -/
def PlaysSent (e : SendEngine α σ) (stream : Stream' α) (nSent : Nat) (cfg : RxConfig) (r : RtpReceiver) (es : List Event) :
    Prop :=
  ∀ nSeq vSamples, .played nSeq vSamples ∈ (runEngine cfg r es).2 → ∃ k < nSent, nSeq = e.seqOf k ∧
    ∃ before, before <+: es ∧ vSamples = e.framesFrom stream (runEngine cfg r before).1.monitor k 1

theorem playsSent_of_carried (hsent : Admits (e.Transmits stream) sent) (hcarried : Carried sent es)
    (hsession : CarriesL24 cfg.session) : PlaysSent e stream (departed sent) cfg r es := by
  intro nSeq vSamples hplayed
  obtain ⟨pre, post, houts⟩ := List.append_of_mem hplayed
  obtain ⟨nLeg, haccepted⟩ := ((ledger_runEngine cfg r es).proper pre _ post houts).2
  have hmem : .accepted nLeg nSeq vSamples ∈ (runEngine cfg r es).2 := by
    rw [houts]
    exact List.mem_append_left _ haccepted
  obtain ⟨before, pData, now, later, hes, hseq, hdecoded⟩ := accepted_runEngine hmem
  have harrived : .packet nLeg pData now ∈ es := by rw [hes]; simp
  obtain ⟨k, nDeadlineNs, hk, rfl⟩ := hcarried.place hsent harrived
  rw [rtpSeq_packet] at hseq
  rw [SendEngine.decodeFrames_packet hsession] at hdecoded
  exact ⟨k, hk, hseq.symm, before, ⟨_, hes.symm⟩, hdecoded.symm⟩

/-- A network that loses nothing. -/
def deliverAll (sent : List SendOutcome) : List Event :=
  sent.filterMap fun
    | .sent d => some (.packet .primary d.pPacket 0)
    | _ => none

theorem carried_deliverAll (sent : List SendOutcome) (nTurns : Nat) :
    Carried sent (deliverAll sent ++ List.replicate nTurns (.playout 0 0)) := by
  intro nLeg pData now hmem
  rcases List.mem_append.mp hmem with hmem | hmem
  · obtain ⟨o, ho, heq⟩ := List.mem_filterMap.mp hmem
    cases o with
    | sent d =>
      cases heq
      exact ⟨d, ho, rfl⟩
    | anchored nStartNs => cases heq
    | jumped => cases heq
    | returned => cases heq
  · cases (List.mem_replicate.mp hmem).2

end Journey

section Whole
variable {α σ : Type*} {e : SendEngine α σ} {stream : Stream' α} {cfg : RxConfig} {r : RtpReceiver} {es : List Event}

/-- What an outcome hands to the output. -/
def Outcome.audio : Outcome → List Frame
  | .played _ vSamples | .concealed _ vSamples => vSamples
  | .accepted .. | .duplicate .. | .anchored _ | .dropped _ => []

def audioWritten (outs : List Outcome) : List Frame := outs.flatMap Outcome.audio

/-- No packet was missing, and none was left out to catch up. -/
def Gapless (outs : List Outcome) : Prop := ∀ o ∈ outs, ∀ nSeq ∈ o.account, ∃ vSamples, o = .played nSeq vSamples

/-- The monitor stays as it is. -/
def MonitorKept (es : List Event) : Prop := ∀ nLeft nRight, .setMonitor nLeft nRight ∉ es

theorem monitor_playoutStep (nDelay nDrift : Int) (r : RtpReceiver) :
    (playoutStep cfg nDelay nDrift r).1.monitor = r.monitor := by
  have kept : PlayoutKeeps cfg fun _ r' => r'.monitor = r.monitor :=
    { phase := fun _ _ _ _ h => h
      play := fun _ _ _ h => h
      conceal := fun _ _ h => h
      steer := by
        intro nDrift outs r' h
        unfold steer
        split
        · exact h
        · exact h
      anchor := fun _ _ h => h }
  exact kept.playoutStep nDelay nDrift [] r rfl

theorem monitor_merge (r : RtpReceiver) (nLeg : Leg) (nSeq : BitVec 16) (nTs : BitVec 32) (vSamples : List Frame) :
    (merge r nLeg nSeq nTs vSamples).1.monitor = r.monitor := by
  unfold merge
  split
  · rfl
  · rfl

theorem monitor_step {ev : Event} (hkept : ∀ nLeft nRight, ev ≠ .setMonitor nLeft nRight) (r : RtpReceiver) :
    (step cfg r ev).1.monitor = r.monitor := by
  cases ev with
  | packet nLeg pData now =>
    dsimp only [step, handlePacket]
    split
    · split
      · rfl
      · split
        · rfl
        · rw [monitor_merge]
          rfl
    · rfl
  | age now => rfl
  | setMonitor nLeft nRight => exact absurd rfl (hkept nLeft nRight)
  | playout nDelay nDrift => exact monitor_playoutStep nDelay nDrift r

theorem monitor_runEngine (hkept : MonitorKept es) : (runEngine cfg r es).1.monitor = r.monitor := by
  induction es using List.reverseRecOn with
  | nil => rfl
  | append_singleton es ev ih =>
    rw [runEngine, runReport_snoc, andThen_fst, monitor_step]
    · exact ih fun nLeft nRight hmem => hkept nLeft nRight (List.mem_append_left _ hmem)
    · intro nLeft nRight heq
      exact hkept nLeft nRight (by simp [heq])

/-- Within a turn of the numbers a number stands for one packet. -/
theorem seqOf_inj {j k : Nat} (hj : j < 2 ^ 16) (hk : k < 2 ^ 16) (h : e.seqOf j = e.seqOf k) : j = k := by
  have hsame := congrArg BitVec.toNat ((BitVec.add_right_inj _).mp h)
  rw [BitVec.toNat_ofNat, BitVec.toNat_ofNat] at hsame
  omega

theorem seqOf_add (j k : Nat) : e.seqOf j + BitVec.ofNat 16 k = e.seqOf (j + k) := by
  rw [SendEngine.seqOf, SendEngine.seqOf, BitVec.ofNat_add, BitVec.add_assoc]

/-- The outcomes of a stretch in which nothing was missing are packets that follow each
other in the stream. The induction is on the outcomes. -/
theorem audioWritten_eq {nSent k : Nat} (hturn : nSent < 2 ^ 16) (hk : k < nSent) {monitor : Monitor} {mid : List Outcome}
    (hgapless : Gapless mid) (hconsecutive : accounts mid = consecutive (e.seqOf k) (accounts mid).length)
    (hgenuine : ∀ nSeq vSamples, .played nSeq vSamples ∈ mid →
      ∃ j < nSent, nSeq = e.seqOf j ∧ vSamples = e.framesFrom stream monitor j 1) :
    k + (accounts mid).length ≤ nSent ∧ audioWritten mid = e.framesFrom stream monitor k (accounts mid).length := by
  induction mid using List.reverseRecOn with
  | nil => exact ⟨hk.le, (SendEngine.framesFrom_zero k).symm⟩
  | append_singleton mid o ih =>
    have hgapless' : Gapless mid := fun o ho => hgapless o (List.mem_append_left _ ho)
    have hgenuine' (nSeq) (vSamples) (ho : .played nSeq vSamples ∈ mid) := hgenuine nSeq vSamples (List.mem_append_left _ ho)
    have haudio : audioWritten (mid ++ [o]) = audioWritten mid ++ o.audio := by simp [audioWritten]
    cases haccount : o.account with
    | none =>
      have hsame : accounts (mid ++ [o]) = accounts mid := by simp [accounts, haccount]
      have hnone : o.audio = [] := by
        cases o with
        | played => cases haccount
        | concealed => cases haccount
        | dropped => cases haccount
        | _ => rfl
      rw [hsame] at hconsecutive ⊢
      rw [haudio, hnone, List.append_nil]
      exact ih hgapless' hconsecutive hgenuine'
    | some nSeq =>
      obtain ⟨vSamples, rfl⟩ := hgapless o (by simp) nSeq haccount
      have hsnoc : accounts (mid ++ [.played nSeq vSamples]) = accounts mid ++ [nSeq] := by simp [accounts, Outcome.account]
      rw [hsnoc, List.length_append, List.length_singleton, consecutive_succ] at hconsecutive
      obtain ⟨hmid, hlast⟩ := List.append_inj' hconsecutive rfl
      obtain ⟨hle, hwritten⟩ := ih hgapless' hmid hgenuine'
      obtain ⟨j, hj, hseq, hframes⟩ := hgenuine nSeq vSamples (by simp)
      have hnumber : e.seqOf j = e.seqOf (k + (accounts mid).length) := by
        rw [← hseq, List.singleton_inj.mp hlast, seqOf_add]
      obtain rfl := seqOf_inj (by omega) (by omega) hnumber
      rw [hsnoc, List.length_append, List.length_singleton, haudio, hwritten, SendEngine.framesFrom_succ, ← hframes]
      exact ⟨hj, rfl⟩

/-- Between two anchors without a gap the output is a stretch of the source. -/
def PlaysThrough (e : SendEngine α σ) (stream : Stream' α) (nSent : Nat) (cfg : RxConfig) (r : RtpReceiver)
    (es : List Event) : Prop :=
  ∀ pre a mid post, (runEngine cfg r es).2 = pre ++ .anchored a :: (mid ++ post) → (∀ o ∈ mid, ¬ o.isAnchor) →
    Gapless mid → ∃ k, k + (accounts mid).length ≤ nSent ∧
      audioWritten mid = e.framesFrom stream r.monitor k (accounts mid).length

theorem PlaysSent.through {nSent : Nat} (h : PlaysSent e stream nSent cfg r es) (hturn : nSent < 2 ^ 16)
    (hkept : MonitorKept es) : PlaysThrough e stream nSent cfg r es := by
  intro pre a mid post houts hno hgapless
  have hproper := (ledger_runEngine cfg r es).proper
  rw [houts, ← List.cons_append, ← List.append_assoc] at hproper
  have hmid := hproper.of_append
  rw [List.append_cons] at hmid
  have hconsecutive : accounts mid = consecutive a (accounts mid).length := by
    simpa [advance] using (accounts_eq hmid hno).1
  have hgenuine (nSeq) (vSamples) (hmem : .played nSeq vSamples ∈ mid) :
      ∃ j < nSent, nSeq = e.seqOf j ∧ vSamples = e.framesFrom stream r.monitor j 1 := by
    obtain ⟨j, hj, hseq, before, hbefore, hframes⟩ := h nSeq vSamples (by rw [houts]; simp [hmem])
    have hsub : MonitorKept before := fun nLeft nRight hset => hkept nLeft nRight (hbefore.subset hset)
    rw [monitor_runEngine hsub] at hframes
    exact ⟨j, hj, hseq, hframes⟩
  cases hfirst : accounts mid with
  | nil =>
    -- nothing was settled, so nothing was written
    refine ⟨0, Nat.zero_le _, ?_⟩
    rw [List.length_nil, SendEngine.framesFrom_zero, audioWritten, List.flatMap_eq_nil_iff]
    intro o ho
    have hnone : o.account = none := List.filterMap_eq_nil_iff.mp hfirst o ho
    cases o with
    | played => cases hnone
    | concealed => cases hnone
    | dropped => cases hnone
    | _ => rfl
  | cons nSeq rest =>
    have hnumber : nSeq = a := by
      rw [hfirst, List.length_cons, consecutive, List.range_succ_eq_map, List.map_cons] at hconsecutive
      rw [(List.cons.inj hconsecutive).1]
      exact BitVec.add_zero a
    have hmem : nSeq ∈ accounts mid := by rw [hfirst]; exact List.mem_cons_self
    obtain ⟨o, ho, haccount⟩ := List.mem_filterMap.mp hmem
    obtain ⟨vSamples, rfl⟩ := hgapless o ho nSeq haccount
    obtain ⟨k, hk, hseq, -⟩ := hgenuine nSeq vSamples ho
    rw [← hfirst]
    rw [← hnumber, hseq] at hconsecutive
    exact ⟨k, audioWritten_eq hturn hk hgapless hconsecutive hgenuine⟩

/-- A step sends one packet at most. -/
theorem departed_step_le (s : SendLoop σ) (x : SendReading) : departed (e.step s x).2 ≤ 1 := by
  unfold SendEngine.step
  split
  · split_ifs
    · exact Nat.zero_le _
    · exact Nat.zero_le _
    · exact Nat.zero_le _
  · split_ifs
    · exact Nat.zero_le _
    · exact Nat.zero_le _
  · split_ifs
    · exact Nat.zero_le _
    · exact Nat.zero_le _
  · unfold SendEngine.pace
    dsimp only
    split_ifs
    · exact Nat.zero_le _
    · exact Nat.zero_le _
  · split_ifs
    · exact le_rfl
    · exact Nat.zero_le _
  · exact Nat.zero_le _

theorem departed_le_length (source : σ) (stats : SendStats) (xs : List SendReading) :
    departed (e.runLoop source stats xs).2 ≤ xs.length := by
  induction xs using List.reverseRecOn with
  | nil => exact le_rfl
  | append_singleton xs x ih =>
    rw [SendEngine.runLoop, runReport_snoc, andThen_snd, departed_append, List.length_append]
    exact Nat.add_le_add ih (departed_step_le _ x)

theorem monitorKept_deliverAll (sent : List SendOutcome) (nTurns : Nat) :
    MonitorKept (deliverAll sent ++ List.replicate nTurns (.playout 0 0)) := by
  intro nLeft nRight hmem
  rcases List.mem_append.mp hmem with hmem | hmem
  · obtain ⟨o, -, heq⟩ := List.mem_filterMap.mp hmem
    cases o with
    | sent d => cases heq
    | anchored nStartNs => cases heq
    | jumped => cases heq
    | returned => cases heq
  · cases (List.mem_replicate.mp hmem).2

end Whole

end PiAudioNode.Rtp
