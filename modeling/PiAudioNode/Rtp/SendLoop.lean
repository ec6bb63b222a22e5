import PiAudioNode.Audio.Memory
import PiAudioNode.Lib.Output
import PiAudioNode.Rtp.MediaClock

/-! The send loop: it waits for the clock, anchors the packets on it, builds each one
ahead of its deadline and sends it when that has come. Every step reads the clock, the
switches and the sockets anew, so a run is any interleaving with what changes them. -/
namespace PiAudioNode.Rtp
open Lib

/-- A sample after the clamp to full scale. -/
structure Sample24 where
  nSample : Int
  low : -8388607 ≤ nSample
  high : nSample ≤ 8388607

/-- What `Configure` fixes for the thread: the settings, the source, and the rounding of
its samples to 24 bits. -/
structure SendEngine (α σ : Type*) where
  settings : RtpSender
  read : σ → Nat → (List α × Bool) × σ
  quantise : α → Sample24

/-- Where the thread is: at the head of the loop, in the wait for the clock or behind it,
before a packet is built, in front of its deadline, or gone. -/
inductive SendStage where
  | head
  | waiting
  | anchoring
  | pacing
  | spinning (pPacket : Bytes) (nDeadlineNs : BitVec 64)
  | returned

/-- The atomics that the thread reports through. -/
structure SendStats where
  bWaitingForPtp : Bool := false
  bEssenceOk : Bool := false
  nPacketsSent : Nat := 0
  nSendErrors : Nat := 0
  nLateAvgNs : Int := 0
  nLateMaxNs : Int := 0

structure SendLoop (σ : Type*) where
  stage : SendStage := .head
  nStartNs : BitVec 64 := 0
  nPacket : BitVec 64 := 0
  nWindowEndNs : BitVec 64 := 0
  nLateAvgNs : Int := 0
  nLateMaxNs : Int := 0
  nSeq : BitVec 16
  bNeedAnchor : Bool := true
  source : σ
  stats : SendStats := {}

/-- What a step finds: the run flag, the clock, the switches of the legs, the sockets that
refuse a packet, and the clock again behind the sends. -/
structure SendReading where
  bRun : Bool := true
  bSynced : Bool := true
  nPtpNs : BitVec 64
  abLegEnabled : Vector Bool 2 := bothEnabled
  bRefused : Nat → Bool := fun _ => false
  nPtpSentNs : BitVec 64 := nPtpNs

/-- A packet that left, with the reading that ended the wait for its deadline. -/
structure Departure where
  pPacket : Bytes
  nDeadlineNs : BitVec 64
  nPtpNs : BitVec 64
  nLateNs : Int
  vLegs : List Nat

inductive SendOutcome where
  | anchored (nStartNs : BitVec 64)
  | jumped
  | sent (d : Departure)
  | returned

/-- The last stretch before a deadline, for which the thread does not sleep. -/
def RtpSender.nSpinNs (s : RtpSender) : Int := min 100000 (s.nPacketTimeUs * 250)

/-- The legs whose switch is on, of those that have a socket. -/
def RtpSender.legsOn (s : RtpSender) (abLegEnabled : Vector Bool 2) : List Nat :=
  (List.range s.vSockets.length).filter fun nLeg => abLegEnabled[nLeg]?.getD false

/-- The signed distance of two times. -/
def aheadNs (nDeadlineNs nPtpNs : BitVec 64) : Int := nDeadlineNs.toInt - nPtpNs.toInt

def lateNs (nDeadlineNs nPtpNs : BitVec 64) : Int := max 0 (nPtpNs.toInt - nDeadlineNs.toInt)

namespace SendEngine
variable {α σ : Type*} (e : SendEngine α σ)

/-- The bytes of a packet: what was read from the source, under a number and a deadline. -/
def packet (nSeq : BitVec 16) (nDeadlineNs : BitVec 64) (vAudio : List α) : Bytes :=
  e.settings.buildPacket nSeq (RtpSender.rtpTimestamp nDeadlineNs) (vAudio.map fun x => (e.quantise x).nSample)

/-- Begin 20 ms in the future. -/
def anchor (nPtpNs : BitVec 64) (s : SendLoop σ) : SendLoop σ :=
  let nStartNs := nPtpNs + 20000000
  { s with
    stage := .pacing
    nStartNs
    nPacket := 0
    nWindowEndNs := nStartNs + 5000000000
    bNeedAnchor := false }

/-- The whole packet is built before its deadline, unless the mapping has jumped. -/
def pace (nPtpNs : BitVec 64) (s : SendLoop σ) : SendLoop σ × List SendOutcome :=
  let nDeadlineNs := e.settings.deadline s.nStartNs s.nPacket
  let nAheadNs := aheadNs nDeadlineNs nPtpNs
  if 2000000000 < nAheadNs ∨ nAheadNs < -2000000000 then
    ({ s with bNeedAnchor := true, stage := .head }, [.jumped])
  else
    let x := e.read s.source e.settings.nFramesPerPacket
    ({ s with
        source := x.2
        stats := { s.stats with bEssenceOk := x.1.2 }
        stage := .spinning (e.packet s.nSeq nDeadlineNs x.1.1) nDeadlineNs }, [])

/-- The pacing quality of a send, published at the end of each window of 5 s. -/
def measure (nDeadlineNs : BitVec 64) (nLateNs : Int) (s : SendLoop σ) : SendLoop σ :=
  let nLateAvgNs := s.nLateAvgNs + (nLateNs - s.nLateAvgNs).tdiv 16
  let nLateMaxNs := max s.nLateMaxNs nLateNs
  let s := { s with nLateAvgNs, nLateMaxNs, stats := { s.stats with nLateAvgNs } }
  if s.nWindowEndNs ≤ nDeadlineNs then
    { s with
      stats := { s.stats with nLateMaxNs }
      nLateMaxNs := 0
      nWindowEndNs := nDeadlineNs + 5000000000 }
  else s

/-- The packet goes to every leg that is switched on, whether a socket takes it or not. -/
def send (pPacket : Bytes) (nDeadlineNs : BitVec 64) (x : SendReading) (s : SendLoop σ) :
    SendLoop σ × List SendOutcome :=
  let vLegs := e.settings.legsOn x.abLegEnabled
  let nLateNs := lateNs nDeadlineNs x.nPtpSentNs
  let s := { s with
    stats := { s.stats with
      nSendErrors := s.stats.nSendErrors + vLegs.countP x.bRefused
      nPacketsSent := s.stats.nPacketsSent + 1 } }
  ({ measure nDeadlineNs nLateNs s with nSeq := s.nSeq + 1, nPacket := s.nPacket + 1, stage := .head },
    [.sent ⟨pPacket, nDeadlineNs, x.nPtpNs, nLateNs, vLegs⟩])

/-- Due, or the mapping moved. -/
def Released (nDeadlineNs nPtpNs : BitVec 64) : Prop :=
  aheadNs nDeadlineNs nPtpNs ≤ 0 ∨ 2 * e.settings.nSpinNs < aheadNs nDeadlineNs nPtpNs

instance (nDeadlineNs nPtpNs : BitVec 64) : Decidable (e.Released nDeadlineNs nPtpNs) :=
  inferInstanceAs (Decidable (_ ∨ _))

/-- The thread from one of its readings to the next. -/
def step (s : SendLoop σ) (x : SendReading) : SendLoop σ × List SendOutcome :=
  match s.stage with
  | .head =>
    if ¬ x.bRun then ({ s with stage := .returned }, [.returned])
    else if s.bNeedAnchor ∨ ¬ x.bSynced then
      ({ s with stage := .waiting, stats := { s.stats with bWaitingForPtp := true } }, [])
    else ({ s with stage := .pacing }, [])
  | .waiting =>
    if x.bRun ∧ ¬ x.bSynced then (s, [])
    else ({ s with stage := .anchoring, stats := { s.stats with bWaitingForPtp := false } }, [])
  | .anchoring =>
    if ¬ x.bRun then ({ s with stage := .returned }, [.returned])
    else (anchor x.nPtpNs s, [.anchored (x.nPtpNs + 20000000)])
  | .pacing => e.pace x.nPtpNs s
  | .spinning pPacket nDeadlineNs =>
    if e.Released nDeadlineNs x.nPtpNs then e.send pPacket nDeadlineNs x s else (s, [])
  | .returned => (s, [])

/-- What a step can do: stay, leave, or go on from one stage to another. -/
inductive Steps (s : SendLoop σ) (x : SendReading) : SendLoop σ × List SendOutcome → Prop where
  | idle : Steps s x (s, [])
  | returns (hstage : s.stage = .head ∨ s.stage = .anchoring) : Steps s x ({ s with stage := .returned }, [.returned])
  | waits (hstage : s.stage = .head) :
    Steps s x ({ s with stage := .waiting, stats := { s.stats with bWaitingForPtp := true } }, [])
  | goesOn (hstage : s.stage = .head) (hanchored : s.bNeedAnchor = false) : Steps s x ({ s with stage := .pacing }, [])
  | synced (hstage : s.stage = .waiting) :
    Steps s x ({ s with stage := .anchoring, stats := { s.stats with bWaitingForPtp := false } }, [])
  | anchors (hstage : s.stage = .anchoring) : Steps s x (anchor x.nPtpNs s, [.anchored (x.nPtpNs + 20000000)])
  | paces (hstage : s.stage = .pacing) : Steps s x (e.pace x.nPtpNs s)
  | sends {pPacket : Bytes} {nDeadlineNs : BitVec 64} (hstage : s.stage = .spinning pPacket nDeadlineNs)
    (hreleased : e.Released nDeadlineNs x.nPtpNs) : Steps s x (e.send pPacket nDeadlineNs x s)

theorem steps (s : SendLoop σ) (x : SendReading) : e.Steps s x (e.step s x) := by
  cases hs : s.stage with
  | head =>
    simp only [step, hs]
    split_ifs with hrun hanchor
    · exact .waits hs
    · exact .goesOn hs (by simpa using fun hneed => hanchor (Or.inl hneed))
    · exact .returns (Or.inl hs)
  | waiting =>
    simp only [step, hs]
    split_ifs
    · exact .idle
    · exact .synced hs
  | anchoring =>
    simp only [step, hs]
    split_ifs
    · exact .anchors hs
    · exact .returns (Or.inr hs)
  | pacing =>
    simp only [step, hs]
    exact .paces hs
  | spinning pPacket nDeadlineNs =>
    simp only [step, hs]
    split_ifs with hreleased
    · exact .sends hs hreleased
    · exact .idle
  | returned =>
    simp only [step, hs]
    exact .idle

/-- The thread as `Configure` starts it: the numbers begin with the low half of the SSRC.
The counters start over, the lateness that is shown stays. -/
def start (source : σ) (stats : SendStats) : SendLoop σ where
  nSeq := e.settings.nSsrc.setWidth 16
  source := source
  stats := { stats with nPacketsSent := 0, nSendErrors := 0 }

def runLoop (source : σ) (stats : SendStats) (xs : List SendReading) : SendLoop σ × List SendOutcome :=
  runReport e.step (e.start source stats) xs

end SendEngine

section Report

/-- How many packets have left. -/
def departed (outs : List SendOutcome) : Nat :=
  outs.countP fun
    | .sent _ => true
    | _ => false

/-- The anchor in force, and how many packets have left since it was taken. -/
def countEpoch : Option (BitVec 64 × Nat) → SendOutcome → Option (BitVec 64 × Nat)
  | _, .anchored nStartNs => some (nStartNs, 0)
  | epoch, .sent _ => epoch.map fun x => (x.1, x.2 + 1)
  | _, .jumped => none
  | epoch, .returned => epoch

def epoch (outs : List SendOutcome) : Option (BitVec 64 × Nat) := outs.foldl countEpoch none

@[simp] theorem departed_append (outs more : List SendOutcome) : departed (outs ++ more) = departed outs + departed more :=
  List.countP_append

theorem epoch_snoc (outs : List SendOutcome) (o : SendOutcome) : epoch (outs ++ [o]) = countEpoch (epoch outs) o := by
  rw [epoch, List.foldl_append]
  rfl

end Report

namespace SendEngine
variable {α σ : Type*} (e : SendEngine α σ) (stream : Stream' α)

/-- The samples of the k-th packet of a stream. -/
def audioOf (k : Nat) : List α := (stream.drop (k * (e.settings.nFramesPerPacket * 2))).take (e.settings.nFramesPerPacket * 2)

/-- The number of the k-th packet. -/
def seqOf (k : Nat) : BitVec 16 := e.settings.nSsrc.setWidth 16 + BitVec.ofNat 16 k

/-- What a packet that leaves owes to those before it: it carries the next number and the
samples that follow theirs, and its deadline is as far from the anchor in force as the
packets since then take. -/
def Transmits (outs : List SendOutcome) : SendOutcome → Prop
  | .sent d =>
    d.pPacket = e.packet (e.seqOf (departed outs)) d.nDeadlineNs (e.audioOf stream (departed outs)) ∧
      (∃ nStartNs k, epoch outs = some (nStartNs, k) ∧ d.nDeadlineNs = e.settings.deadline nStartNs (BitVec.ofNat 64 k)) ∧
      e.Released d.nDeadlineNs d.nPtpNs
  | _ => True

/-- Where the source is, with so many packets read from it. -/
def ReadTo (toCome : σ → Stream' α) (Valid : σ → Prop) (source : σ) (k : Nat) : Prop :=
  Valid source ∧ toCome source = stream.drop (k * (e.settings.nFramesPerPacket * 2))

/-- What the thread keeps, at each of its stages. -/
def AtStage (toCome : σ → Stream' α) (Valid : σ → Prop) (outs : List SendOutcome) (s : SendLoop σ) : Prop :=
  match s.stage with
  | .spinning pPacket nDeadlineNs =>
    s.bNeedAnchor = false ∧ nDeadlineNs = e.settings.deadline s.nStartNs s.nPacket ∧
      pPacket = e.packet s.nSeq nDeadlineNs (e.audioOf stream (departed outs)) ∧
      e.ReadTo stream toCome Valid s.source (departed outs + 1)
  | .pacing => s.bNeedAnchor = false ∧ e.ReadTo stream toCome Valid s.source (departed outs)
  | _ => e.ReadTo stream toCome Valid s.source (departed outs)

structure SendBooks (toCome : σ → Stream' α) (Valid : σ → Prop) (outs : List SendOutcome) (s : SendLoop σ) : Prop where
  proper : Admits (e.Transmits stream) outs
  seq : s.nSeq = e.seqOf (departed outs)
  counted : s.stats.nPacketsSent = departed outs
  anchored : s.bNeedAnchor = false → ∃ k, epoch outs = some (s.nStartNs, k) ∧ s.nPacket = BitVec.ofNat 64 k
  stage : e.AtStage stream toCome Valid outs s

variable {e} {stream} {toCome : σ → Stream' α} {Valid : σ → Prop} {outs : List SendOutcome} {s : SendLoop σ}

/-- A read for a packet takes its samples off the stream. -/
theorem ReadTo.read (hserves : Serves e.read (· * 2) toCome Valid) {source : σ} {k : Nat}
    (h : e.ReadTo stream toCome Valid source k) :
    (e.read source e.settings.nFramesPerPacket).1.1 = e.audioOf stream k ∧
      e.ReadTo stream toCome Valid (e.read source e.settings.nFramesPerPacket).2 (k + 1) := by
  obtain ⟨hvalid, hcome⟩ := h
  have htaken := hserves.taken source e.settings.nFramesPerPacket hvalid
  have hdropped := hserves.dropped source e.settings.nFramesPerPacket hvalid
  refine ⟨?_, hserves.valid _ _ hvalid, ?_⟩
  · rw [htaken, hcome, audioOf]
  · rw [hdropped, hcome, Stream'.drop_drop, Nat.add_mul, one_mul]

theorem seqOf_succ (k : Nat) : e.seqOf k + 1 = e.seqOf (k + 1) := add_ofNat_add_one _ k

/-- The thread turns to another stage, with nothing to report. -/
theorem SendBooks.moved (h : SendBooks e stream toCome Valid outs s) {s' : SendLoop σ} (hseq : s'.nSeq = s.nSeq)
    (hsent : s'.stats.nPacketsSent = s.stats.nPacketsSent)
    (hanchor : s'.bNeedAnchor = s.bNeedAnchor ∧ s'.nStartNs = s.nStartNs ∧ s'.nPacket = s.nPacket)
    (hstage : e.AtStage stream toCome Valid outs s') : SendBooks e stream toCome Valid outs s' := by
  obtain ⟨hneed, hstart, hpacket⟩ := hanchor
  refine ⟨h.proper, hseq.trans h.seq, hsent.trans h.counted, ?_, hstage⟩
  rw [hneed, hstart, hpacket]
  exact h.anchored

/-- An outcome other than a packet. -/
theorem SendBooks.noted (h : SendBooks e stream toCome Valid outs s) {o : SendOutcome} (hproper : e.Transmits stream outs o)
    (hquiet : departed [o] = 0) {s' : SendLoop σ} (hseq : s'.nSeq = s.nSeq)
    (hsent : s'.stats.nPacketsSent = s.stats.nPacketsSent)
    (hanchor : s'.bNeedAnchor = false → ∃ k, epoch (outs ++ [o]) = some (s'.nStartNs, k) ∧ s'.nPacket = BitVec.ofNat 64 k)
    (hstage : e.AtStage stream toCome Valid outs s') : SendBooks e stream toCome Valid (outs ++ [o]) s' := by
  have hsame : departed (outs ++ [o]) = departed outs := by rw [departed_append, hquiet, Nat.add_zero]
  refine ⟨h.proper.snoc hproper, ?_, ?_, hanchor, ?_⟩
  · rw [hseq, hsame]
    exact h.seq
  · rw [hsent, hsame]
    exact h.counted
  · unfold AtStage at hstage ⊢
    rwa [hsame]

theorem books_anchor (h : SendBooks e stream toCome Valid outs s) (hread : e.ReadTo stream toCome Valid s.source (departed outs))
    (nPtpNs : BitVec 64) :
    SendBooks e stream toCome Valid (outs ++ [.anchored (nPtpNs + 20000000)]) (anchor nPtpNs s) := by
  refine h.noted (o := .anchored (nPtpNs + 20000000)) trivial rfl rfl rfl (fun _ => ⟨0, ?_, rfl⟩) ⟨rfl, hread⟩
  rw [epoch_snoc]
  rfl

/-- A packet is built from the samples that come next, under the number that comes next. -/
theorem books_pace (hserves : Serves e.read (· * 2) toCome Valid) (h : SendBooks e stream toCome Valid outs s)
    (hneed : s.bNeedAnchor = false) (hread : e.ReadTo stream toCome Valid s.source (departed outs)) (nPtpNs : BitVec 64) :
    SendBooks e stream toCome Valid (outs ++ (e.pace nPtpNs s).2) (e.pace nPtpNs s).1 := by
  unfold pace
  dsimp only
  split
  · refine h.noted (o := .jumped) trivial rfl rfl rfl (fun hfalse => ?_) hread
    cases hfalse
  · obtain ⟨haudio, hnext⟩ := hread.read hserves
    rw [List.append_nil]
    refine h.moved rfl rfl ⟨rfl, rfl, rfl⟩ ⟨hneed, rfl, ?_, hnext⟩
    rw [haudio]

theorem measure_fields (nDeadlineNs : BitVec 64) (nLateNs : Int) (s : SendLoop σ) :
    (measure nDeadlineNs nLateNs s).source = s.source ∧ (measure nDeadlineNs nLateNs s).bNeedAnchor = s.bNeedAnchor ∧
      (measure nDeadlineNs nLateNs s).nStartNs = s.nStartNs ∧
      (measure nDeadlineNs nLateNs s).stats.nPacketsSent = s.stats.nPacketsSent := by
  unfold measure
  dsimp only
  split
  · exact ⟨rfl, rfl, rfl, rfl⟩
  · exact ⟨rfl, rfl, rfl, rfl⟩

/-- A packet leaves as it was built. -/
theorem books_send (h : SendBooks e stream toCome Valid outs s) {pPacket : Bytes} {nDeadlineNs : BitVec 64}
    (hstage : s.stage = .spinning pPacket nDeadlineNs) {x : SendReading} (hreleased : e.Released nDeadlineNs x.nPtpNs) :
    SendBooks e stream toCome Valid (outs ++ (e.send pPacket nDeadlineNs x s).2) (e.send pPacket nDeadlineNs x s).1 := by
  have hspinning := h.stage
  simp only [AtStage, hstage] at hspinning
  obtain ⟨hneed, hdeadline, hpacket, hread⟩ := hspinning
  obtain ⟨k, hepoch, hk⟩ := h.anchored hneed
  have hone : departed (outs ++ (e.send pPacket nDeadlineNs x s).2) = departed outs + 1 := departed_append _ _
  have hcounted := h.counted
  have hseq := h.seq
  obtain ⟨hsource, hanchor, hstart, hsent⟩ := measure_fields nDeadlineNs (lateNs nDeadlineNs x.nPtpSentNs)
    { s with stats := { s.stats with
        nSendErrors := s.stats.nSendErrors + (e.settings.legsOn x.abLegEnabled).countP x.bRefused
        nPacketsSent := s.stats.nPacketsSent + 1 } }
  refine ⟨h.proper.snoc ⟨?_, ⟨s.nStartNs, k, hepoch, ?_⟩, hreleased⟩, ?_, ?_, fun _ => ⟨k + 1, ?_, ?_⟩, ?_⟩
  · rw [hpacket, hseq]
  · rw [hdeadline, hk]
  · rw [hone, ← seqOf_succ, ← hseq]
    rfl
  · rw [hone, ← hcounted]
    exact hsent
  · have hnext : epoch (outs ++ (e.send pPacket nDeadlineNs x s).2) = some (s.nStartNs, k + 1) := by
      rw [send, epoch_snoc, hepoch]
      rfl
    rw [hnext]
    exact congrArg (fun nStartNs => some (nStartNs, k + 1)) hstart.symm
  · rw [BitVec.ofNat_add, ← hk]
    rfl
  · have hafter : (e.send pPacket nDeadlineNs x s).1.source = s.source := hsource
    have hthen : (e.send pPacket nDeadlineNs x s).1.stage = .head := rfl
    simp only [AtStage, hthen]
    rw [hone, hafter]
    exact hread

/-- What one step of the thread keeps. -/
theorem books_step (hserves : Serves e.read (· * 2) toCome Valid) (x : SendReading) :
    Lib.Keeps (SendBooks e stream toCome Valid) (e.step · x) := by
  intro outs s h
  have hstage := h.stage
  have hstep := e.steps s x
  dsimp only
  generalize e.step s x = y at hstep ⊢
  cases hstep with
  | idle => rwa [List.append_nil]
  | returns hs =>
    refine h.noted (o := .returned) trivial rfl rfl rfl ?_ ?_
    · rw [epoch_snoc]
      exact h.anchored
    · rcases hs with hs | hs <;> simpa only [AtStage, hs] using hstage
  | waits hs =>
    rw [List.append_nil]
    exact h.moved rfl rfl ⟨rfl, rfl, rfl⟩ (by simpa only [AtStage, hs] using hstage)
  | goesOn hs hanchored =>
    rw [List.append_nil]
    exact h.moved rfl rfl ⟨rfl, rfl, rfl⟩ ⟨hanchored, by simpa only [AtStage, hs] using hstage⟩
  | synced hs =>
    rw [List.append_nil]
    exact h.moved rfl rfl ⟨rfl, rfl, rfl⟩ (by simpa only [AtStage, hs] using hstage)
  | anchors hs => exact books_anchor h (by simpa only [AtStage, hs] using hstage) x.nPtpNs
  | paces hs =>
    simp only [AtStage, hs] at hstage
    exact books_pace hserves h hstage.1 hstage.2 x.nPtpNs
  | sends hs hreleased => exact books_send h hs hreleased

theorem books_runLoop (hserves : Serves e.read (· * 2) toCome Valid) {source : σ} (hvalid : Valid source)
    (stats : SendStats) (xs : List SendReading) :
    SendBooks e (toCome source) toCome Valid (e.runLoop source stats xs).2 (e.runLoop source stats xs).1 := by
  have hstart : e.ReadTo (toCome source) toCome Valid source 0 := ⟨hvalid, by rw [Nat.zero_mul]; rfl⟩
  refine runReport_invariant ⟨admits_nil, ?_, rfl, fun hfalse => ?_, hstart⟩ (books_step hserves) xs
  · rw [seqOf]
    exact (BitVec.add_zero _).symm
  · cases hfalse

/-- A file of two frames in a loop, sent in packets of 125 microseconds. -/
def loopedFile : SendEngine Int (Audio.MemorySource Int) where
  settings := { nPacketTimeUs := 125, vSockets := [⟨0, 5004⟩], vLegs := [⟨"eth0", "239.1.1.1", true⟩], bRun := true }
  read := Audio.MemorySource.read
  quantise _ := ⟨0, by norm_num, by norm_num⟩

/-- The readings of a thread that sends one packet. -/
def onePacket : List SendReading :=
  [⟨true, true, 0, bothEnabled, fun _ => false, 0⟩, ⟨true, true, 0, bothEnabled, fun _ => false, 0⟩,
    ⟨true, true, 0, bothEnabled, fun _ => false, 0⟩, ⟨true, true, 0, bothEnabled, fun _ => false, 0⟩,
    ⟨true, true, 20000000, bothEnabled, fun _ => false, 20000007⟩]

section Stamps

theorem rtpTs_buildPacket (s : RtpSender) (nSeq : BitVec 16) (nRtpTs : BitVec 32) (vAudio : List Int) :
    rtpTs (s.buildPacket nSeq nRtpTs vAudio) = nRtpTs := by
  have hoctets : rtpTs (s.buildPacket nSeq nRtpTs vAudio) =
      nRtpTs.extractLsb' 24 8 ++ nRtpTs.extractLsb' 16 8 ++ (nRtpTs.extractLsb' 8 8 ++ nRtpTs.extractLsb' 0 8) := rfl
  have hhigh : nRtpTs.extractLsb' 24 8 ++ nRtpTs.extractLsb' 16 8 = nRtpTs.extractLsb' 16 16 := by
    rw [BitVec.extractLsb'_append_extractLsb'_eq_extractLsb' (by norm_num)]
  have hlow : nRtpTs.extractLsb' 8 8 ++ nRtpTs.extractLsb' 0 8 = nRtpTs.extractLsb' 0 16 := by
    rw [BitVec.extractLsb'_append_extractLsb'_eq_extractLsb' (by norm_num)]
  rw [hoctets, hhigh, hlow]
  exact BitVec.extractLsb'_append_extractLsb'

/-- The timestamp of a packet counts the frames that were sent since the anchor. -/
def CountsFrames (outs : List SendOutcome) : SendOutcome → Prop
  | .sent d => ∃ nStartNs k, epoch outs = some (nStartNs, k) ∧
      (e.settings.dueNs nStartNs k < 2 ^ 64 →
        rtpTs d.pPacket = BitVec.ofNat 32 (samplesIn nStartNs + k * e.settings.nFramesPerPacket))
  | _ => True

/-- With whole samples in a packet time, the media clock goes on by what is sent. -/
theorem runLoop_countsFrames (htime : PacketTime e.settings) (hdvd : 125 ∣ e.settings.nPacketTimeUs)
    (hserves : Serves e.read (· * 2) toCome Valid) {source : σ} (hvalid : Valid source) (stats : SendStats)
    (xs : List SendReading) : Admits e.CountsFrames (e.runLoop source stats xs).2 := by
  have hbooks := books_runLoop hserves hvalid stats xs
  intro pre o post hsplit
  have hproper := hbooks.proper pre o post hsplit
  cases o with
  | sent d =>
    obtain ⟨hpacket, ⟨nStartNs, k, hepoch, hdeadline⟩, -⟩ := hproper
    refine ⟨nStartNs, k, hepoch, fun hdue => ?_⟩
    have hcont := contiguous_of_dvd htime hdvd nStartNs
    rw [hpacket, packet, rtpTs_buildPacket, rtpTimestamp_eq, hdeadline, samplesIn, toNat_deadline htime hdue,
      samples_of_contiguous htime hcont k hdue]
    rfl
  | anchored nStartNs => trivial
  | jumped => trivial
  | returned => trivial

theorem runLoop_countsFrames_file :
    Admits loopedFile.CountsFrames (loopedFile.runLoop ⟨[1, 2, 3, 4], "a.wav", true, 0⟩ {} onePacket).2 :=
  runLoop_countsFrames ⟨by norm_num [loopedFile], by norm_num [loopedFile], by norm_num [loopedFile]⟩
    (by norm_num [loopedFile]) Audio.MemorySource.serves trivial {} onePacket

end Stamps

end SendEngine

end PiAudioNode.Rtp
