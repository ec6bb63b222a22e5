import PiAudioNode.Lib.Output
import PiAudioNode.Rtp.Packet

/-! The receiver engine: packets of two legs meet in one jitter buffer, which the
playout loop empties. What either side does is reported as outcomes. -/
namespace PiAudioNode.Rtp
open Lib

/-- Nanoseconds of the steady clock. -/
abbrev Time := Int

/-- The legs in session order. -/
inductive Leg where
  | primary
  | secondary
  deriving DecidableEq

def jitterSlots : Nat := 1024

theorem jitterSlots_pos : 0 < jitterSlots := by decide

abbrev SlotIndex := Fin jitterSlots

def slotOf (nSeq : BitVec 16) : SlotIndex := ⟨nSeq.toNat % jitterSlots, Nat.mod_lt _ jitterSlots_pos⟩

/-- Generation 0 marks an empty slot, otherwise it is one more than the number stored. -/
structure Slot where
  nGeneration : Nat := 0
  nSeq : BitVec 16 := 0
  vSamples : List Frame := []

structure LegState where
  nReceived : Nat := 0
  nLost : Nat := 0
  bActive : Bool := false
  nLastSeq : BitVec 16 := 0
  bHaveSeq : Bool := false
  lastPacket : Time := 0

def sampleRate : Nat := 48000

/-- What `Configure` fixes for the run. -/
structure RxConfig where
  session : SdpSession
  nPlayoutDelayMs : Nat
  nFramesPerPacket : Nat
  bTwoLegs : Bool

def framesPerPacket (dPacketTimeMs : ℚ) : Nat :=
  let n := ⌊sampleRate * dPacketTimeMs / 1000⌋.toNat
  if n = 0 then 48 else n

def RxConfig.ofSession (session : SdpSession) (nPlayoutDelayMs : Int) : RxConfig where
  session := session
  nPlayoutDelayMs := (max 2 (min nPlayoutDelayMs 500)).toNat
  nFramesPerPacket := framesPerPacket session.dPacketTimeMs
  bTwoLegs := 2 ≤ session.vLegs.length

def RxConfig.nTargetDelayFrames (cfg : RxConfig) : Int := (cfg.nPlayoutDelayMs * sampleRate / 1000 : Nat)

def RxConfig.vSilence (cfg : RxConfig) : List Frame := List.replicate cfg.nFramesPerPacket ⟨0, 0⟩

/-- Where the playout thread is: waiting for the first packet, in the sleep before
the start, at the head of the loop, in the short sleep of an iteration, or parked. -/
inductive Playout where
  | awaitFirst
  | preroll
  | loop
  | napping
  | parked
  deriving DecidableEq

structure RtpReceiver where
  aLegs : Leg → LegState := fun _ => {}
  vJitter : SlotIndex → Slot := fun _ => {}
  bHaveFirst : Bool := false
  nFirstSeq : BitVec 16 := 0
  nFirstTs : BitVec 32 := 0
  bReceiving : Bool := false
  nPlayed : Nat := 0
  nConcealed : Nat := 0
  nDuplicates : Nat := 0
  nMergedFromSecondary : Nat := 0
  monitor : Monitor := {}
  nNextSeq : BitVec 16 := 0
  playout : Playout := .awaitFirst

inductive Outcome where
  | accepted (nLeg : Leg) (nSeq : BitVec 16) (vSamples : List Frame)
  | duplicate (nLeg : Leg) (nSeq : BitVec 16)
  | anchored (nSeq : BitVec 16)
  | played (nSeq : BitVec 16) (vSamples : List Frame)
  | concealed (nSeq : BitVec 16) (vSamples : List Frame)
  | dropped (nSeq : BitVec 16)
  deriving DecidableEq

def Outcome.isAnchor : Outcome → Bool
  | .anchored _ => true
  | _ => false

def Outcome.isPlayed : Outcome → Bool
  | .played .. => true
  | _ => false

def Outcome.isConcealed : Outcome → Bool
  | .concealed .. => true
  | _ => false

def Outcome.isDuplicate : Outcome → Bool
  | .duplicate .. => true
  | _ => false

def Outcome.isMerged : Outcome → Bool
  | .accepted .secondary _ _ => true
  | _ => false

/-- `Stop` and then the start of both threads: slots emptied, counters at zero. -/
def configure (cfg : RxConfig) (r : RtpReceiver) : RtpReceiver :=
  { r with
    aLegs := fun nLeg =>
      let leg := { r.aLegs nLeg with bActive := false, bHaveSeq := false }
      if nLeg = .primary ∨ cfg.bTwoLegs then { leg with nReceived := 0, nLost := 0 } else leg
    vJitter := fun nSlot => { r.vJitter nSlot with nGeneration := 0 }
    bHaveFirst := false
    bReceiving := false
    nPlayed := 0
    nConcealed := 0
    nDuplicates := 0
    nMergedFromSecondary := 0
    playout := .awaitFirst }

/-- The slot of a number holds that number. -/
def Holds (r : RtpReceiver) (nSeq : BitVec 16) : Prop := (r.vJitter (slotOf nSeq)).nGeneration = nSeq.toNat + 1

instance (r : RtpReceiver) (nSeq : BitVec 16) : Decidable (Holds r nSeq) :=
  inferInstanceAs (Decidable ((r.vJitter (slotOf nSeq)).nGeneration = nSeq.toNat + 1))

/-- The bookkeeping of a leg for every RTP packet, whatever its payload. -/
def countArrival (leg : LegState) (nSeq : BitVec 16) (now : Time) : LegState :=
  let nDiff := (nSeq - leg.nLastSeq).toInt
  { leg with
    lastPacket := now
    bActive := true
    nReceived := leg.nReceived + 1
    nLost := if leg.bHaveSeq ∧ 1 < nDiff then leg.nLost + (nDiff - 1).toNat else leg.nLost
    nLastSeq := nSeq
    bHaveSeq := true }

def noteArrival (r : RtpReceiver) (nLeg : Leg) (nSeq : BitVec 16) (now : Time) : RtpReceiver :=
  { r with
    aLegs := Function.update r.aLegs nLeg (countArrival (r.aLegs nLeg) nSeq now)
    bReceiving := true }

/-- First arrival wins: the slot takes the frames, or the copy is discarded. -/
def merge (r : RtpReceiver) (nLeg : Leg) (nSeq : BitVec 16) (nTs : BitVec 32) (vSamples : List Frame) :
    RtpReceiver × List Outcome :=
  if Holds r nSeq then ({ r with nDuplicates := r.nDuplicates + 1 }, [.duplicate nLeg nSeq])
  else
    ({ r with
        vJitter := Function.update r.vJitter (slotOf nSeq) ⟨nSeq.toNat + 1, nSeq, vSamples⟩
        nMergedFromSecondary := if nLeg = .secondary then r.nMergedFromSecondary + 1 else r.nMergedFromSecondary
        bHaveFirst := true
        nFirstSeq := if r.bHaveFirst then r.nFirstSeq else nSeq
        nFirstTs := if r.bHaveFirst then r.nFirstTs else nTs },
      [.accepted nLeg nSeq vSamples])

def handlePacket (cfg : RxConfig) (r : RtpReceiver) (nLeg : Leg) (pData : Bytes) (now : Time) :
    RtpReceiver × List Outcome :=
  if ¬ isRtp pData then (r, [])
  else
    let vSamples := decodeFrames cfg.session r.monitor pData
    let r := noteArrival r nLeg (rtpSeq pData) now
    if vSamples = [] then (r, []) else merge r nLeg (rtpSeq pData) (rtpTs pData) vSamples

/-- The ageing of silent legs in the receive loop. -/
def ageLegs (cfg : RxConfig) (r : RtpReceiver) (now : Time) : RtpReceiver :=
  let counted (nLeg : Leg) : Bool := nLeg = .primary ∨ cfg.bTwoLegs
  let fresh (nLeg : Leg) : Bool := counted nLeg ∧ now - (r.aLegs nLeg).lastPacket < 500000000
  { r with
    aLegs := fun nLeg =>
      if counted nLeg ∧ ¬ fresh nLeg then { r.aLegs nLeg with bActive := false } else r.aLegs nLeg
    bReceiving := if fresh .primary ∨ fresh .secondary then r.bReceiving else false }

/-- Empty the slot of a number. -/
def release (r : RtpReceiver) (nSeq : BitVec 16) : RtpReceiver :=
  { r with vJitter := Function.update r.vJitter (slotOf nSeq) { r.vJitter (slotOf nSeq) with nGeneration := 0 } }

def play (r : RtpReceiver) : RtpReceiver × List Outcome :=
  ({ release r r.nNextSeq with nPlayed := r.nPlayed + 1, nNextSeq := r.nNextSeq + 1 },
    [.played r.nNextSeq (r.vJitter (slotOf r.nNextSeq)).vSamples])

def conceal (cfg : RxConfig) (r : RtpReceiver) : RtpReceiver × List Outcome :=
  ({ r with nConcealed := r.nConcealed + 1, nNextSeq := r.nNextSeq + 1 }, [.concealed r.nNextSeq cfg.vSilence])

/-- Drift steering at the end of an iteration, on a reading of the queue level. -/
def steer (cfg : RxConfig) (nDelay : Int) (r : RtpReceiver) : RtpReceiver × List Outcome :=
  if cfg.nTargetDelayFrames + 4 * cfg.nFramesPerPacket < nDelay ∧ Holds r r.nNextSeq then
    ({ release r r.nNextSeq with nNextSeq := r.nNextSeq + 1 }, [.dropped r.nNextSeq])
  else (r, [])

/-- One of the next 16 numbers is waiting. -/
def Newer (r : RtpReceiver) : Prop := ∃ nAhead ∈ List.range' 1 16, Holds r (r.nNextSeq + BitVec.ofNat 16 nAhead)

instance (r : RtpReceiver) : Decidable (Newer r) :=
  inferInstanceAs (Decidable (∃ nAhead ∈ List.range' 1 16, Holds r (r.nNextSeq + BitVec.ofNat 16 nAhead)))

/-- Adopt the first number of the stream. -/
def anchor (r : RtpReceiver) : RtpReceiver × List Outcome :=
  ({ r with nNextSeq := r.nFirstSeq, playout := .loop }, [.anchored r.nFirstSeq])

def wake (r : RtpReceiver) : RtpReceiver × List Outcome := ({ r with playout := .loop }, [])

/-- The playout thread up to its next sleep or the end of the iteration. `nDelay`
is the queue level it reads on the way, `nDrift` the one drift steering reads. -/
def playoutStep (cfg : RxConfig) (nDelay nDrift : Int) (r : RtpReceiver) : RtpReceiver × List Outcome :=
  match r.playout with
  | .awaitFirst => (if r.bHaveFirst then { r with playout := .preroll } else r, [])
  | .preroll => anchor r
  | .loop =>
    if Holds r r.nNextSeq then andThen (play r) (steer cfg nDrift)
    else if r.bReceiving then
      if 2 * cfg.nFramesPerPacket < nDelay then ({ r with playout := .napping }, [])
      else andThen (conceal cfg r) (steer cfg nDrift)
    else ({ r with bHaveFirst := false, playout := .parked }, [])
  | .napping =>
    if Newer r ∧ nDelay < cfg.nTargetDelayFrames / 2 then
      andThen (wake r) fun r => andThen (conceal cfg r) (steer cfg nDrift)
    else andThen (wake r) (steer cfg nDrift)
  | .parked => if r.bHaveFirst then andThen (anchor r) (steer cfg nDrift) else (r, [])

inductive Event where
  | packet (nLeg : Leg) (pData : Bytes) (now : Time)
  | age (now : Time)
  | setMonitor (nLeft nRight : Int)
  | playout (nDelay nDrift : Int)

def step (cfg : RxConfig) (r : RtpReceiver) : Event → RtpReceiver × List Outcome
  | .packet nLeg pData now => if 12 < pData.length then handlePacket cfg r nLeg pData now else (r, [])
  | .age now => (ageLegs cfg r now, [])
  | .setMonitor nLeft nRight => ({ r with monitor := ⟨nLeft, nRight⟩ }, [])
  | .playout nDelay nDrift => playoutStep cfg nDelay nDrift r

/-- The engine and what it did, from the start of its threads. -/
def runEngine (cfg : RxConfig) (r : RtpReceiver) (es : List Event) : RtpReceiver × List Outcome :=
  runReport (step cfg) (configure cfg r) es

section Parts
variable {cfg : RxConfig} {I : List Outcome → RtpReceiver → Prop}

/-- A property of the report and the state it leads to, kept by the parts of a playout
step. Besides them a step only changes its phase, and may ask for a first number again. -/
structure PlayoutKeeps (cfg : RxConfig) (I : List Outcome → RtpReceiver → Prop) : Prop where
  phase : ∀ outs r bHaveFirst playout, I outs r → I outs { r with bHaveFirst, playout }
  play : ∀ outs r, Holds r r.nNextSeq → I outs r → I (outs ++ (play r).2) (play r).1
  conceal : Keeps I (conceal cfg)
  steer : ∀ nDrift, Keeps I (steer cfg nDrift)
  anchor : Keeps I anchor

theorem PlayoutKeeps.playoutStep (h : PlayoutKeeps cfg I) (nDelay nDrift : Int) :
    Keeps I (Rtp.playoutStep cfg nDelay nDrift) := by
  intro outs r hI
  have quiet (bHaveFirst : Bool) (playout : Playout) : I (outs ++ []) { r with bHaveFirst, playout } := by
    rw [List.append_nil]
    exact h.phase outs r bHaveFirst playout hI
  have woken : I (outs ++ []) (wake r).1 := quiet r.bHaveFirst .loop
  have steered := h.steer nDrift
  unfold Rtp.playoutStep
  split
  · split
    · exact quiet r.bHaveFirst .preroll
    · rwa [List.append_nil]
  · exact h.anchor outs r hI
  · split
    · rename_i hheld
      have hplayed := steered _ _ (h.play outs r hheld hI)
      rwa [List.append_assoc] at hplayed
    · split
      · split
        · exact quiet r.bHaveFirst .napping
        · exact (h.conceal.andThen steered) outs r hI
      · exact quiet false .parked
  · rw [List.append_nil] at woken
    split
    · exact (h.conceal.andThen steered) outs _ woken
    · exact steered outs _ woken
  · split
    · exact (h.anchor.andThen steered) outs r hI
    · rwa [List.append_nil]

/-- A property kept by the parts of every step of the engine. -/
structure EngineKeeps (cfg : RxConfig) (I : List Outcome → RtpReceiver → Prop) : Prop extends PlayoutKeeps cfg I where
  arrival : ∀ outs r nLeg nSeq now, I outs r → I outs (noteArrival r nLeg nSeq now)
  merge : ∀ nLeg nSeq nTs vSamples, Keeps I (merge · nLeg nSeq nTs vSamples)
  age : ∀ outs r now, I outs r → I outs (ageLegs cfg r now)
  monitor : ∀ outs r monitor, I outs r → I outs { r with monitor }

theorem EngineKeeps.step (h : EngineKeeps cfg I) (e : Event) : Keeps I (Rtp.step cfg · e) := by
  intro outs r hI
  cases e with
  | packet nLeg pData now =>
    have hnoted := h.arrival outs r nLeg (rtpSeq pData) now hI
    dsimp only [Rtp.step, handlePacket]
    split
    · split
      · rwa [List.append_nil]
      · split
        · rwa [List.append_nil]
        · exact h.merge nLeg (rtpSeq pData) (rtpTs pData) _ outs _ hnoted
    · rwa [List.append_nil]
  | age now =>
    dsimp only [Rtp.step]
    rw [List.append_nil]
    exact h.age outs r now hI
  | setMonitor nLeft nRight =>
    dsimp only [Rtp.step]
    rw [List.append_nil]
    exact h.monitor outs r ⟨nLeft, nRight⟩ hI
  | playout nDelay nDrift => exact h.playoutStep nDelay nDrift outs r hI

theorem EngineKeeps.run {r : RtpReceiver} (h : EngineKeeps cfg I) (start : I [] (configure cfg r)) (es : List Event) :
    I (runEngine cfg r es).2 (runEngine cfg r es).1 := runReport_invariant start h.step es

end Parts

theorem holds_release (r : RtpReceiver) (nSeq nHeld : BitVec 16) :
    Holds (release r nSeq) nHeld ↔ Holds r nHeld ∧ slotOf nSeq ≠ slotOf nHeld := by
  unfold Holds release
  by_cases h : slotOf nSeq = slotOf nHeld
  · simp [h]
  · simp [h, Function.update_of_ne (Ne.symm h)]

@[simp] theorem release_samples (r : RtpReceiver) (nSeq : BitVec 16) (nSlot : SlotIndex) :
    ((release r nSeq).vJitter nSlot).vSamples = (r.vJitter nSlot).vSamples := by
  by_cases h : nSlot = slotOf nSeq
  · subst h
    simp [release]
  · simp [release, Function.update_of_ne h]

/-- A slot holds one number at a time. -/
theorem holds_unique {r : RtpReceiver} {nSeq nOther : BitVec 16} (h : Holds r nSeq) (ho : Holds r nOther)
    (hslot : slotOf nSeq = slotOf nOther) : nSeq = nOther := by
  apply BitVec.eq_of_toNat_eq
  unfold Holds at h ho
  rw [hslot] at h
  omega

/-- A copy that finds its slot free takes it. -/
theorem holds_merge {r : RtpReceiver} {nSeq : BitVec 16} (hfree : ¬ Holds r nSeq) (nLeg : Leg) (nTs : BitVec 32)
    (vSamples : List Frame) (n : BitVec 16) : Holds (merge r nLeg nSeq nTs vSamples).1 n ↔
      n = nSeq ∨ Holds r n ∧ slotOf n ≠ slotOf nSeq := by
  rw [merge, if_neg hfree]
  by_cases hn : n = nSeq
  · subst hn
    simp [Holds]
  · by_cases hslot : slotOf n = slotOf nSeq
    · have : n.toNat ≠ nSeq.toNat := fun he => hn (BitVec.eq_of_toNat_eq he)
      simp [Holds, hslot, hn, Ne.symm this]
    · simp [Holds, hn, hslot]

/-- The slot of a free number takes the frames, the others keep theirs. -/
theorem merge_samples {r : RtpReceiver} {nSeq : BitVec 16} (hfree : ¬ Holds r nSeq) (nLeg : Leg) (nTs : BitVec 32)
    (vSamples : List Frame) (nSlot : SlotIndex) : ((merge r nLeg nSeq nTs vSamples).1.vJitter nSlot).vSamples =
      if nSlot = slotOf nSeq then vSamples else (r.vJitter nSlot).vSamples := by
  rw [merge, if_neg hfree]
  by_cases hslot : nSlot = slotOf nSeq
  · simp [hslot]
  · simp [hslot]

/-- What a packet does to the slots: the one of its number takes the frames, if there are
any and it is free. -/
theorem vJitter_handlePacket (cfg : RxConfig) (r : RtpReceiver) (nLeg : Leg) (pData : Bytes) (now : Time) :
    (handlePacket cfg r nLeg pData now).1.vJitter =
      if isRtp pData ∧ decodeFrames cfg.session r.monitor pData ≠ [] ∧ ¬ Holds r (rtpSeq pData) then
        Function.update r.vJitter (slotOf (rtpSeq pData))
          ⟨(rtpSeq pData).toNat + 1, rtpSeq pData, decodeFrames cfg.session r.monitor pData⟩
      else r.vJitter := by
  have hsame : Holds (noteArrival r nLeg (rtpSeq pData) now) (rtpSeq pData) ↔ Holds r (rtpSeq pData) := Iff.rfl
  rw [handlePacket]
  by_cases hrtp : isRtp pData
  · rw [if_neg (not_not_intro hrtp)]
    dsimp only
    by_cases hnone : decodeFrames cfg.session r.monitor pData = []
    · rw [if_pos hnone, if_neg fun h => h.2.1 hnone]
      rfl
    · by_cases hheld : Holds r (rtpSeq pData)
      · rw [if_neg hnone, merge, if_pos (hsame.mpr hheld), if_neg fun h => h.2.2 hheld]
        rfl
      · rw [if_neg hnone, merge, if_neg (mt hsame.mp hheld)]
        exact (if_pos ⟨hrtp, hnone, hheld⟩).symm
  · rw [if_pos hrtp, if_neg fun h => hrtp h.1]

theorem slotOf_shift (nSeq : BitVec 16) (j k : Int) :
    slotOf (shift nSeq j) = slotOf (shift nSeq k) ↔ (j - k) % jitterSlots = 0 := by
  have residue (i : Int) : ((shift nSeq i).toNat : Int) % 1024 = (nSeq.toNat + i) % 1024 := by
    rw [shift, BitVec.toNat_add, BitVec.toNat_ofInt]
    omega
  have hj := residue j
  have hk := residue k
  rw [Fin.ext_iff]
  simp only [slotOf, jitterSlots]
  omega

end PiAudioNode.Rtp
