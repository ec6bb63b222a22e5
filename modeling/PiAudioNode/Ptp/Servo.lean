import Mathlib
import PiAudioNode.Lib.Filter
import PiAudioNode.Ptp.Client

/-! The PTP client's clock: Sync, Follow_Up and Delay_Resp messages, the pairing
state they share, and the offset and path delay filters. Doubles are exact. -/
namespace PiAudioNode.Ptp
open Lib

structure PtpClock extends PtpClient where
  nDomain : Int := 0
  ownIdentity : ClockIdentity := default
  nSyncSeq : BitVec 16 := 0
  nSyncRxNs : BitVec 64 := 0
  nDelaySeq : BitVec 16 := 0
  nDelayReqTxNs : BitVec 64 := 0
  dMeanPathDelayNs : ℚ := 0
  dSmoothedOffsetNs : ℚ := 0
  nMappingNs : Int := 0
  nSyncCount : Nat := 0

/-- What the filters were fed: the two times of an offset sample, or the two
times of a path delay sample that passed the plausibility check. -/
inductive Sample where
  | offset (nT1 nT2 : BitVec 64)
  | pathDelay (nT4 nT3 : BitVec 64)
  deriving DecidableEq

/-- Truncation as the cast to an integer has it. -/
def truncate (d : ℚ) : Int := d.num.tdiv d.den

def offsetJump : ℚ := 50000000
def delayLimit : ℚ := 100000000

/-- The window with one more sample, restarted first on a jump. -/
def pushOffset (qOffsetWindow : List ℚ) (dSmoothedOffsetNs dOffsetNs : ℚ) : List ℚ :=
  let q := if 8 ≤ qOffsetWindow.length ∧ offsetJump < |dOffsetNs - dSmoothedOffsetNs| then [] else qOffsetWindow
  let q := q ++ [dOffsetNs]
  if 16 < q.length then q.tail else q

def addOffsetSample (c : PtpClock) (dOffsetNs : ℚ) : PtpClock :=
  let q := pushOffset c.qOffsetWindow c.dSmoothedOffsetNs dOffsetNs
  if 4 ≤ q.length then
    let dMedian := median q 0
    let d := if c.bSynced then lowPass c.dSmoothedOffsetNs dMedian else dMedian
    { c with qOffsetWindow := q, dSmoothedOffsetNs := d, nMappingNs := truncate d, bSynced := true }
  else { c with qOffsetWindow := q }

@[simp] theorem addOffsetSample_qOffsetWindow (c : PtpClock) (d : ℚ) :
    (addOffsetSample c d).qOffsetWindow = pushOffset c.qOffsetWindow c.dSmoothedOffsetNs d := by
  simp only [addOffsetSample]
  split_ifs <;> rfl

@[simp] theorem addOffsetSample_bHaveDelay (c : PtpClock) (d : ℚ) :
    (addOffsetSample c d).bHaveDelay = c.bHaveDelay := by
  simp only [addOffsetSample]
  split_ifs <;> rfl

@[simp] theorem addOffsetSample_dMeanPathDelayNs (c : PtpClock) (d : ℚ) :
    (addOffsetSample c d).dMeanPathDelayNs = c.dMeanPathDelayNs := by
  simp only [addOffsetSample]
  split_ifs <;> rfl

/-- A short window leaves the offset alone. -/
theorem addOffsetSample_short {c : PtpClock} {d : ℚ}
    (h : (pushOffset c.qOffsetWindow c.dSmoothedOffsetNs d).length < 4) :
    (addOffsetSample c d).dSmoothedOffsetNs = c.dSmoothedOffsetNs ∧ (addOffsetSample c d).bSynced = c.bSynced := by
  simp only [addOffsetSample, if_neg (not_le.mpr h), and_self]

theorem addOffsetSample_long {c : PtpClock} {d : ℚ}
    (h : 4 ≤ (pushOffset c.qOffsetWindow c.dSmoothedOffsetNs d).length) :
    (addOffsetSample c d).dSmoothedOffsetNs =
        (if c.bSynced then lowPass c.dSmoothedOffsetNs (median (pushOffset c.qOffsetWindow c.dSmoothedOffsetNs d) 0)
          else median (pushOffset c.qOffsetWindow c.dSmoothedOffsetNs d) 0) ∧
      (addOffsetSample c d).bSynced = true := by
  simp only [addOffsetSample, if_pos h, and_self]

/-- A master-to-slave difference, which still misses the path delay. -/
def addM2S (c : PtpClock) (dM2S : ℚ) : PtpClock :=
  let c := addOffsetSample c (dM2S + if c.bHaveDelay then c.dMeanPathDelayNs else 0)
  { c with nSyncCount := c.nSyncCount + 1 }

def completeMeasurement (c : PtpClock) (nT1 nT2 : BitVec 64) : PtpClock := addM2S c (nT1 - nT2).toInt

/-- The path delay that a slave-to-master difference means, and whether it is believed. -/
def delayOf (c : PtpClock) (dS2M : ℚ) : ℚ := dS2M - c.dSmoothedOffsetNs

def Plausible (c : PtpClock) (dS2M : ℚ) : Prop := 0 ≤ delayOf c dS2M ∧ delayOf c dS2M < delayLimit

instance (c : PtpClock) (dS2M : ℚ) : Decidable (Plausible c dS2M) := inferInstanceAs (Decidable (_ ∧ _))

def addS2M (c : PtpClock) (dS2M : ℚ) : PtpClock :=
  if Plausible c dS2M then
    { c with
      dMeanPathDelayNs := if c.bHaveDelay then lowPass c.dMeanPathDelayNs (delayOf c dS2M) else delayOf c dS2M
      bHaveDelay := true }
  else c

def identityAt (pData : Bytes) (i : Nat) : ClockIdentity :=
  ⟨(List.range 8).map fun k => byteAt pData (i + k), by simp⟩

/-- Octets 20 to 29 of every message. -/
def sourcePortIdentity (pData : Bytes) : PortIdentity := ⟨identityAt pData 20, get16 pData 28⟩

def get48 (p : Bytes) (i : Nat) : BitVec 48 := get16 p i ++ get32 p (i + 2)

/-- 48 bits of seconds and 32 of nanoseconds, in the 64 bits the source computes in. -/
def getTimestampNs (p : Bytes) (i : Nat) : BitVec 64 :=
  (get48 p i).setWidth 64 * 1000000000#64 + (get32 p (i + 6)).setWidth 64

inductive MsgType where
  | sync
  | delayReq
  | followUp
  | delayResp
  | announce
  deriving DecidableEq

def MsgType.code : MsgType → Byte
  | .sync => 0x0
  | .delayReq => 0x1
  | .followUp => 0x8
  | .delayResp => 0x9
  | .announce => 0xB

def TwoStep (pData : Bytes) : Prop := get16 pData 6 &&& 0x0200 ≠ 0

instance (pData : Bytes) : Decidable (TwoStep pData) := inferInstanceAs (Decidable (_ ≠ _))

def sequenceId (pData : Bytes) : BitVec 16 := get16 pData 30

/-- Sync and Follow_Up are taken from the clock of the selected master. -/
def FromSelectedClock (c : PtpClock) (pData : Bytes) : Prop :=
  c.selectedMaster.map (·.clockIdentity) = some (identityAt pData 20)

instance (c : PtpClock) (pData : Bytes) : Decidable (FromSelectedClock c pData) :=
  inferInstanceAs (Decidable (_ = _))

def handleSync (c : PtpClock) (pData : Bytes) (nRxNs : BitVec 64) (now : Time) : PtpClock × Option Sample :=
  if pData.length < 44 then (c, none)
  else if ¬ FromSelectedClock c pData then (c, none)
  else
    let c := { c with lastSyncSeen := now, nSyncSeq := sequenceId pData, nSyncRxNs := nRxNs }
    if TwoStep pData then ({ c with bAwaitFollowUp := true }, none)
    else (completeMeasurement c (getTimestampNs pData 34) nRxNs, some (.offset (getTimestampNs pData 34) nRxNs))

def handleFollowUp (c : PtpClock) (pData : Bytes) : PtpClock × Option Sample :=
  if pData.length < 44 then (c, none)
  else if ¬ c.bAwaitFollowUp ∨ ¬ FromSelectedClock c pData then (c, none)
  else if sequenceId pData ≠ c.nSyncSeq then (c, none)
  else (completeMeasurement { c with bAwaitFollowUp := false } (getTimestampNs pData 34) c.nSyncRxNs,
    some (.offset (getTimestampNs pData 34) c.nSyncRxNs))

def handleDelayResp (c : PtpClock) (pData : Bytes) : PtpClock × Option Sample :=
  if pData.length < 54 then (c, none)
  else if identityAt pData 44 ≠ c.ownIdentity then (c, none)
  else if sequenceId pData ≠ c.nDelaySeq then (c, none)
  else
    let nT4 := getTimestampNs pData 34
    let dS2M : ℚ := (nT4 - c.nDelayReqTxNs).toInt
    (addS2M c dS2M, if Plausible c dS2M then some (.pathDelay nT4 c.nDelayReqTxNs) else none)

/-- A received message with its receive times, sender and ingress interface. -/
structure Datagram where
  pData : Bytes
  nRxNs : BitVec 64
  sFrom : String
  nInterface : Interface
  now : Time

def msgTypeOf (pData : Bytes) : Byte := byteAt pData 0 &&& 0x0f

/-- The version and domain are ours, the sender is not. -/
def Addressed (c : PtpClock) (pData : Bytes) : Prop :=
  byteAt pData 1 &&& 0x0f = 2 ∧ ((byteAt pData 4).toNat : Int) = c.nDomain ∧ identityAt pData 20 ≠ c.ownIdentity

instance (c : PtpClock) (pData : Bytes) : Decidable (Addressed c pData) := inferInstanceAs (Decidable (_ ∧ _ ∧ _))

def handleMessage (c : PtpClock) (m : Datagram) : PtpClock × Option Sample :=
  if ¬ Addressed c m.pData then (c, none)
  else if msgTypeOf m.pData = MsgType.announce.code then
    ({ c with toPtpClient := handleAnnounce c.toPtpClient m.pData m.sFrom m.nInterface m.now }, none)
  else if m.nInterface ≠ .amber then (c, none)
  else if msgTypeOf m.pData = MsgType.sync.code then handleSync c m.pData m.nRxNs m.now
  else if msgTypeOf m.pData = MsgType.followUp.code then handleFollowUp c m.pData
  else if msgTypeOf m.pData = MsgType.delayResp.code then handleDelayResp c m.pData
  else (c, none)

def sendDelayReq (c : PtpClock) (nTxNs : BitVec 64) : PtpClock :=
  { c with nDelaySeq := c.nDelaySeq + 1, nDelayReqTxNs := nTxNs }

/-- A new domain restarts the session, except for the pairing state. -/
def setDomain (c : PtpClock) (nDomain : Int) : PtpClock :=
  if nDomain = c.nDomain then c
  else
    { c with nDomain, mForeign := ∅, selectedMaster := none, bSynced := false, bHaveDelay := false,
             qOffsetWindow := [] }

/-- What the two threads and the configuration do. The delay request that a timer
tick decides on is sent later, under a lock of its own. -/
inductive ClockEvent where
  | rx (m : Datagram)
  | tick (now : Time)
  | sendDelayReq (nTxNs : BitVec 64)
  | setDomain (nDomain : Int)

def clockStep (c : PtpClock) : ClockEvent → PtpClock × Option Sample
  | .rx m => if m.pData.length < 34 then (c, none) else handleMessage c m
  | .tick now => ({ c with toPtpClient := timerTick c.toPtpClient now }, none)
  | .sendDelayReq nTxNs => (sendDelayReq c nTxNs, none)
  | .setDomain nDomain => (setDomain c nDomain, none)

/-- The clock after a run, from the state its configuration starts it in. -/
def clockAfter (nDomain : Int) (ownIdentity : ClockIdentity) (es : List ClockEvent) : PtpClock :=
  run (fun c e => (clockStep c e).1) { nDomain, ownIdentity } es

end PiAudioNode.Ptp
