import PiAudioNode.Ptp.Selected
import PiAudioNode.Ptp.Steering

/-! The client under its threads: the receive thread tests a message before it takes
the lock, and a change of domain stores the new domain before it takes the lock. -/
namespace PiAudioNode.Ptp
open Lib

def domainOf (m : Datagram) : Int := (byteAt m.pData 4).toNat

/-- What `handleMessage` does with a message it has let through. -/
def dispatch (c : PtpClock) (m : Datagram) : PtpClock × Option Sample :=
  if msgTypeOf m.pData = MsgType.announce.code then
    ({ c with toPtpClient := handleAnnounce c.toPtpClient m.pData m.sFrom m.nInterface m.now }, none)
  else if m.nInterface ≠ .amber then (c, none)
  else if msgTypeOf m.pData = MsgType.sync.code then handleSync c m.pData m.nRxNs m.now
  else if msgTypeOf m.pData = MsgType.followUp.code then handleFollowUp c m.pData
  else if msgTypeOf m.pData = MsgType.delayResp.code then handleDelayResp c m.pData
  else (c, none)

theorem handleMessage_eq (c : PtpClock) (m : Datagram) :
    handleMessage c m = if ¬ Addressed c m.pData then (c, none) else dispatch c m := rfl

/-- The locked part of a change of domain. -/
def restart (c : PtpClock) : PtpClock :=
  { c with mForeign := ∅, selectedMaster := none, bSynced := false, bHaveDelay := false, qOffsetWindow := [] }

theorem setDomain_eq (c : PtpClock) (nDomain : Int) :
    setDomain c nDomain = if nDomain = c.nDomain then c else restart { c with nDomain } := rfl

/-- The clock between the atomic steps of its threads: the message the receive thread
holds, and the calls of `setDomain` that have found another domain than theirs, or
stored theirs, and go on. -/
structure Threads where
  clock : PtpClock
  inFlight : Option Datagram := none
  tested : List Int := []
  nStored : Nat := 0

inductive ThreadEvent where
  | check (m : Datagram)
  | handle
  | test (nDomain : Int)
  | store (nDomain : Int)
  | reset
  | tick (now : Time)
  | sendDelayReq (nTxNs : BitVec 64)

/-- A step its thread is not at does nothing. -/
def threadStep (s : Threads) : ThreadEvent → Threads
  | .check m =>
    if s.inFlight = none ∧ 34 ≤ m.pData.length ∧ Addressed s.clock m.pData then { s with inFlight := some m } else s
  | .handle => match s.inFlight with
    | some m => { s with clock := (dispatch s.clock m).1, inFlight := none }
    | none => s
  | .test nDomain => if nDomain = s.clock.nDomain then s else { s with tested := nDomain :: s.tested }
  | .store nDomain =>
    if nDomain ∈ s.tested then
      { s with clock := { s.clock with nDomain }, tested := s.tested.erase nDomain, nStored := s.nStored + 1 }
    else s
  | .reset => if s.nStored = 0 then s else { s with clock := restart s.clock, nStored := s.nStored - 1 }
  | .tick now => { s with clock := { s.clock with toPtpClient := timerTick s.clock.toPtpClient now } }
  | .sendDelayReq nTxNs => { s with clock := sendDelayReq s.clock nTxNs }

def threadsAfter (nDomain : Int) (ownIdentity : ClockIdentity) (es : List ThreadEvent) : Threads :=
  run threadStep ⟨{ nDomain, ownIdentity }, none, [], 0⟩ es

section Whole
variable {s : Threads}

/-- With no step of another thread in between, a message is one event of the clock. -/
theorem check_handle (m : Datagram) (hfree : s.inFlight = none) :
    (threadStep (threadStep s (.check m)) .handle).clock = (clockStep s.clock (.rx m)).1 := by
  simp only [threadStep, clockStep, handleMessage_eq]
  by_cases hlen : m.pData.length < 34
  · rw [if_neg (by omega), if_pos hlen]
    simp [hfree]
  · by_cases hours : Addressed s.clock m.pData
    · rw [if_pos ⟨hfree, not_lt.mp hlen, hours⟩, if_neg hlen, if_neg (not_not.mpr hours)]
    · rw [if_neg fun h => hours h.2.2, if_neg hlen, if_pos hours]
      simp [hfree]

/-- And a change of domain. -/
theorem test_store_reset (nDomain : Int) (hne : nDomain ≠ s.clock.nDomain) :
    (threadStep (threadStep (threadStep s (.test nDomain)) (.store nDomain)) .reset).clock =
      (clockStep s.clock (.setDomain nDomain)).1 := by
  simp [threadStep, clockStep, setDomain_eq, hne]

end Whole

section Domain

/-- The same clock on another domain. -/
def PtpClock.onDomain (c : PtpClock) (nDomain : Int) : PtpClock := { c with nDomain }

variable {c : PtpClock} {m : Datagram} (nDomain : Int)

@[simp] theorem onDomain_toPtpClient : (c.onDomain nDomain).toPtpClient = c.toPtpClient := rfl
@[simp] theorem onDomain_nDomain : (c.onDomain nDomain).nDomain = nDomain := rfl
@[simp] theorem onDomain_ownIdentity : (c.onDomain nDomain).ownIdentity = c.ownIdentity := rfl
@[simp] theorem onDomain_dSmoothedOffsetNs : (c.onDomain nDomain).dSmoothedOffsetNs = c.dSmoothedOffsetNs := rfl
@[simp] theorem onDomain_dMeanPathDelayNs : (c.onDomain nDomain).dMeanPathDelayNs = c.dMeanPathDelayNs := rfl

/-- Two handlers with the same tests agree up to a map if their branches do. -/
private theorem ite_map {α β : Type} (f : α → β) {p : Prop} [Decidable p] {a b : α} {a' b' : β} (ha : a' = f a)
    (hb : b' = f b) : (if p then a' else b') = f (if p then a else b) := by
  split
  · exact ha
  · exact hb

theorem addOffsetSample_onDomain (d : ℚ) :
    addOffsetSample (c.onDomain nDomain) d = (addOffsetSample c d).onDomain nDomain := by
  apply ite_map fun c : PtpClock => c.onDomain nDomain <;> rfl

theorem completeMeasurement_onDomain (nT1 nT2 : BitVec 64) :
    completeMeasurement (c.onDomain nDomain) nT1 nT2 = (completeMeasurement c nT1 nT2).onDomain nDomain := by
  simp only [completeMeasurement, addM2S, addOffsetSample_onDomain]
  rfl

theorem addS2M_onDomain (dS2M : ℚ) : addS2M (c.onDomain nDomain) dS2M = (addS2M c dS2M).onDomain nDomain := by
  apply ite_map fun c : PtpClock => c.onDomain nDomain <;> rfl

/-- What a handler leaves, on another domain. -/
def replyOnDomain (r : PtpClock × Option Sample) : PtpClock × Option Sample := (r.1.onDomain nDomain, r.2)

theorem handleSync_onDomain (pData : Bytes) (nRxNs : BitVec 64) (now : Time) :
    handleSync (c.onDomain nDomain) pData nRxNs now = replyOnDomain nDomain (handleSync c pData nRxNs now) := by
  apply ite_map (replyOnDomain nDomain)
  · rfl
  apply ite_map (replyOnDomain nDomain)
  · rfl
  apply ite_map (replyOnDomain nDomain)
  · rfl
  · exact Prod.ext (completeMeasurement_onDomain
      (c := { c with lastSyncSeen := now, nSyncSeq := sequenceId pData, nSyncRxNs := nRxNs }) nDomain _ _) rfl

theorem handleFollowUp_onDomain (pData : Bytes) :
    handleFollowUp (c.onDomain nDomain) pData = replyOnDomain nDomain (handleFollowUp c pData) := by
  apply ite_map (replyOnDomain nDomain)
  · rfl
  apply ite_map (replyOnDomain nDomain)
  · rfl
  apply ite_map (replyOnDomain nDomain)
  · rfl
  · exact Prod.ext (completeMeasurement_onDomain (c := { c with bAwaitFollowUp := false }) nDomain _ _) rfl

theorem handleDelayResp_onDomain (pData : Bytes) :
    handleDelayResp (c.onDomain nDomain) pData = replyOnDomain nDomain (handleDelayResp c pData) := by
  apply ite_map (replyOnDomain nDomain)
  · rfl
  apply ite_map (replyOnDomain nDomain)
  · rfl
  apply ite_map (replyOnDomain nDomain)
  · rfl
  · exact Prod.ext (addS2M_onDomain nDomain _) rfl

/-- No handler looks at the domain. -/
theorem dispatch_onDomain : dispatch (c.onDomain nDomain) m = replyOnDomain nDomain (dispatch c m) := by
  apply ite_map (replyOnDomain nDomain)
  · rfl
  apply ite_map (replyOnDomain nDomain)
  · rfl
  apply ite_map (replyOnDomain nDomain)
  · exact handleSync_onDomain nDomain _ _ _
  apply ite_map (replyOnDomain nDomain)
  · exact handleFollowUp_onDomain nDomain _
  apply ite_map (replyOnDomain nDomain)
  · exact handleDelayResp_onDomain nDomain _
  · rfl

/-- A message that was let through on some domain. -/
structure Passed (ownIdentity : ClockIdentity) (m : Datagram) : Prop where
  received : 34 ≤ m.pData.length
  version : byteAt m.pData 1 &&& 0x0f = 2
  foreign : identityAt m.pData 20 ≠ ownIdentity

theorem Passed.addressed (h : Passed c.ownIdentity m) : Addressed (c.onDomain (domainOf m)) m.pData :=
  ⟨h.version, rfl, h.foreign⟩

/-- Handled late it does what one event does on its own domain. -/
theorem Passed.dispatch_eq (h : Passed c.ownIdentity m) :
    replyOnDomain (domainOf m) (dispatch c m) = clockStep (c.onDomain (domainOf m)) (.rx m) := by
  rw [← dispatch_onDomain]
  simp only [clockStep, handleMessage_eq, if_neg (not_lt.mpr h.received), if_neg (not_not.mpr h.addressed)]

theorem Passed.client_eq (h : Passed c.ownIdentity m) :
    (dispatch c m).1.toPtpClient = (clockStep (c.onDomain (domainOf m)) (.rx m)).1.toPtpClient := by
  rw [← h.dispatch_eq]
  rfl

theorem Passed.sample_eq (h : Passed c.ownIdentity m) :
    (dispatch c m).2 = (clockStep (c.onDomain (domainOf m)) (.rx m)).2 := by
  rw [← h.dispatch_eq]
  rfl

end Domain

section Kept
variable (c : PtpClock) (m : Datagram)

theorem completeMeasurement_ownIdentity (nT1 nT2 : BitVec 64) :
    (completeMeasurement c nT1 nT2).ownIdentity = c.ownIdentity := by
  simp only [completeMeasurement, addM2S, addOffsetSample]
  split_ifs <;> rfl

theorem addS2M_ownIdentity (dS2M : ℚ) : (addS2M c dS2M).ownIdentity = c.ownIdentity := by
  unfold addS2M
  split <;> rfl

theorem handleSync_ownIdentity (pData : Bytes) (nRxNs : BitVec 64) (now : Time) :
    (handleSync c pData nRxNs now).1.ownIdentity = c.ownIdentity := by
  unfold handleSync
  split
  · rfl
  split
  · rfl
  dsimp only
  split
  · rfl
  · exact completeMeasurement_ownIdentity _ _ _

theorem handleFollowUp_ownIdentity (pData : Bytes) : (handleFollowUp c pData).1.ownIdentity = c.ownIdentity := by
  unfold handleFollowUp
  split
  · rfl
  split
  · rfl
  split
  · rfl
  · exact completeMeasurement_ownIdentity _ _ _

theorem handleDelayResp_ownIdentity (pData : Bytes) : (handleDelayResp c pData).1.ownIdentity = c.ownIdentity := by
  unfold handleDelayResp
  split
  · rfl
  split
  · rfl
  split
  · rfl
  · exact addS2M_ownIdentity _ _

@[simp] theorem dispatch_ownIdentity : (dispatch c m).1.ownIdentity = c.ownIdentity := by
  unfold dispatch
  split
  · rfl
  split
  · rfl
  split
  · exact handleSync_ownIdentity _ _ _ _
  split
  · exact handleFollowUp_ownIdentity _ _
  split
  · exact handleDelayResp_ownIdentity _ _
  · rfl

@[simp] theorem dispatch_nDomain : (dispatch c m).1.nDomain = c.nDomain := by
  have hsame : dispatch c m = replyOnDomain c.nDomain (dispatch c m) := dispatch_onDomain (c := c) c.nDomain
  exact congrArg (fun r => r.1.nDomain) hsame

end Kept

/-- What every interleaving keeps: the selection fits the table, and a message in
flight was let through. -/
structure Lawful (s : Threads) : Prop where
  coherent : Coherent s.clock.toPtpClient
  passed : ∀ m ∈ s.inFlight, Passed s.clock.ownIdentity m

theorem coherent_restart (c : PtpClock) : Coherent (restart c).toPtpClient := by
  refine ⟨rfl, ?_, fun hsynced => absurd hsynced Bool.false_ne_true⟩
  intro id f hf
  exact absurd hf (by simp [restart])

theorem Lawful.step {s : Threads} (h : Lawful s) (e : ThreadEvent) : Lawful (threadStep s e) := by
  cases e with
  | check m =>
    simp only [threadStep]
    split
    · rename_i hpass
      refine ⟨h.coherent, fun m' hm' => ?_⟩
      obtain rfl := Option.some.inj hm'
      exact ⟨hpass.2.1, hpass.2.2.1, hpass.2.2.2.2⟩
    · exact h
  | handle =>
    cases hm : s.inFlight with
    | none => simpa only [threadStep, hm] using h
    | some m =>
      simp only [threadStep, hm]
      refine ⟨?_, nofun⟩
      rw [(h.passed m hm).client_eq]
      exact coherent_rx (c := s.clock.onDomain (domainOf m)) h.coherent m
  | test nDomain =>
    simp only [threadStep]
    split <;> exact ⟨h.coherent, h.passed⟩
  | store nDomain =>
    simp only [threadStep]
    split <;> exact ⟨h.coherent, h.passed⟩
  | reset =>
    simp only [threadStep]
    split
    · exact h
    · exact ⟨coherent_restart s.clock, h.passed⟩
  | tick now => exact ⟨coherent_timerTick h.coherent now, h.passed⟩
  | sendDelayReq nTxNs => exact ⟨h.coherent, h.passed⟩

theorem lawful_after (nDomain : Int) (ownIdentity : ClockIdentity) (es : List ThreadEvent) :
    Lawful (threadsAfter nDomain ownIdentity es) := by
  apply invariant (I := Lawful)
  · exact ⟨coherent_start, nofun⟩
  · intro s e h
    exact h.step e

end PiAudioNode.Ptp
