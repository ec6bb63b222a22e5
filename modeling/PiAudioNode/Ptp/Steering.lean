import Mathlib
import PiAudioNode.Ptp.Servo

/-! Which messages feed the filters, and whose messages they are. -/
namespace PiAudioNode.Ptp
open Lib

/-- A message that reaches the handler of its type: from the primary network, for
our domain, and not our own. -/
structure Dispatched (c : PtpClock) (m : Datagram) (t : MsgType) : Prop where
  received : 34 ≤ m.pData.length
  addressed : Addressed c m.pData
  amber : m.nInterface = .amber
  type : msgTypeOf m.pData = t.code

structure SyncTaken (c : PtpClock) (m : Datagram) : Prop extends Dispatched c m .sync where
  long : 44 ≤ m.pData.length
  selected : FromSelectedClock c m.pData

structure FollowUpTaken (c : PtpClock) (m : Datagram) : Prop extends Dispatched c m .followUp where
  long : 44 ≤ m.pData.length
  awaited : c.bAwaitFollowUp
  selected : FromSelectedClock c m.pData
  sequence : sequenceId m.pData = c.nSyncSeq

structure DelayRespTaken (c : PtpClock) (m : Datagram) : Prop extends Dispatched c m .delayResp where
  long : 54 ≤ m.pData.length
  ours : identityAt m.pData 44 = c.ownIdentity
  sequence : sequenceId m.pData = c.nDelaySeq
  inRange : Plausible c (getTimestampNs m.pData 34 - c.nDelayReqTxNs).toInt

/-- The handler a message of each type ends in. -/
theorem clockStep_dispatched {c : PtpClock} {m : Datagram} {t : MsgType} (h : Dispatched c m t) :
    clockStep c (.rx m) = match t with
      | .sync => handleSync c m.pData m.nRxNs m.now
      | .followUp => handleFollowUp c m.pData
      | .delayResp => handleDelayResp c m.pData
      | .announce =>
        ({ c with toPtpClient := handleAnnounce c.toPtpClient m.pData m.sFrom m.nInterface m.now }, none)
      | .delayReq => (c, none) := by
  have hlen : ¬ m.pData.length < 34 := not_lt.mpr h.received
  cases t <;>
    simp [clockStep, hlen, handleMessage, h.addressed, h.amber, h.type, MsgType.code]

theorem Dispatched.unique {c : PtpClock} {m : Datagram} {t u : MsgType} (ht : Dispatched c m t)
    (hu : Dispatched c m u) : t = u := by
  have hcode : t.code = u.code := ht.type.symm.trans hu.type
  revert hcode
  cases t <;> cases u <;> decide

section Taken
variable {c : PtpClock} {m : Datagram}

theorem SyncTaken.step (h : SyncTaken c m) : clockStep c (.rx m) =
    if TwoStep m.pData then
      ({ c with
          lastSyncSeen := m.now, nSyncSeq := sequenceId m.pData, nSyncRxNs := m.nRxNs, bAwaitFollowUp := true }, none)
    else
      (completeMeasurement { c with lastSyncSeen := m.now, nSyncSeq := sequenceId m.pData, nSyncRxNs := m.nRxNs }
        (getTimestampNs m.pData 34) m.nRxNs, some (.offset (getTimestampNs m.pData 34) m.nRxNs)) := by
  rw [clockStep_dispatched h.toDispatched]
  simp only [handleSync, if_neg (not_lt.mpr h.long), if_neg (not_not.mpr h.selected)]

theorem FollowUpTaken.step (h : FollowUpTaken c m) : clockStep c (.rx m) =
    (completeMeasurement { c with bAwaitFollowUp := false } (getTimestampNs m.pData 34) c.nSyncRxNs,
      some (.offset (getTimestampNs m.pData 34) c.nSyncRxNs)) := by
  rw [clockStep_dispatched h.toDispatched]
  simp [handleFollowUp, h.long, h.awaited, h.selected, h.sequence]

theorem DelayRespTaken.step (h : DelayRespTaken c m) : clockStep c (.rx m) =
    (addS2M c (getTimestampNs m.pData 34 - c.nDelayReqTxNs).toInt,
      some (.pathDelay (getTimestampNs m.pData 34) c.nDelayReqTxNs)) := by
  rw [clockStep_dispatched h.toDispatched]
  simp only [handleDelayResp, if_neg (not_lt.mpr h.long), if_neg (not_not.mpr h.ours), if_neg (not_not.mpr h.sequence),
    if_pos h.inRange]

/-- A message that its handler does not take changes nothing. -/
theorem clockStep_refused {t : MsgType} (h : Dispatched c m t) (ht : t ≠ .announce) (hsync : ¬ SyncTaken c m)
    (hfollow : ¬ FollowUpTaken c m) (hresp : ¬ DelayRespTaken c m) : clockStep c (.rx m) = (c, none) := by
  rw [clockStep_dispatched h]
  cases t with
  | sync =>
    rcases lt_or_ge m.pData.length 44 with hlen | hlen
    · simp only [handleSync, if_pos hlen]
    · have hsel : ¬ FromSelectedClock c m.pData := fun hsel => hsync ⟨h, hlen, hsel⟩
      simp only [handleSync, if_pos hsel, ite_self]
  | followUp =>
    rcases lt_or_ge m.pData.length 44 with hlen | hlen
    · simp only [handleFollowUp, if_pos hlen]
    · by_cases hguard : ¬ c.bAwaitFollowUp ∨ ¬ FromSelectedClock c m.pData
      · simp only [handleFollowUp, if_pos hguard, ite_self]
      · have hseq : sequenceId m.pData ≠ c.nSyncSeq := by
          intro hseq
          rw [not_or, not_not, not_not] at hguard
          exact hfollow ⟨h, hlen, hguard.1, hguard.2, hseq⟩
        simp only [handleFollowUp, if_pos hseq, ite_self]
  | delayResp =>
    rcases lt_or_ge m.pData.length 54 with hlen | hlen
    · simp only [handleDelayResp, if_pos hlen]
    · by_cases hown : identityAt m.pData 44 = c.ownIdentity
      · by_cases hseq : sequenceId m.pData = c.nDelaySeq
        · have hrange : ¬ Plausible c (getTimestampNs m.pData 34 - c.nDelayReqTxNs).toInt :=
            fun hrange => hresp ⟨h, hlen, hown, hseq, hrange⟩
          simp only [handleDelayResp, addS2M, if_neg hrange, ite_self]
        · simp only [handleDelayResp, if_pos hseq, ite_self]
      · simp only [handleDelayResp, if_pos hown, ite_self]
  | announce => exact absurd rfl ht
  | delayReq => rfl

/-- Every other message leaves the filters without a sample. -/
theorem clockStep_not_taken (hsync : ¬ SyncTaken c m) (hfollow : ¬ FollowUpTaken c m) (hresp : ¬ DelayRespTaken c m) :
    clockStep c (.rx m) = (c, none) ∨ clockStep c (.rx m) =
      ({ c with toPtpClient := handleAnnounce c.toPtpClient m.pData m.sFrom m.nInterface m.now }, none) := by
  by_cases hany : ∃ t, t ≠ .announce ∧ Dispatched c m t
  · obtain ⟨t, ht, hd⟩ := hany
    exact Or.inl (clockStep_refused hd ht hsync hfollow hresp)
  simp only [clockStep]
  by_cases hlen : m.pData.length < 34
  · exact Or.inl (if_pos hlen)
  rw [if_neg hlen, handleMessage]
  by_cases hours : Addressed c m.pData
  swap
  · exact Or.inl (if_pos hours)
  rw [if_neg (not_not.mpr hours)]
  by_cases hann : msgTypeOf m.pData = MsgType.announce.code
  · exact Or.inr (if_pos hann)
  rw [if_neg hann]
  by_cases hamber : m.nInterface = .amber
  swap
  · exact Or.inl (if_pos hamber)
  have hnone (t : MsgType) (ht : t ≠ .announce) : msgTypeOf m.pData ≠ t.code :=
    fun hcode => hany ⟨t, ht, not_lt.mp hlen, hours, hamber, hcode⟩
  rw [if_neg (not_not.mpr hamber), if_neg (hnone .sync (by decide)), if_neg (hnone .followUp (by decide)),
    if_neg (hnone .delayResp (by decide))]
  exact Or.inl rfl

/-- The samples a message yields, by the handler that takes it. -/
theorem sample_iff {s : Sample} : (clockStep c (.rx m)).2 = some s ↔
    (SyncTaken c m ∧ ¬ TwoStep m.pData ∧ s = .offset (getTimestampNs m.pData 34) m.nRxNs) ∨
      (FollowUpTaken c m ∧ s = .offset (getTimestampNs m.pData 34) c.nSyncRxNs) ∨
      (DelayRespTaken c m ∧ s = .pathDelay (getTimestampNs m.pData 34) c.nDelayReqTxNs) := by
  constructor
  · intro h
    by_cases hsync : SyncTaken c m
    · rw [hsync.step] at h
      split_ifs at h with htwo
      · exact .inl ⟨hsync, htwo, (Option.some.inj h).symm⟩
    by_cases hfollow : FollowUpTaken c m
    · rw [hfollow.step] at h
      exact .inr (.inl ⟨hfollow, (Option.some.inj h).symm⟩)
    by_cases hresp : DelayRespTaken c m
    · rw [hresp.step] at h
      exact .inr (.inr ⟨hresp, (Option.some.inj h).symm⟩)
    rcases clockStep_not_taken hsync hfollow hresp with hstep | hstep <;>
    · rw [hstep] at h
      cases h
  · rintro (⟨hsync, htwo, rfl⟩ | ⟨hfollow, rfl⟩ | ⟨hresp, rfl⟩)
    · rw [hsync.step, if_neg htwo]
    · rw [hfollow.step]
    · rw [hresp.step]

end Taken

/-- Whoever feeds the filters is the selected master, by clock and by port. -/
def SelectedSteers (c : PtpClock) (m : Datagram) : Prop :=
  ∀ s, (clockStep c (.rx m)).2 = some s → c.selectedMaster = some (sourcePortIdentity m.pData)

/-- The port of the selected master, which no handler looks at. -/
def FromSelectedPort (c : PtpClock) (m : Datagram) : Prop :=
  c.selectedMaster.map (·.nPort) = some (get16 m.pData 28)

/-- What the handlers leave to the network: no second port of the selected clock
sends Sync or Follow_Up, and only the selected master answers the delay requests. -/
structure Trusted (c : PtpClock) (m : Datagram) : Prop where
  sync : SyncTaken c m → ¬ TwoStep m.pData → FromSelectedPort c m
  followUp : FollowUpTaken c m → FromSelectedPort c m
  delayResp : DelayRespTaken c m → c.selectedMaster = some (sourcePortIdentity m.pData)

theorem selected_iff {c : PtpClock} {m : Datagram} : c.selectedMaster = some (sourcePortIdentity m.pData) ↔
    FromSelectedClock c m.pData ∧ FromSelectedPort c m := by
  unfold FromSelectedClock FromSelectedPort sourcePortIdentity
  rcases c.selectedMaster with _ | ⟨clock, port⟩
  · simp
  · simp

theorem selectedSteers_iff {c : PtpClock} {m : Datagram} : SelectedSteers c m ↔ Trusted c m := by
  constructor
  · intro h
    refine ⟨fun hsync htwo => ?_, fun hfollow => ?_, fun hresp => ?_⟩
    · exact (selected_iff.mp (h _ (sample_iff.mpr (.inl ⟨hsync, htwo, rfl⟩)))).2
    · exact (selected_iff.mp (h _ (sample_iff.mpr (.inr (.inl ⟨hfollow, rfl⟩))))).2
    · exact h _ (sample_iff.mpr (.inr (.inr ⟨hresp, rfl⟩)))
  · rintro ht s hs
    rcases sample_iff.mp hs with ⟨hsync, htwo, -⟩ | ⟨hfollow, -⟩ | ⟨hresp, -⟩
    · exact selected_iff.mpr ⟨hsync.selected, ht.sync hsync htwo⟩
    · exact selected_iff.mpr ⟨hfollow.selected, ht.followUp hfollow⟩
    · exact ht.delayResp hresp

/-- A message that yields no sample leaves the estimates as they were. -/
theorem unchanged_of_no_sample {c : PtpClock} {m : Datagram} (h : (clockStep c (.rx m)).2 = none) :
    (clockStep c (.rx m)).1.dSmoothedOffsetNs = c.dSmoothedOffsetNs ∧
      (clockStep c (.rx m)).1.dMeanPathDelayNs = c.dMeanPathDelayNs ∧
      (clockStep c (.rx m)).1.nSyncCount = c.nSyncCount := by
  have hnone (s : Sample) : (clockStep c (.rx m)).2 ≠ some s := by
    rw [h]
    exact nofun
  have hfollow : ¬ FollowUpTaken c m := fun hf => hnone _ (sample_iff.mpr (.inr (.inl ⟨hf, rfl⟩)))
  have hresp : ¬ DelayRespTaken c m := fun hr => hnone _ (sample_iff.mpr (.inr (.inr ⟨hr, rfl⟩)))
  by_cases hsync : SyncTaken c m
  · by_cases htwo : TwoStep m.pData
    · rw [hsync.step, if_pos htwo]
      exact ⟨rfl, rfl, rfl⟩
    · exact absurd (sample_iff.mpr (.inl ⟨hsync, htwo, rfl⟩)) (hnone _)
  · rcases clockStep_not_taken hsync hfollow hresp with hstep | hstep <;>
    · rw [hstep]
      exact ⟨rfl, rfl, rfl⟩

/-- A property of every received message of a run, in the state that receives it. -/
def AtEveryMessage (nDomain : Int) (ownIdentity : ClockIdentity) (P : PtpClock → Datagram → Prop)
    (es : List ClockEvent) : Prop :=
  Admits (fun pre e => ∀ m, e = .rx m → P (clockAfter nDomain ownIdentity pre) m) es

/-- Only the selected master steers the clock of a run exactly when the network
sees to it at every message. -/
theorem selectedSteers_iff_trusted (nDomain : Int) (ownIdentity : ClockIdentity) (es : List ClockEvent) :
    AtEveryMessage nDomain ownIdentity SelectedSteers es ↔ AtEveryMessage nDomain ownIdentity Trusted es := by
  simp only [AtEveryMessage, selectedSteers_iff]

section Messages

/-- A message of the clock `nId`, port 1, on domain 0, from octet 34 on as given. -/
def messageOf (t : MsgType) (nFlags nId nSeq : Byte) (body : Bytes) : Bytes :=
  [t.code, 2, 0, 0, 0, 0, nFlags, 0] ++ List.replicate 19 0 ++ [nId, 0, 1, 0, nSeq, 0, 0] ++ body

/-- A timestamp some nanoseconds after the epoch. -/
def stampOf (nNs : Byte) : Bytes := List.replicate 9 0 ++ [nNs]

def clockOf (nId : Byte) : ClockIdentity := ⟨[0, 0, 0, 0, 0, 0, 0, nId], rfl⟩

def announceFrom (nId : Byte) : Bytes :=
  messageOf .announce 0 nId 0
    (List.replicate 13 0 ++ [10, 248, 0x21, 0, 0, 128] ++ List.replicate 7 0 ++ [nId, 0, 0, 0xA0])

/-- An answer to the delay request `nSeq` of the clock 9. -/
def delayRespFrom (nId nSeq nNs : Byte) : Bytes :=
  messageOf .delayResp 0 nId nSeq (stampOf nNs ++ List.replicate 7 0 ++ [9, 0, 1])

/-- Received on the primary network, at a time of either clock. -/
def received (pData : Bytes) (nRxNs : BitVec 64) : ClockEvent := .rx ⟨pData, nRxNs, "10.0.0.1", .amber, 0⟩

/-- Master 1 is selected and a first delay request sent. -/
def requested : List ClockEvent :=
  [received (announceFrom 1) 0, received (announceFrom 1) 0, .tick 0, .sendDelayReq 100]

/-- Clock 2, which is not even a known master, answers the request. -/
def strangerAnswers : List ClockEvent := requested ++ [received (delayRespFrom 2 1 150) 0]

theorem strangerAnswers_steers : ¬ AtEveryMessage 0 (clockOf 9) SelectedSteers strangerAnswers := by
  intro h
  have hsample := h.last ⟨delayRespFrom 2 1 150, 0, "10.0.0.1", .amber, 0⟩ rfl (.pathDelay 150 100) (by decide +kernel)
  exact absurd hsample (by decide +kernel)

end Messages

end PiAudioNode.Ptp
