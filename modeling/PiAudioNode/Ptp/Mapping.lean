import PiAudioNode.Lib.Position
import PiAudioNode.Ptp.FalseLock
import PiAudioNode.Ptp.Steering

/-! The mapping to PTP time against the samples it is made of: outliers, jumps
and changes of master. -/
namespace PiAudioNode.Ptp
open Lib

/-- The argument of `addOffsetSample` for a pair of times. -/
def offsetValue (c : PtpClock) (nT1 nT2 : BitVec 64) : ℚ :=
  (nT1 - nT2).toInt + if c.bHaveDelay then c.dMeanPathDelayNs else 0

/-- The offset sample an event adds, if it adds one. -/
def offsetAdded (c : PtpClock) (e : ClockEvent) : Option ℚ :=
  match (clockStep c e).2 with
  | some (.offset nT1 nT2) => some (offsetValue c nT1 nT2)
  | _ => none

/-- The sample that makes the window start again. -/
def Jumps (c : PtpClock) (dOffsetNs : ℚ) : Prop :=
  8 ≤ c.qOffsetWindow.length ∧ offsetJump < |dOffsetNs - c.dSmoothedOffsetNs|

instance (c : PtpClock) (d : ℚ) : Decidable (Jumps c d) := inferInstanceAs (Decidable (_ ∧ _))

section Sample
variable {c : PtpClock} {d : ℚ}

theorem window_of_jumps (h : Jumps c d) : (addOffsetSample c d).qOffsetWindow = [d] := by
  rw [addOffsetSample_qOffsetWindow]
  exact push_jump h.1 h.2

theorem three_le_of_long (h : 4 ≤ (addOffsetSample c d).qOffsetWindow.length) : 3 ≤ c.qOffsetWindow.length := by
  rw [addOffsetSample_qOffsetWindow] at h
  by_contra hshort
  rw [length_push_short (by omega)] at h
  omega

/-- The new offset is the median, or a tenth of the way to it. -/
theorem addOffsetSample_offset (h : 4 ≤ (addOffsetSample c d).qOffsetWindow.length) :
    (addOffsetSample c d).dSmoothedOffsetNs =
      if c.bSynced then lowPass c.dSmoothedOffsetNs (median (addOffsetSample c d).qOffsetWindow 0)
      else median (addOffsetSample c d).qOffsetWindow 0 := by
  rw [addOffsetSample_qOffsetWindow] at h ⊢
  exact (addOffsetSample_long h).1

/-- Fewer than half of the samples outside an interval do not take the offset out of it. -/
theorem addOffsetSample_mem_Icc (c : PtpClock) (dOffsetNs lo hi : ℚ)
    (hlong : 4 ≤ (addOffsetSample c dOffsetNs).qOffsetWindow.length)
    (hfew : 2 * (addOffsetSample c dOffsetNs).qOffsetWindow.countP (· ∉ Set.Icc lo hi) <
      (addOffsetSample c dOffsetNs).qOffsetWindow.length)
    (hprev : c.bSynced = false ∨ c.dSmoothedOffsetNs ∈ Set.Icc lo hi) :
    (addOffsetSample c dOffsetNs).dSmoothedOffsetNs ∈ Set.Icc lo hi := by
  have hmedian := median_mem_Icc hfew 0
  rw [addOffsetSample_offset hlong]
  by_cases hs : c.bSynced
  · rw [if_pos hs]
    have hold : c.dSmoothedOffsetNs ∈ Set.Icc lo hi := hprev.resolve_left (by simp [hs])
    exact lowPass_mem_Icc hold hmedian
  · rw [if_neg hs]
    exact hmedian

/-- A synced clock at 2, with one sample of 100 among four. -/
theorem addOffsetSample_outlier :
    (addOffsetSample { qOffsetWindow := [1, 2, 100], bSynced := true, dSmoothedOffsetNs := 2 } 3).dSmoothedOffsetNs ∈
      Set.Icc (1 : ℚ) 3 :=
  addOffsetSample_mem_Icc _ 3 1 3 (by decide +kernel) (by decide +kernel) (Or.inr (by decide +kernel))

end Sample

/-- The fields the mapping is made of. -/
structure SameMapping (c d : PtpClock) : Prop where
  window : c.qOffsetWindow = d.qOffsetWindow
  offset : c.dSmoothedOffsetNs = d.dSmoothedOffsetNs
  synced : c.bSynced = d.bSynced

theorem sameMapping_addOffsetSample {c c' : PtpClock} (h : SameMapping c c') (d : ℚ) :
    SameMapping (addOffsetSample c d) (addOffsetSample c' d) := by
  obtain ⟨hwindow, hoffset, hsynced⟩ := h
  have hpush : pushOffset c.qOffsetWindow c.dSmoothedOffsetNs d =
      pushOffset c'.qOffsetWindow c'.dSmoothedOffsetNs d := by
    rw [hwindow, hoffset]
  by_cases hlong : 4 ≤ (pushOffset c'.qOffsetWindow c'.dSmoothedOffsetNs d).length
  · simp only [addOffsetSample, hpush, if_pos hlong]
    exact ⟨rfl, by simp only [hoffset, hsynced], rfl⟩
  · simp only [addOffsetSample, hpush, if_neg hlong]
    exact ⟨rfl, hoffset, hsynced⟩

/-- A measurement adds the offset of its pair of times. -/
theorem sameMapping_completeMeasurement {c c' : PtpClock} (h : SameMapping c c') {nT1 nT2 : BitVec 64}
    (hvalue : offsetValue c nT1 nT2 = offsetValue c' nT1 nT2) :
    SameMapping (completeMeasurement c nT1 nT2) (addOffsetSample c' (offsetValue c' nT1 nT2)) := by
  have hmeasured : completeMeasurement c nT1 nT2 = { addOffsetSample c (offsetValue c nT1 nT2) with
      nSyncCount := (addOffsetSample c (offsetValue c nT1 nT2)).nSyncCount + 1 } := rfl
  have hadd := sameMapping_addOffsetSample h (offsetValue c' nT1 nT2)
  rw [hmeasured, hvalue]
  exact ⟨hadd.window, hadd.offset, hadd.synced⟩

theorem offsetAdded_eq_some {c : PtpClock} {e : ClockEvent} {d : ℚ} : offsetAdded c e = some d ↔
    ∃ nT1 nT2, (clockStep c e).2 = some (.offset nT1 nT2) ∧ d = offsetValue c nT1 nT2 := by
  unfold offsetAdded
  rcases (clockStep c e).2 with _ | ⟨nT1, nT2⟩ | ⟨nT4, nT3⟩ <;> simp [eq_comm]

/-- An event that yields an offset sample adds that sample. -/
theorem clockStep_offset {c : PtpClock} {e : ClockEvent} {d : ℚ} (h : offsetAdded c e = some d) :
    SameMapping (clockStep c e).1 (addOffsetSample c d) := by
  obtain ⟨nT1, nT2, hsample, rfl⟩ := offsetAdded_eq_some.mp h
  cases e with
  | rx m =>
    rcases sample_iff.mp hsample with ⟨hsync, htwo, hs⟩ | ⟨hfollow, hs⟩ | ⟨-, hs⟩
    · obtain ⟨rfl, rfl⟩ := Sample.offset.inj hs
      rw [hsync.step, if_neg htwo]
      have hrecorded : SameMapping
          { c with lastSyncSeen := m.now, nSyncSeq := sequenceId m.pData, nSyncRxNs := m.nRxNs } c := ⟨rfl, rfl, rfl⟩
      exact sameMapping_completeMeasurement hrecorded rfl
    · obtain ⟨rfl, rfl⟩ := Sample.offset.inj hs
      rw [hfollow.step]
      have hawaited : SameMapping { c with bAwaitFollowUp := false } c := ⟨rfl, rfl, rfl⟩
      exact sameMapping_completeMeasurement hawaited rfl
    · cases hs
  | tick now => cases hsample
  | sendDelayReq nTxNs => cases hsample
  | setDomain nDomain => cases hsample

/-- An event without an offset sample leaves the offset alone. -/
theorem clockStep_no_offset {c : PtpClock} {e : ClockEvent} (hnone : offsetAdded c e = none) :
    (clockStep c e).1.dSmoothedOffsetNs = c.dSmoothedOffsetNs ∧
      KeptOrEmptied c.toPtpClient (clockStep c e).1.toPtpClient := by
  have h (nT1 nT2 : BitVec 64) : (clockStep c e).2 ≠ some (.offset nT1 nT2) := by
    intro hsome
    have hadded := offsetAdded_eq_some.mpr ⟨nT1, nT2, hsome, rfl⟩
    rw [hnone] at hadded
    cases hadded
  cases e with
  | rx m =>
    have hfollow : ¬ FollowUpTaken c m := fun hf => h _ _ (sample_iff.mpr (.inr (.inl ⟨hf, rfl⟩)))
    by_cases hsync : SyncTaken c m
    · by_cases htwo : TwoStep m.pData
      · rw [hsync.step, if_pos htwo]
        exact ⟨rfl, Or.inr ⟨rfl, rfl⟩⟩
      · exact absurd (sample_iff.mpr (.inl ⟨hsync, htwo, rfl⟩)) (h _ _)
    by_cases hresp : DelayRespTaken c m
    · rw [hresp.step]
      unfold addS2M
      split <;> exact ⟨rfl, Or.inr ⟨rfl, rfl⟩⟩
    rcases clockStep_not_taken hsync hfollow hresp with hstep | hstep
    · rw [hstep]
      exact ⟨rfl, .refl _⟩
    · rw [hstep]
      exact ⟨rfl, (narrows_handleAnnounce _ _ _ _ _).window⟩
  | tick now => exact ⟨rfl, (narrows_timerTick _ _).window⟩
  | sendDelayReq nTxNs => exact ⟨rfl, .refl _⟩
  | setDomain nDomain =>
    simp only [clockStep, setDomain]
    split
    · exact ⟨rfl, .refl _⟩
    · exact ⟨rfl, Or.inl rfl⟩

section Base

/-- The clock, with every offset sample added since its window was last emptied.
The window itself forgets all but sixteen of them. -/
structure Fed where
  clock : PtpClock
  qSamples : List ℚ

def fedStep (f : Fed) (e : ClockEvent) : Fed where
  clock := (clockStep f.clock e).1
  qSamples := match offsetAdded f.clock e with
    | some dOffsetNs => if Jumps f.clock dOffsetNs then [dOffsetNs] else f.qSamples ++ [dOffsetNs]
    | none => if (clockStep f.clock e).1.qOffsetWindow = [] then [] else f.qSamples

def fedAfter (nDomain : Int) (ownIdentity : ClockIdentity) (es : List ClockEvent) : Fed :=
  run fedStep ⟨{ nDomain, ownIdentity }, []⟩ es

theorem fedAfter_clock (nDomain : Int) (ownIdentity : ClockIdentity) (es : List ClockEvent) :
    (fedAfter nDomain ownIdentity es).clock = clockAfter nDomain ownIdentity es := by
  induction es using List.reverseRecOn with
  | nil => rfl
  | append_singleton es e ih =>
    rw [clockAfter, fedAfter, run_snoc, run_snoc]
    exact congrArg (fun c => (clockStep c e).1) ih

/-- With enough samples the mapping of a synced clock lies among those of its time base. -/
def FollowsBase (f : Fed) : Prop :=
  f.clock.bSynced → 4 ≤ f.clock.qOffsetWindow.length → Spans f.qSamples f.clock.dSmoothedOffsetNs

/-- When a window that was emptied has its fourth sample, a clock that has stayed in
sync all along maps to a time among the samples of the new window. -/
def RestartsClean (f : Fed) (e : ClockEvent) : Prop :=
  ∀ dOffsetNs ∈ offsetAdded f.clock e, f.clock.bSynced → f.clock.qOffsetWindow.length = 3 →
    Spans (f.qSamples ++ [dOffsetNs]) f.clock.dSmoothedOffsetNs

instance (f : Fed) (e : ClockEvent) : Decidable (RestartsClean f e) := inferInstanceAs (Decidable (∀ _ ∈ _, _))

/-- The window holds samples of the time base only. -/
structure OnBase (f : Fed) : Prop where
  window : f.clock.qOffsetWindow ⊆ f.qSamples
  follows : FollowsBase f

/-- One more offset sample. -/
theorem OnBase.offset {f : Fed} {e : ClockEvent} {d : ℚ} (h : OnBase f) (hclean : RestartsClean f e)
    (hs : offsetAdded f.clock e = some d) : OnBase (fedStep f e) := by
  obtain ⟨hwindow, hoffset, -⟩ := clockStep_offset hs
  have hclock : (fedStep f e).clock = (clockStep f.clock e).1 := rfl
  have hsamples : (fedStep f e).qSamples = if Jumps f.clock d then [d] else f.qSamples ++ [d] := by
    simp only [fedStep, hs]
  by_cases hjump : Jumps f.clock d
  · rw [if_pos hjump] at hsamples
    rw [window_of_jumps hjump] at hwindow
    refine ⟨?_, fun _ hlong => ?_⟩
    · rw [hclock, hwindow, hsamples]
      exact List.Subset.refl _
    · rw [hclock, hwindow] at hlong
      simp at hlong
  rw [if_neg hjump] at hsamples
  have hmem : (addOffsetSample f.clock d).qOffsetWindow ⊆ f.qSamples ++ [d] := by
    intro w hw
    rw [addOffsetSample_qOffsetWindow] at hw
    rcases mem_pushOffset hw with hold | rfl
    · exact List.mem_append_left _ (h.window hold)
    · exact List.mem_append_right _ (List.mem_singleton.mpr rfl)
  refine ⟨?_, fun _ hlong => ?_⟩
  · rw [hclock, hwindow, hsamples]
    exact hmem
  rw [hclock, hwindow] at hlong
  have hmedian : Spans (f.qSamples ++ [d]) (median (addOffsetSample f.clock d).qOffsetWindow 0) :=
    spans_of_mem (hmem (median_mem (List.ne_nil_of_length_pos (by omega)) 0))
  rw [hclock, hoffset, hsamples, addOffsetSample_offset hlong]
  by_cases hsynced : f.clock.bSynced
  · rw [if_pos hsynced]
    have hold : Spans (f.qSamples ++ [d]) f.clock.dSmoothedOffsetNs := by
      rcases (three_le_of_long hlong).eq_or_lt with hthree | hfour
      · exact hclean d hs hsynced hthree.symm
      · exact (h.follows hsynced hfour).mono (List.subset_append_left _ _)
    exact hold.lowPass hmedian
  · rw [if_neg hsynced]
    exact hmedian

/-- Anything else. -/
theorem OnBase.other {f : Fed} {e : ClockEvent} (h : OnBase f) (hs : offsetAdded f.clock e = none) :
    OnBase (fedStep f e) := by
  obtain ⟨hoffset, hkept⟩ := clockStep_no_offset hs
  have hclock : (fedStep f e).clock = (clockStep f.clock e).1 := rfl
  have hsamples : (fedStep f e).qSamples = if (clockStep f.clock e).1.qOffsetWindow = [] then [] else f.qSamples := by
    simp only [fedStep, hs]
  by_cases hempty : (clockStep f.clock e).1.qOffsetWindow = []
  · refine ⟨?_, fun _ hlong => ?_⟩
    · rw [hclock, hempty]
      exact List.nil_subset _
    · rw [hclock, hempty] at hlong
      simp at hlong
  · obtain ⟨hwindow, hsynced⟩ := hkept.resolve_left hempty
    rw [if_neg hempty] at hsamples
    refine ⟨?_, fun hs hlong => ?_⟩
    · rw [hclock, hsamples, hwindow]
      exact h.window
    · rw [hclock] at hs hlong ⊢
      rw [hsamples, hoffset]
      exact h.follows (hsynced ▸ hs) (hwindow ▸ hlong)

theorem OnBase.step {f : Fed} {e : ClockEvent} (h : OnBase f) (hclean : RestartsClean f e) : OnBase (fedStep f e) := by
  cases hs : offsetAdded f.clock e with
  | some d => exact h.offset hclean hs
  | none => exact h.other hs

theorem onBase_after {nDomain : Int} {ownIdentity : ClockIdentity} {es : List ClockEvent}
    (h : Admits (fun pre e => RestartsClean (fedAfter nDomain ownIdentity pre) e) es) :
    OnBase (fedAfter nDomain ownIdentity es) := by
  refine history_invariant (I := fun _ f => OnBase f) ⟨List.nil_subset _, fun hsynced => ?_⟩ ?_ es h
  · exact absurd hsynced Bool.false_ne_true
  · intro es e hclean hbase
    exact hbase.step hclean

/-- In a run whose windows all restart clean, the mapping of every state reached lies
between the least and the greatest sample since the window was last emptied. -/
theorem followsBase_of_restartsClean (nDomain : Int) (ownIdentity : ClockIdentity) (es : List ClockEvent)
    (h : Admits (fun pre e => RestartsClean (fedAfter nDomain ownIdentity pre) e) es) :
    ∀ pre, pre <+: es → (clockAfter nDomain ownIdentity pre).bSynced →
      4 ≤ (clockAfter nDomain ownIdentity pre).qOffsetWindow.length →
      Spans (fedAfter nDomain ownIdentity pre).qSamples (clockAfter nDomain ownIdentity pre).dSmoothedOffsetNs := by
  rintro pre ⟨post, rfl⟩ hsynced hlong
  rw [← fedAfter_clock] at hsynced hlong ⊢
  exact (onBase_after h.of_append).follows hsynced hlong

/-- Four one-step Sync messages of a clock, sent at `nTxNs` by its own time. -/
def syncsFrom (nId nTxNs : Byte) (nRxNs : BitVec 64) : List ClockEvent :=
  List.replicate 4 (received (messageOf .sync 0 nId 0 (stampOf nTxNs)) nRxNs)

def announces (nId : Byte) : List ClockEvent := List.replicate 2 (received (announceFrom nId) 0)

/-- Clock 2, then the better clock 1, which is `nRxNs` behind instead of 100 ahead. -/
def switchTo (nTxNs : Byte) (nRxNs : BitVec 64) : List ClockEvent :=
  announces 2 ++ syncsFrom 2 100 0 ++ announces 1 ++ syncsFrom 1 nTxNs nRxNs

/-- Two masters that agree. -/
theorem switchTo_agreeing_follows :
    Spans (fedAfter 0 (clockOf 9) (switchTo 100 0)).qSamples
      (clockAfter 0 (clockOf 9) (switchTo 100 0)).dSmoothedOffsetNs := by
  refine followsBase_of_restartsClean 0 (clockOf 9) (switchTo 100 0) ?_ _ List.prefix_rfl
    (by decide +kernel) (by decide +kernel)
  apply admits_of_getElem
  decide +kernel

/-- Two that do not: four samples of -1000 since the switch, and a mapping of -10. -/
theorem switchTo_slews : (clockAfter 0 (clockOf 9) (switchTo 0 1000)).bSynced ∧
    4 ≤ (clockAfter 0 (clockOf 9) (switchTo 0 1000)).qOffsetWindow.length ∧
    (clockAfter 0 (clockOf 9) (switchTo 0 1000)).dSmoothedOffsetNs = -10 ∧
    ¬ Spans (fedAfter 0 (clockOf 9) (switchTo 0 1000)).qSamples
      (clockAfter 0 (clockOf 9) (switchTo 0 1000)).dSmoothedOffsetNs := by
  decide +kernel

end Base

end PiAudioNode.Ptp
