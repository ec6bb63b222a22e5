import PiAudioNode.Ptp.Selection
import PiAudioNode.Ptp.Steering

/-! The selection, its flags and the sync state between any two operations of the
client: announces, timer ticks, measurements and domain changes. -/
namespace PiAudioNode.Ptp
open Lib Lib.Tournament

/-- The selection is that of the table as it stands, each record is flagged by it,
and without a selected master nothing is in sync. -/
structure Coherent (c : PtpClient) : Prop where
  selected : c.selectedMaster = (bestMaster c.mForeign).map Prod.fst
  flag : ∀ (id : PortIdentity) (f : ForeignMaster), c.mForeign[id]? = some f →
    (f.bSelected ↔ c.selectedMaster = some id)
  synced : c.bSynced → c.selectedMaster.isSome

/-- Only losing the last master takes the sync state away. -/
theorem changeMaster_bSynced {c : PtpClient} {m : Option PortIdentity}
    (hsynced : c.bSynced → c.selectedMaster.isSome) (h : (changeMaster c m).bSynced) : m.isSome := by
  unfold changeMaster at h
  split at h
  · rename_i hsame
    rw [hsame]
    exact hsynced h
  · cases hm : m with
    | none => simp [hm] at h
    | some p => rfl

/-- The selection puts everything right but the sync state it is given. -/
theorem coherent_runBmca {c : PtpClient} (hsynced : c.bSynced → c.selectedMaster.isSome) :
    Coherent (runBmca c) := by
  refine ⟨by simp, ?_, ?_⟩
  · intro id f hf
    simp only [runBmca_mForeign, Std.TreeMap.getElem?_map, Option.map_eq_some_iff] at hf
    obtain ⟨g, -, rfl⟩ := hf
    simp [annotate]
  · intro h
    rw [runBmca_selected]
    exact changeMaster_bSynced (c := { c with mForeign := c.mForeign.map (annotate (bestMaster c.mForeign)) })
      hsynced h

theorem coherent_handleAnnounce {c : PtpClient} (h : Coherent c) (pData : Bytes) (sFrom : String)
    (nInterface : Interface) (now : Time) : Coherent (handleAnnounce c pData sFrom nInterface now) := by
  unfold handleAnnounce
  split
  · exact h
  · exact coherent_runBmca h.synced

theorem coherent_dropMaster {c : PtpClient} (h : Coherent c) (id : PortIdentity) : Coherent (dropMaster c id) :=
  coherent_runBmca h.synced

theorem Coherent.dropSync {c : PtpClient} (h : Coherent c) :
    Coherent { c with bSynced := false, qOffsetWindow := [] } :=
  ⟨h.selected, h.flag, fun hsynced => absurd hsynced Bool.false_ne_true⟩

theorem coherent_timerTick {c : PtpClient} (h : Coherent c) (now : Time) : Coherent (timerTick c now) := by
  refine timerTick_keeps (fun d id hd => ?_) (fun d hd => ?_) h now
  · exact coherent_dropMaster hd id
  · exact hd.dropSync

/-- What a step without the selection may do to a client: the table and the
selection stay, and only a client with a master comes into sync. -/
structure Holds (c d : PtpClient) : Prop where
  table : d.mForeign = c.mForeign
  selected : d.selectedMaster = c.selectedMaster
  synced : d.bSynced → c.bSynced ∨ c.selectedMaster.isSome

theorem Coherent.of_holds {c d : PtpClient} (h : Coherent c) (hd : Holds c d) : Coherent d := by
  refine ⟨?_, ?_, ?_⟩
  · rw [hd.selected, hd.table]
    exact h.selected
  · rw [hd.selected, hd.table]
    exact h.flag
  · intro hsynced
    rw [hd.selected]
    exact (hd.synced hsynced).elim h.synced id

theorem holds_completeMeasurement {c : PtpClock} (hsel : c.selectedMaster.isSome) (nT1 nT2 : BitVec 64) :
    Holds c.toPtpClient (completeMeasurement c nT1 nT2).toPtpClient := by
  simp only [completeMeasurement, addM2S, addOffsetSample]
  split_ifs
  all_goals exact ⟨rfl, rfl, fun _ => Or.inr hsel⟩

theorem holds_addS2M (c : PtpClock) (dS2M : ℚ) : Holds c.toPtpClient (addS2M c dS2M).toPtpClient := by
  unfold addS2M
  split
  all_goals exact ⟨rfl, rfl, Or.inl⟩

theorem FromSelectedClock.isSome {c : PtpClock} {pData : Bytes} (h : FromSelectedClock c pData) :
    c.selectedMaster.isSome := by
  obtain ⟨p, hp, -⟩ := Option.map_eq_some_iff.mp h
  simp [hp]

/-- A received message, by the handler that takes it. -/
theorem coherent_rx {c : PtpClock} (h : Coherent c.toPtpClient) (m : Datagram) :
    Coherent (clockStep c (.rx m)).1.toPtpClient := by
  by_cases hsync : SyncTaken c m
  · rw [hsync.step]
    split
    · exact h.of_holds ⟨rfl, rfl, Or.inl⟩
    · have hsel := hsync.selected.isSome
      exact (h.of_holds (d := { c.toPtpClient with lastSyncSeen := m.now }) ⟨rfl, rfl, Or.inl⟩).of_holds
        (holds_completeMeasurement
          (c := { c with lastSyncSeen := m.now, nSyncSeq := sequenceId m.pData, nSyncRxNs := m.nRxNs }) hsel _ _)
  by_cases hfollow : FollowUpTaken c m
  · rw [hfollow.step]
    have hsel := hfollow.selected.isSome
    exact (h.of_holds (d := { c.toPtpClient with bAwaitFollowUp := false }) ⟨rfl, rfl, Or.inl⟩).of_holds
      (holds_completeMeasurement (c := { c with bAwaitFollowUp := false }) hsel _ _)
  by_cases hresp : DelayRespTaken c m
  · rw [hresp.step]
    exact h.of_holds (holds_addS2M c _)
  rcases clockStep_not_taken hsync hfollow hresp with hstep | hstep
  · rw [hstep]
    exact h
  · rw [hstep]
    exact coherent_handleAnnounce h _ _ _ _

theorem coherent_start : Coherent {} := by
  refine ⟨rfl, ?_, fun hsynced => absurd hsynced Bool.false_ne_true⟩
  intro id f hf
  exact absurd hf (by simp)

theorem coherent_setDomain {c : PtpClock} (h : Coherent c.toPtpClient) (nDomain : Int) :
    Coherent (setDomain c nDomain).toPtpClient := by
  unfold setDomain
  split
  · exact h
  · refine ⟨rfl, ?_, fun hsynced => absurd hsynced Bool.false_ne_true⟩
    intro id f hf
    exact absurd hf (by simp)

theorem coherent_clockStep {c : PtpClock} (h : Coherent c.toPtpClient) (e : ClockEvent) :
    Coherent (clockStep c e).1.toPtpClient := by
  cases e with
  | rx m => exact coherent_rx h m
  | tick now => exact coherent_timerTick h now
  | sendDelayReq nTxNs => exact h
  | setDomain nDomain => exact coherent_setDomain h nDomain

theorem coherent_clockAfter (nDomain : Int) (ownIdentity : ClockIdentity) (es : List ClockEvent) :
    Coherent (clockAfter nDomain ownIdentity es).toPtpClient :=
  invariant (I := fun c : PtpClock => Coherent c.toPtpClient) coherent_start (fun _ e h => coherent_clockStep h e) es

/-- What the selection, the flags and the sync state promise a reader of the table. -/
structure SelectionKept (c : PtpClient) : Prop where
  some_iff : c.selectedMaster.isSome ↔
    ∃ (id : PortIdentity) (f : ForeignMaster), c.mForeign[id]? = some f ∧ 2 ≤ f.nAnnounceCount
  selected : ∀ p, c.selectedMaster = some p →
    (∃ f : ForeignMaster, c.mForeign[p]? = some f ∧ 2 ≤ f.nAnnounceCount ∧ f.bSelected) ∧
      ∀ (q : PortIdentity) (g : ForeignMaster), c.mForeign[q]? = some g → g.bSelected → q = p
  synced : c.bSynced → c.selectedMaster.isSome

theorem Coherent.exists_qualified {c : PtpClient} (h : Coherent c) {p : PortIdentity}
    (hp : c.selectedMaster = some p) : ∃ f : ForeignMaster, c.mForeign[p]? = some f ∧ f.Qualified := by
  rw [h.selected] at hp
  obtain ⟨⟨q, ds⟩, hbest, rfl⟩ := Option.map_eq_some_iff.mp hp
  obtain ⟨f, hf, hq, -⟩ := mem_candidates.mp (champion_mem hbest)
  exact ⟨f, hf, hq⟩

theorem Coherent.kept {c : PtpClient} (h : Coherent c) : SelectionKept c := by
  refine ⟨⟨fun hsome => ?_, fun hqual => ?_⟩, fun p hp => ⟨?_, fun q g hg hsel => ?_⟩, h.synced⟩
  · obtain ⟨p, hp⟩ := Option.isSome_iff_exists.mp hsome
    obtain ⟨f, hf, hq⟩ := h.exists_qualified hp
    exact ⟨p, f, hf, hq⟩
  · obtain ⟨id, f, hf, hq⟩ := hqual
    have hmem : (id, f.dataset) ∈ candidates c.mForeign := mem_candidates.mpr ⟨f, hf, hq, rfl⟩
    obtain ⟨w, hw⟩ : ∃ w, bestMaster c.mForeign = some w := champion_exists (List.ne_nil_of_mem hmem)
    simp [h.selected, hw]
  · obtain ⟨f, hf, hq⟩ := h.exists_qualified hp
    exact ⟨f, hf, hq, (h.flag p f hf).mpr hp⟩
  · have hother := (h.flag q g hg).mp hsel
    rw [hp] at hother
    exact (Option.some.inj hother).symm

/-- After every operation of every run the selection, its flags and the sync state
fit the table. -/
theorem selection_kept (nDomain : Int) (ownIdentity : ClockIdentity) (es : List ClockEvent) :
    SelectionKept (clockAfter nDomain ownIdentity es).toPtpClient :=
  (coherent_clockAfter nDomain ownIdentity es).kept

end PiAudioNode.Ptp
