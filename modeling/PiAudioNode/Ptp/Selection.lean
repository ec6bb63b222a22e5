import PiAudioNode.Ptp.Client

/-! What the selection leaves behind after any run, and when the selected master
really wins against every other qualified one. -/
namespace PiAudioNode.Ptp
open Lib Lib.Tournament

theorem mem_candidates {t : ForeignTable} {id : PortIdentity} {ds : AnnounceDataset} :
    (id, ds) ∈ candidates t ↔ ∃ f : ForeignMaster, t[id]? = some f ∧ f.Qualified ∧ f.dataset = ds := by
  simp only [candidates, List.mem_map, List.mem_filter, Prod.exists, Prod.mk.injEq, decide_eq_true_eq,
    Std.TreeMap.mem_toList_iff_getElem?_eq_some]
  constructor
  · rintro ⟨id', f, ⟨hf, hq⟩, rfl, rfl⟩
    exact ⟨f, hf, hq, rfl⟩
  · rintro ⟨f, hf, hq, rfl⟩
    exact ⟨id, f, ⟨hf, hq⟩, rfl, rfl⟩

/-- The notes play no part in the selection. -/
@[simp] theorem candidates_annotate (best : Option Candidate) (t : ForeignTable) :
    candidates (t.map (annotate best)) = candidates t := by
  simp only [candidates, Std.TreeMap.toList_map, List.filter_map, List.map_map]
  rfl

@[simp] theorem bestMaster_annotate (best : Option Candidate) (t : ForeignTable) :
    bestMaster (t.map (annotate best)) = bestMaster t := by
  simp [bestMaster]

@[simp] theorem changeMaster_mForeign (c : PtpClient) (m : Option PortIdentity) :
    (changeMaster c m).mForeign = c.mForeign := by
  unfold changeMaster
  split <;> rfl

@[simp] theorem changeMaster_selected (c : PtpClient) (m : Option PortIdentity) :
    (changeMaster c m).selectedMaster = m := by
  unfold changeMaster
  split
  · exact Eq.symm ‹_›
  · rfl

@[simp] theorem runBmca_mForeign (c : PtpClient) :
    (runBmca c).mForeign = c.mForeign.map (annotate (bestMaster c.mForeign)) := by
  simp [runBmca]

@[simp] theorem runBmca_selected (c : PtpClient) :
    (runBmca c).selectedMaster = (bestMaster c.mForeign).map Prod.fst := by
  simp [runBmca]

theorem bmcaInfo_annotate (best : Option Candidate) (id : PortIdentity) (f : ForeignMaster) :
    bmcaInfo best id (annotate best id f) = bmcaInfo best id f := by
  unfold bmcaInfo annotate bmcaInfo
  grind

/-- Selection, flags and notes are those of the table as it stands, and every
record sits under the port that announced its dataset. -/
structure Settled (c : PtpClient) : Prop where
  selected : c.selectedMaster = (bestMaster c.mForeign).map Prod.fst
  note : ∀ (id : PortIdentity) (f : ForeignMaster), c.mForeign[id]? = some f →
    f.sBmcaInfo = bmcaInfo (bestMaster c.mForeign) id f
  source : ∀ (id : PortIdentity) (f : ForeignMaster), c.mForeign[id]? = some f → f.dataset.source = id

theorem settled_runBmca {c : PtpClient}
    (source : ∀ (id : PortIdentity) (f : ForeignMaster), c.mForeign[id]? = some f → f.dataset.source = id) :
    Settled (runBmca c) := by
  refine ⟨by simp, ?_, ?_⟩
  · intro id f hf
    simp only [runBmca_mForeign, Std.TreeMap.getElem?_map, Option.map_eq_some_iff] at hf
    obtain ⟨g, _, rfl⟩ := hf
    rw [runBmca_mForeign, bestMaster_annotate, bmcaInfo_annotate]
    rfl
  · intro id f hf
    simp only [runBmca_mForeign, Std.TreeMap.getElem?_map, Option.map_eq_some_iff] at hf
    obtain ⟨g, hg, rfl⟩ := hf
    exact source id g hg

theorem noteAnnounce_source {foreign : ForeignMaster} {ds : AnnounceDataset} (sFrom : String) (i : Interface)
    (now : Time) (h : foreign.dataset.source = ds.source ∨ foreign.nAnnounceCount = 0) :
    (noteAnnounce foreign ds sFrom i now).dataset.source = ds.source := by
  unfold noteAnnounce
  grind

theorem settled_handleAnnounce {c : PtpClient} (h : Settled c) (pData : Bytes) (sFrom : String) (i : Interface)
    (now : Time) : Settled (handleAnnounce c pData sFrom i now) := by
  unfold handleAnnounce
  split
  · exact h
  · apply settled_runBmca
    intro id f hf
    simp only [Std.TreeMap.getElem?_insert] at hf
    split at hf
    · rename_i hid
      obtain rfl := Std.LawfulEqCmp.eq_of_compare hid
      obtain rfl := Option.some.inj hf
      apply noteAnnounce_source
      cases hg : c.mForeign[(parseAnnounce pData).source]? with
      | none => exact Or.inr (by rw [Std.TreeMap.getD_eq_getD_getElem?, hg]; rfl)
      | some g => exact Or.inl (by simpa [Std.TreeMap.getD_eq_getD_getElem?, hg] using h.source _ g hg)
    · exact h.source id f hf

theorem settled_dropMaster {c : PtpClient} (h : Settled c) (id : PortIdentity) : Settled (dropMaster c id) := by
  apply settled_runBmca
  intro id' f hf
  rw [Std.TreeMap.getElem?_erase] at hf
  split at hf
  · cases hf
  · exact h.source id' f hf

theorem settled_timerTick {c : PtpClient} (h : Settled c) (now : Time) : Settled (timerTick c now) := by
  refine timerTick_keeps (fun d id hd => ?_) (fun d hd => ?_) h now
  · exact settled_dropMaster hd id
  · exact ⟨hd.selected, hd.note, hd.source⟩

/-- The selection is never out of date, whatever was announced or aged out. -/
theorem settled_after (es : List Event) : Settled (after es) := by
  refine invariant (I := Settled) ⟨rfl, ?_, ?_⟩ ?_ es
  · intro id f hf
    exact absurd hf (by simp)
  · intro id f hf
    exact absurd hf (by simp)
  · intro c e h
    cases e with
    | announce pData sFrom i now => exact settled_handleAnnounce h pData sFrom i now
    | tick now => exact settled_timerTick h now

/-- The selected master wins against every other qualified master, and whoever
is noted as losing lost the very comparison the note names. -/
structure Optimal (c : PtpClient) : Prop where
  wins : ∀ (p : PortIdentity) (b : ForeignMaster), c.selectedMaster = some p → c.mForeign[p]? = some b →
    ∀ (q : PortIdentity) (f : ForeignMaster), c.mForeign[q]? = some f → f.Qualified → q ≠ p →
      (compareDatasets b.dataset f.dataset).nResult < 0
  notes : ∀ (q : PortIdentity) (f : ForeignMaster) (rest : String), c.mForeign[q]? = some f →
    f.sBmcaInfo = "loses to " ++ rest →
    ∃ (p : PortIdentity) (b : ForeignMaster), c.selectedMaster = some p ∧ c.mForeign[p]? = some b ∧
      (compareDatasets b.dataset f.dataset).nResult < 0 ∧
      rest = identityToString p.clockIdentity ++ " on " ++ (compareDatasets b.dataset f.dataset).sDecidingField

/-- Some qualified master beats every other qualified one. -/
def HasDominant (t : ForeignTable) : Prop :=
  ∃ (p : PortIdentity) (b : ForeignMaster), t[p]? = some b ∧ b.Qualified ∧
    ∀ (q : PortIdentity) (f : ForeignMaster), t[q]? = some f → f.Qualified → q ≠ p →
      (compareDatasets b.dataset f.dataset).nResult < 0

/-- Qualified masters that name the same grandmaster say the same of it. -/
def Consistent (t : ForeignTable) : Prop :=
  ∀ (p : PortIdentity) (b : ForeignMaster) (q : PortIdentity) (f : ForeignMaster),
    t[p]? = some b → b.Qualified → t[q]? = some f → f.Qualified →
    b.dataset.grandmasterIdentity = f.dataset.grandmasterIdentity → b.dataset.Agree f.dataset

theorem hasDominant_iff {t : ForeignTable} :
    HasDominant t ↔ ∃ w, Dominates BeatsCandidate (candidates t) w := by
  constructor
  · rintro ⟨p, b, hp, hb, hwin⟩
    refine ⟨(p, b.dataset), mem_candidates.mpr ⟨b, hp, hb, rfl⟩, ?_⟩
    rintro ⟨q, ds⟩ hq hne
    obtain ⟨f, hf, hfq, rfl⟩ := mem_candidates.mp hq
    refine hwin q f hf hfq ?_
    rintro rfl
    rw [hp] at hf
    obtain rfl := Option.some.inj hf
    exact hne rfl
  · rintro ⟨⟨p, ds⟩, hmem, hwin⟩
    obtain ⟨b, hp, hb, rfl⟩ := mem_candidates.mp hmem
    refine ⟨p, b, hp, hb, fun q f hf hfq hne => ?_⟩
    exact hwin (q, f.dataset) (mem_candidates.mpr ⟨f, hf, hfq, rfl⟩) fun h => hne (Prod.mk.inj h).1

theorem hasDominant_of_consistent {c : PtpClient} (hs : Settled c) (h : Consistent c.mForeign)
    (hne : candidates c.mForeign ≠ []) : HasDominant c.mForeign := by
  refine hasDominant_iff.mpr (exists_dominates (fun a : Candidate => a.2.rank) ?_ ?_ hne)
  · rintro ⟨p, _⟩ hp ⟨q, _⟩ hq
    obtain ⟨b, hb, hbq, rfl⟩ := mem_candidates.mp hp
    obtain ⟨f, hf, hfq, rfl⟩ := mem_candidates.mp hq
    exact beats_iff_rank (h p b q f hb hbq hf hfq)
  · rintro ⟨p, _⟩ hp ⟨q, _⟩ hq hrank
    obtain ⟨b, hb, _, rfl⟩ := mem_candidates.mp hp
    obtain ⟨f, hf, _, rfl⟩ := mem_candidates.mp hq
    have hpq : p = q := by
      rw [← hs.source p b hb, ← hs.source q f hf]
      exact AnnounceDataset.source_eq_of_rank hrank
    subst hpq
    rw [hb] at hf
    rw [Option.some.inj hf]

private theorem note_of_loser {best : Candidate} {q : PortIdentity} {f : ForeignMaster} {rest : String}
    (h : bmcaInfo (some best) q f = "loses to " ++ rest) :
    q ≠ best.1 ∧ f.Qualified ∧
      rest = identityToString best.1.clockIdentity ++ " on " ++ (compareDatasets best.2 f.dataset).sDecidingField := by
  have other (s : String) (hs : s.toList.take 9 ≠ "loses to ".toList) : s ≠ "loses to " ++ rest := by
    rintro rfl
    exact hs (by simp)
  unfold bmcaInfo at h
  split at h
  · exact absurd h (other _ (by decide))
  · rename_i hsel
    split at h
    · exact absurd h (other _ (by decide))
    · split at h
      · exact absurd h (other _ (by decide))
      · refine ⟨fun hq => hsel (by simp [hq]), by unfold ForeignMaster.Qualified; omega, ?_⟩
        simp only [losesTo, String.append_assoc, String.append_right_inj] at h
        simp [← h, String.append_assoc]

theorem optimal_of_hasDominant {c : PtpClient} (hs : Settled c) (h : HasDominant c.mForeign) : Optimal c := by
  obtain ⟨⟨w, ds⟩, hdom⟩ := hasDominant_iff.mp h
  have hbest : bestMaster c.mForeign = some (w, ds) :=
    champion_of_dominates (fun _ _ hab => Beats.asymm hab) hdom
  obtain ⟨b, hb, hbq, rfl⟩ := mem_candidates.mp hdom.1
  have hsel : c.selectedMaster = some w := by simp [hs.selected, hbest]
  have beaten : ∀ q f, c.mForeign[q]? = some f → f.Qualified → q ≠ w →
      (compareDatasets b.dataset f.dataset).nResult < 0 := by
    intro q f hf hfq hne
    exact hdom.2 (q, f.dataset) (mem_candidates.mpr ⟨f, hf, hfq, rfl⟩) fun he => hne (Prod.mk.inj he).1
  refine ⟨?_, ?_⟩
  · intro p b' hp hb' q f hf hfq hne
    obtain rfl : w = p := Option.some.inj (hsel.symm.trans hp)
    obtain rfl : b = b' := Option.some.inj (hb.symm.trans hb')
    exact beaten q f hf hfq hne
  · intro q f rest hf hnote
    rw [hs.note q f hf, hbest] at hnote
    obtain ⟨hne, hfq, hrest⟩ := note_of_loser hnote
    exact ⟨w, b, hsel, hb, beaten q f hf hfq hne, hrest⟩

theorem selected_of_qualified {c : PtpClient} (hs : Settled c) (hne : candidates c.mForeign ≠ []) :
    ∃ (p : PortIdentity) (b : ForeignMaster), c.selectedMaster = some p ∧ c.mForeign[p]? = some b ∧ b.Qualified := by
  obtain ⟨⟨p, ds⟩, hbest⟩ : ∃ w, champion BeatsCandidate (candidates c.mForeign) = some w := champion_exists hne
  obtain ⟨b, hb, hbq, _⟩ := mem_candidates.mp (champion_mem hbest)
  exact ⟨p, b, by rw [hs.selected, bestMaster, hbest]; rfl, hb, hbq⟩

/-- An announce of the port `nId` for the grandmaster `nGm`. -/
def announceOf (nId nGm nPriority1 nSteps : Byte) : Bytes :=
  List.replicate 27 0 ++ [nId, 0, 1] ++ List.replicate 17 0 ++ [nPriority1, 248, 0x21, 0, 0, 128] ++
    List.replicate 7 0 ++ [nGm, 0, nSteps, 0xA0]

def portOf (nId : Byte) : PortIdentity := ⟨⟨List.replicate 7 0 ++ [nId], rfl⟩, 1⟩

/-- Two announces of each of the given masters on the primary network. -/
def announcedTwice (masters : List Bytes) : List Event :=
  masters.flatMap fun p => [.announce p "10.0.0.1" .amber 0, .announce p "10.0.0.1" .amber 0]

def singleRun : List Event := announcedTwice [announceOf 1 7 10 1]

/-- Port 2 beats port 1 on the topology, port 3 beats port 2 and port 1 beats
port 3 on priority1. -/
def cyclicRun : List Event := announcedTwice [announceOf 1 7 10 1, announceOf 2 7 30 0, announceOf 3 8 20 0]

end PiAudioNode.Ptp
