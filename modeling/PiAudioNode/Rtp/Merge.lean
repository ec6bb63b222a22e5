import PiAudioNode.Rtp.Receiver

/-! The seamless merge seen through the report: what a slot holds is decided by
the last outcome that touched it, and so is the fate of a further copy. -/
namespace PiAudioNode.Rtp
open Lib

/-- The outcome stored into the slot or emptied it. -/
def Outcome.Touches (nSlot : SlotIndex) : Outcome → Prop
  | .accepted _ nSeq _ | .played nSeq _ | .dropped nSeq => slotOf nSeq = nSlot
  | .duplicate .. | .anchored _ | .concealed .. => False

/-- A copy of the number was accepted and its slot was left alone since: the
number was not played, not dropped, and no other number took the slot. -/
def Undisturbed (nSeq : BitVec 16) (outs : List Outcome) : Prop :=
  ∃ pre nLeg vSamples mid, outs = pre ++ .accepted nLeg nSeq vSamples :: mid ∧
    ∀ o ∈ mid, ¬ o.Touches (slotOf nSeq)

/-- The numbers accepted that are newer than a given one. -/
def newerAccepted (nSeq : BitVec 16) (outs : List Outcome) : List (BitVec 16) :=
  outs.filterMap fun
    | .accepted _ nNewer _ => if 0 < (nNewer - nSeq).toInt then some nNewer else none
    | _ => none

/-- Fewer newer numbers were accepted than there are slots. -/
def InWindow (nSeq : BitVec 16) (outs : List Outcome) : Prop := (newerAccepted nSeq outs).dedup.length < jitterSlots

instance (nSeq : BitVec 16) (outs : List Outcome) : Decidable (InWindow nSeq outs) :=
  inferInstanceAs (Decidable ((newerAccepted nSeq outs).dedup.length < jitterSlots))

/-- A copy of the number was decoded into its slot within the window. -/
def Decoded (nSeq : BitVec 16) (outs : List Outcome) : Prop :=
  ∃ pre nLeg vSamples mid, outs = pre ++ .accepted nLeg nSeq vSamples :: mid ∧ InWindow nSeq mid

/-- A copy of the number arrived within the window, decoded or discarded. -/
def Arrived (nSeq : BitVec 16) (outs : List Outcome) : Prop :=
  Decoded nSeq outs ∨ ∃ pre nLeg mid, outs = pre ++ .duplicate nLeg nSeq :: mid ∧ InWindow nSeq mid

/-- First arrival wins exactly once: what is decoded is the first copy in its
window, what is discarded is not. -/
def MergeLaw (outs : List Outcome) : Prop :=
  Admits (fun pre o => match o with
    | .accepted _ nSeq _ => ¬ Decoded nSeq pre
    | .duplicate _ nSeq => Arrived nSeq pre
    | _ => True) outs

/-- Whenever a copy arrives, the slot of its number was left alone since the last
acceptance just when a copy is still within the window. -/
def SlotsKept (outs : List Outcome) : Prop :=
  Admits (fun pre o => match o with
    | .accepted _ nSeq _ | .duplicate _ nSeq =>
      (Decoded nSeq pre → Undisturbed nSeq pre) ∧ (Undisturbed nSeq pre → Arrived nSeq pre)
    | _ => True) outs

theorem undisturbed_nil (nSeq : BitVec 16) : ¬ Undisturbed nSeq [] := by
  rintro ⟨pre, nLeg, vSamples, mid, h, _⟩
  simp at h

/-- One more outcome: it is the acceptance, or it leaves the slot alone. -/
theorem undisturbed_snoc (nSeq : BitVec 16) (outs : List Outcome) (o : Outcome) :
    Undisturbed nSeq (outs ++ [o]) ↔
      (∃ nLeg vSamples, o = .accepted nLeg nSeq vSamples) ∨ (Undisturbed nSeq outs ∧ ¬ o.Touches (slotOf nSeq)) := by
  constructor
  · rintro ⟨pre, nLeg, vSamples, mid, h⟩
    rcases since_snoc.mp ⟨pre, mid, h⟩ with ho | ⟨⟨pre, mid, h⟩, ho⟩
    · exact Or.inl ⟨nLeg, vSamples, ho⟩
    · exact Or.inr ⟨⟨pre, nLeg, vSamples, mid, h⟩, ho⟩
  · rintro (⟨nLeg, vSamples, ho⟩ | ⟨⟨pre, nLeg, vSamples, mid, h⟩, ho⟩)
    · obtain ⟨pre, mid, h⟩ := since_snoc.mpr (Or.inl ho)
      exact ⟨pre, nLeg, vSamples, mid, h⟩
    · obtain ⟨pre, mid, h⟩ := since_snoc.mpr (Or.inr ⟨⟨pre, mid, h⟩, ho⟩)
      exact ⟨pre, nLeg, vSamples, mid, h⟩

/-- The report tells the slots and the two merge counters, and every copy in it
met the fate its slot decided. -/
structure MergeBooks (outs : List Outcome) (r : RtpReceiver) : Prop where
  slots : ∀ nSeq, Holds r nSeq ↔ Undisturbed nSeq outs
  duplicates : r.nDuplicates = outs.countP Outcome.isDuplicate
  merged : r.nMergedFromSecondary = outs.countP Outcome.isMerged
  fate : Admits (fun pre o => match o with
    | .accepted _ nSeq _ => ¬ Undisturbed nSeq pre
    | .duplicate _ nSeq => Undisturbed nSeq pre
    | _ => True) outs

variable {cfg : RxConfig} {outs : List Outcome} {r r' : RtpReceiver}

theorem MergeBooks.silent (h : MergeBooks outs r) (hslots : r'.vJitter = r.vJitter)
    (hdup : r'.nDuplicates = r.nDuplicates) (hmerged : r'.nMergedFromSecondary = r.nMergedFromSecondary) :
    MergeBooks outs r' := by
  refine ⟨fun nSeq => ?_, hdup.trans h.duplicates, hmerged.trans h.merged, h.fate⟩
  rw [← h.slots, Holds, Holds, hslots]

/-- An outcome of playout, which empties the slot it touches. -/
theorem MergeBooks.playout (h : MergeBooks outs r) {o : Outcome} (hno : ∀ nLeg nSeq v, o ≠ .accepted nLeg nSeq v)
    (hnodup : ∀ nLeg nSeq, o ≠ .duplicate nLeg nSeq)
    (hslots : ∀ nSeq, Holds r' nSeq ↔ Holds r nSeq ∧ ¬ o.Touches (slotOf nSeq))
    (hdup : r'.nDuplicates = r.nDuplicates) (hmerged : r'.nMergedFromSecondary = r.nMergedFromSecondary) :
    MergeBooks (outs ++ [o]) r' := by
  refine ⟨fun nSeq => ?_, ?_, ?_, h.fate.snoc ?_⟩
  · rw [hslots, h.slots, undisturbed_snoc]
    simp [hno]
  · rw [hdup, h.duplicates, List.countP_append]
    cases o <;> simp_all [Outcome.isDuplicate]
  · rw [hmerged, h.merged, List.countP_append]
    cases o <;> simp_all [Outcome.isMerged]
  · cases o <;> simp_all

theorem books_play (h : MergeBooks outs r) : MergeBooks (outs ++ (play r).2) (play r).1 :=
  h.playout (by simp) (by simp) (fun nSeq => holds_release r r.nNextSeq nSeq) rfl rfl

theorem books_conceal : Keeps MergeBooks (conceal cfg) := by
  intro outs r h
  exact h.playout (by simp) (by simp) (fun nSeq => by simp [Outcome.Touches, Holds, conceal]) rfl rfl

theorem books_anchor : Keeps MergeBooks anchor := by
  intro outs r h
  exact h.playout (by simp) (by simp) (fun nSeq => by simp [Outcome.Touches, Holds, anchor]) rfl rfl

theorem books_steer (nDrift : Int) : Keeps MergeBooks (steer cfg nDrift) := by
  intro outs r h
  unfold steer
  split
  · exact h.playout (by simp) (by simp) (fun nSeq => holds_release r r.nNextSeq nSeq) rfl rfl
  · rwa [List.append_nil]

theorem books_merge (nLeg : Leg) (nSeq : BitVec 16) (nTs : BitVec 32) (vSamples : List Frame) :
    Keeps MergeBooks fun r => merge r nLeg nSeq nTs vSamples := by
  intro outs r h
  dsimp only
  by_cases hheld : Holds r nSeq
  · rw [merge, if_pos hheld]
    refine ⟨fun n => ?_, ?_, ?_, h.fate.snoc ((h.slots nSeq).mp hheld)⟩
    · rw [undisturbed_snoc, ← h.slots]
      simp [Outcome.Touches, Holds]
    · rw [List.countP_append, ← h.duplicates]
      rfl
    · rw [List.countP_append, ← h.merged]
      rfl
  · have hslots := holds_merge hheld nLeg nTs vSamples
    rw [merge, if_neg hheld] at hslots ⊢
    refine ⟨fun n => ?_, ?_, ?_, h.fate.snoc (fun hu => hheld ((h.slots nSeq).mpr hu))⟩
    · rw [hslots, undisturbed_snoc, ← h.slots]
      simp [Outcome.Touches, eq_comm]
    · rw [List.countP_append, ← h.duplicates]
      rfl
    · rw [List.countP_append, ← h.merged]
      cases nLeg <;> rfl

theorem engineKeeps_books : EngineKeeps cfg MergeBooks where
  phase _ _ _ _ h := h.silent rfl rfl rfl
  play _ _ _ h := books_play h
  conceal := books_conceal
  steer := books_steer
  anchor := books_anchor
  arrival _ _ _ _ _ h := h.silent rfl rfl rfl
  merge := books_merge
  age _ _ _ h := h.silent rfl rfl rfl
  monitor _ _ _ h := h.silent rfl rfl rfl

theorem books_runEngine (cfg : RxConfig) (r : RtpReceiver) (es : List Event) :
    MergeBooks (runEngine cfg r es).2 (runEngine cfg r es).1 := by
  refine engineKeeps_books.run ⟨fun nSeq => ?_, rfl, rfl, admits_nil⟩ es
  simp [undisturbed_nil, Holds, configure]

/-- The merge of a run: the law of first arrival, and both counters true to it. -/
structure FirstWins (cfg : RxConfig) (r : RtpReceiver) (es : List Event) : Prop where
  law : MergeLaw (runEngine cfg r es).2
  duplicates : (runEngine cfg r es).1.nDuplicates = (runEngine cfg r es).2.countP Outcome.isDuplicate
  merged : (runEngine cfg r es).1.nMergedFromSecondary = (runEngine cfg r es).2.countP Outcome.isMerged

/-- The merge is right in just those runs where playout and other numbers leave a
slot alone while copies of its number are still due, and no longer. -/
theorem firstWins_iff_slotsKept (cfg : RxConfig) (r : RtpReceiver) (es : List Event) :
    FirstWins cfg r es ↔ SlotsKept (runEngine cfg r es).2 := by
  have h := books_runEngine cfg r es
  constructor
  · rintro ⟨law, _, _⟩ pre o post hsplit
    have hlaw := law pre o post hsplit
    have hfate := h.fate pre o post hsplit
    cases o with
    | accepted nLeg nSeq vSamples => exact ⟨fun hd => absurd hd hlaw, fun hu => absurd hu hfate⟩
    | duplicate nLeg nSeq => exact ⟨fun _ => hfate, fun _ => hlaw⟩
    | _ => trivial
  · intro hkept
    refine ⟨fun pre o post hsplit => ?_, h.duplicates, h.merged⟩
    have hk := hkept pre o post hsplit
    have hfate := h.fate pre o post hsplit
    cases o with
    | accepted nLeg nSeq vSamples => exact fun hd => hfate (hk.1 hd)
    | duplicate nLeg nSeq => exact hk.2 hfate
    | _ => trivial

def stereo : RxConfig := { session := {}, nPlayoutDelayMs := 20, nFramesPerPacket := 48, bTwoLegs := true }

/-- The primary copy is played before the secondary one arrives. -/
def lateCopy : List Event :=
  [.packet .primary (silentPacket 5 1) 0, .playout 0 0, .playout 0 0, .playout 0 0,
    .packet .secondary (silentPacket 5 1) 0]

theorem lateCopy_decoded_twice :
    ¬ FirstWins stereo {} lateCopy ∧ (runEngine stereo {} lateCopy).1.nDuplicates = 0 ∧
      (runEngine stereo {} lateCopy).1.nMergedFromSecondary = 1 := by
  have hrun : (runEngine stereo {} lateCopy).2 = [.accepted .primary 5 [⟨0, 0⟩], .anchored 5, .played 5 [⟨0, 0⟩],
      .accepted .secondary 5 [⟨0, 0⟩]] := by
    decide +kernel
  refine ⟨fun h => ?_, by decide +kernel, by decide +kernel⟩
  refine h.law [.accepted .primary 5 [⟨0, 0⟩], .anchored 5, .played 5 [⟨0, 0⟩]] (.accepted .secondary 5 [⟨0, 0⟩]) []
    hrun ⟨[], .primary, [⟨0, 0⟩], [.anchored 5, .played 5 [⟨0, 0⟩]], rfl, ?_⟩
  decide +kernel

end PiAudioNode.Rtp
