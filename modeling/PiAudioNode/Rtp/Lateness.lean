import PiAudioNode.Lib.Smooth
import PiAudioNode.Rtp.SendLoop

/-! The pacing quality that the send loop shows: a running average of how late the packets
left, and the worst of them in the last window that is complete. -/
namespace PiAudioNode.Rtp
open Lib

/-- How late each packet left. -/
def lates (outs : List SendOutcome) : List Int :=
  outs.filterMap fun
    | .sent d => some d.nLateNs
    | _ => none

/-- The windows of a report: those that are complete, and the one that is open. A packet
whose deadline has reached the end of the window is its last. -/
structure Windows where
  nEndNs : BitVec 64 := 0
  vClosed : List (List Int) := []
  vOpen : List Int := []

def Windows.add (w : Windows) : SendOutcome → Windows
  | .anchored nStartNs => { w with nEndNs := nStartNs + 5000000000 }
  | .sent d =>
    if w.nEndNs ≤ d.nDeadlineNs then ⟨d.nDeadlineNs + 5000000000, w.vClosed ++ [w.vOpen ++ [d.nLateNs]], []⟩
    else { w with vOpen := w.vOpen ++ [d.nLateNs] }
  | _ => w

def windows (outs : List SendOutcome) : Windows := outs.foldl Windows.add {}

/-- The largest of some latenesses, zero for none. -/
def worst (vLates : List Int) : Int := vLates.foldl max 0

section Report
variable (outs : List SendOutcome) (o : SendOutcome)

theorem windows_snoc : windows (outs ++ [o]) = (windows outs).add o := by
  rw [windows, List.foldl_append]
  rfl

theorem add_anchored (w : Windows) (nStartNs : BitVec 64) :
    w.add (.anchored nStartNs) = { w with nEndNs := nStartNs + 5000000000 } := by
  rw [Windows.add]

theorem lates_snoc (d : Departure) : lates (outs ++ [.sent d]) = lates outs ++ [d.nLateNs] := List.filterMap_append

theorem lates_append_quiet {more : List SendOutcome} (hmore : lates more = []) : lates (outs ++ more) = lates outs := by
  rw [lates, List.filterMap_append]
  exact (congrArg (lates outs ++ ·) hmore).trans (List.append_nil _)

theorem worst_snoc (vLates : List Int) (nLateNs : Int) : worst (vLates ++ [nLateNs]) = max (worst vLates) nLateNs := by
  rw [worst, List.foldl_append]
  rfl

theorem worst_nonneg (vLates : List Int) : 0 ≤ worst vLates := by
  induction vLates using List.reverseRecOn with
  | nil => exact le_rfl
  | append_singleton vLates nLateNs ih =>
    rw [worst_snoc]
    exact le_max_of_le_left ih

theorem le_worst {vLates : List Int} {nLateNs : Int} (h : nLateNs ∈ vLates) : nLateNs ≤ worst vLates := by
  induction vLates using List.reverseRecOn with
  | nil => cases h
  | append_singleton vLates last ih =>
    rw [worst_snoc]
    rcases List.mem_append.mp h with h | h
    · exact le_max_of_le_left (ih h)
    · rw [List.mem_singleton.mp h]
      exact le_max_right _ _

/-- Every packet is in one window, in the order of the report. -/
theorem windows_partition : (windows outs).vClosed.flatten ++ (windows outs).vOpen = lates outs := by
  induction outs using List.reverseRecOn with
  | nil => rfl
  | append_singleton outs o ih =>
    rw [windows_snoc]
    cases o with
    | sent d =>
      rw [lates_snoc, ← ih, Windows.add]
      split
      · simp
      · simp
    | anchored nStartNs =>
      rw [lates_append_quiet outs rfl, add_anchored]
      exact ih
    | jumped =>
      rw [lates_append_quiet outs rfl]
      exact ih
    | returned =>
      rw [lates_append_quiet outs rfl]
      exact ih

end Report

namespace SendEngine
variable {α σ : Type*} {e : SendEngine α σ} {stats : SendStats} {outs : List SendOutcome} {s : SendLoop σ}

/-- What the thread measures, and what it shows of it. -/
structure LateBooks (stats : SendStats) (outs : List SendOutcome) (s : SendLoop σ) : Prop where
  average : s.nLateAvgNs = (lates outs).foldl (smooth 16) 0
  shownAvg : s.stats.nLateAvgNs = if lates outs = [] then stats.nLateAvgNs else s.nLateAvgNs
  windowEnd : s.nWindowEndNs = (windows outs).nEndNs
  max : s.nLateMaxNs = worst (windows outs).vOpen
  shownMax : s.stats.nLateMaxNs = ((windows outs).vClosed.getLast?.map worst).getD stats.nLateMaxNs
  nonneg : ∀ nLateNs ∈ lates outs, 0 ≤ nLateNs

/-- A step that sends nothing. -/
theorem LateBooks.quiet (h : LateBooks stats outs s) {s' : SendLoop σ} {more : List SendOutcome} (hlates : lates more = [])
    (hwindows : (windows (outs ++ more)).vOpen = (windows outs).vOpen ∧
      (windows (outs ++ more)).vClosed = (windows outs).vClosed)
    (hend : s'.nWindowEndNs = (windows (outs ++ more)).nEndNs)
    (hlate : s'.nLateAvgNs = s.nLateAvgNs ∧ s'.nLateMaxNs = s.nLateMaxNs)
    (hshown : s'.stats.nLateAvgNs = s.stats.nLateAvgNs ∧ s'.stats.nLateMaxNs = s.stats.nLateMaxNs) :
    LateBooks stats (outs ++ more) s' := by
  have hsame := lates_append_quiet outs hlates
  refine ⟨?_, ?_, hend, ?_, ?_, ?_⟩
  · rw [hlate.1, hsame, h.average]
  · rw [hshown.1, hsame, hlate.1, h.shownAvg]
  · rw [hlate.2, hwindows.1, h.max]
  · rw [hshown.2, hwindows.2, h.shownMax]
  · rw [hsame]
    exact h.nonneg

theorem lateBooks_send (h : LateBooks stats outs s) (pPacket : Bytes) (nDeadlineNs : BitVec 64) (x : SendReading) :
    LateBooks stats (outs ++ (e.send pPacket nDeadlineNs x s).2) (e.send pPacket nDeadlineNs x s).1 := by
  generalize hd : (⟨pPacket, nDeadlineNs, x.nPtpNs, lateNs nDeadlineNs x.nPtpSentNs, e.settings.legsOn x.abLegEnabled⟩ :
    Departure) = d
  have hreport : (e.send pPacket nDeadlineNs x s).2 = [.sent d] := by rw [← hd]; rfl
  have hlates : lates (outs ++ [.sent d]) = lates outs ++ [lateNs nDeadlineNs x.nPtpSentNs] := by
    rw [lates_snoc, ← hd]
  have hwindows : windows (outs ++ [.sent d]) = (windows outs).add (.sent d) := windows_snoc outs _
  have hsome : lates (outs ++ [.sent d]) ≠ [] := by simp [hlates]
  have hnonneg : ∀ nLateNs ∈ lates (outs ++ [.sent d]), 0 ≤ nLateNs := by
    intro nLateNs hmem
    rw [hlates] at hmem
    rcases List.mem_append.mp hmem with hmem | hmem
    · exact h.nonneg nLateNs hmem
    · rw [List.mem_singleton.mp hmem]
      exact le_max_left _ _
  have haverage : s.nLateAvgNs + (lateNs nDeadlineNs x.nPtpSentNs - s.nLateAvgNs).tdiv 16 =
      (lates (outs ++ [.sent d])).foldl (smooth 16) 0 := by
    rw [hlates, List.foldl_append, ← h.average]
    rfl
  rw [hreport]
  unfold send measure
  dsimp only
  by_cases hend : s.nWindowEndNs ≤ nDeadlineNs
  · have hadd : (windows outs).add (.sent d) = ⟨nDeadlineNs + 5000000000,
        (windows outs).vClosed ++ [(windows outs).vOpen ++ [lateNs nDeadlineNs x.nPtpSentNs]], []⟩ := by
      rw [Windows.add, if_pos (by rw [← h.windowEnd, ← hd]; exact hend), ← hd]
    rw [if_pos hend]
    refine ⟨haverage, ?_, ?_, ?_, ?_, hnonneg⟩
    · rw [if_neg hsome]
    · rw [hwindows, hadd]
    · rw [hwindows, hadd]
      rfl
    · rw [hwindows, hadd, List.getLast?_append, List.getLast?_singleton, Option.some_or, Option.map_some,
        Option.getD_some, worst_snoc, ← h.max]
  · have hadd : (windows outs).add (.sent d) =
        { windows outs with vOpen := (windows outs).vOpen ++ [lateNs nDeadlineNs x.nPtpSentNs] } := by
      rw [Windows.add, if_neg (by rw [← h.windowEnd, ← hd]; exact hend), ← hd]
    rw [if_neg hend]
    refine ⟨haverage, ?_, ?_, ?_, ?_, hnonneg⟩
    · rw [if_neg hsome]
    · rw [hwindows, hadd]
      exact h.windowEnd
    · rw [hwindows, hadd, worst_snoc, ← h.max]
    · rw [hwindows, hadd]
      exact h.shownMax

/-- The open window goes on over whatever is not a packet. -/
theorem LateBooks.moved (h : LateBooks stats outs s) {s' : SendLoop σ} (hend : s'.nWindowEndNs = s.nWindowEndNs)
    (hlate : s'.nLateAvgNs = s.nLateAvgNs ∧ s'.nLateMaxNs = s.nLateMaxNs)
    (hshown : s'.stats.nLateAvgNs = s.stats.nLateAvgNs ∧ s'.stats.nLateMaxNs = s.stats.nLateMaxNs) :
    LateBooks stats (outs ++ []) s' := by
  refine h.quiet rfl ⟨?_, ?_⟩ ?_ hlate hshown
  · rw [List.append_nil]
  · rw [List.append_nil]
  · rw [List.append_nil, hend, h.windowEnd]

theorem lateBooks_returned (h : LateBooks stats outs s) : LateBooks stats (outs ++ [.returned]) { s with stage := .returned } := by
  refine h.quiet rfl ⟨?_, ?_⟩ ?_ ⟨rfl, rfl⟩ ⟨rfl, rfl⟩
  · rw [windows_snoc]; rfl
  · rw [windows_snoc]; rfl
  · rw [windows_snoc]; exact h.windowEnd

theorem lateBooks_anchor (h : LateBooks stats outs s) (nPtpNs : BitVec 64) :
    LateBooks stats (outs ++ [.anchored (nPtpNs + 20000000)]) (anchor nPtpNs s) := by
  refine h.quiet rfl ⟨?_, ?_⟩ ?_ ⟨rfl, rfl⟩ ⟨rfl, rfl⟩
  · rw [windows_snoc, add_anchored]
  · rw [windows_snoc, add_anchored]
  · rw [windows_snoc, add_anchored, anchor]

theorem lateBooks_pace (h : LateBooks stats outs s) (nPtpNs : BitVec 64) :
    LateBooks stats (outs ++ (e.pace nPtpNs s).2) (e.pace nPtpNs s).1 := by
  unfold pace
  dsimp only
  split
  · refine h.quiet rfl ⟨?_, ?_⟩ ?_ ⟨rfl, rfl⟩ ⟨rfl, rfl⟩
    · rw [windows_snoc]; rfl
    · rw [windows_snoc]; rfl
    · rw [windows_snoc]; exact h.windowEnd
  · exact h.moved rfl ⟨rfl, rfl⟩ ⟨rfl, rfl⟩

theorem lateBooks_step (x : SendReading) : Lib.Keeps (LateBooks stats) (e.step · x) := by
  intro outs s h
  have hstep := e.steps s x
  dsimp only
  generalize e.step s x = y at hstep ⊢
  cases hstep with
  | idle => rwa [List.append_nil]
  | returns _ => exact lateBooks_returned h
  | waits _ => exact h.moved rfl ⟨rfl, rfl⟩ ⟨rfl, rfl⟩
  | goesOn _ _ => exact h.moved rfl ⟨rfl, rfl⟩ ⟨rfl, rfl⟩
  | synced _ => exact h.moved rfl ⟨rfl, rfl⟩ ⟨rfl, rfl⟩
  | anchors _ => exact lateBooks_anchor h x.nPtpNs
  | paces _ => exact lateBooks_pace h x.nPtpNs
  | sends _ _ => exact lateBooks_send h _ _ x

theorem lateBooks_runLoop (source : σ) (stats : SendStats) (xs : List SendReading) :
    LateBooks stats (e.runLoop source stats xs).2 (e.runLoop source stats xs).1 := by
  refine runReport_invariant ⟨rfl, rfl, rfl, rfl, rfl, fun nLateNs hmem => ?_⟩ lateBooks_step xs
  cases hmem

/-- What the status shows of the packets sent: an average among their latenesses, which
comes to rest within 16 ns of one that persists, and the worst of the window that was
completed last. -/
structure ShowsLateness (stats : SendStats) (outs : List SendOutcome) (shown : SendStats) : Prop where
  average : lates outs ≠ [] → 0 ≤ shown.nLateAvgNs ∧ shown.nLateAvgNs ≤ worst (lates outs)
  settles : ∀ before n nLateNs, lates outs = before ++ List.replicate (n + 1) nLateNs → max (worst before) nLateNs ≤ n →
    (nLateNs - shown.nLateAvgNs).natAbs < 16
  partition : (windows outs).vClosed.flatten ++ (windows outs).vOpen = lates outs
  worst : shown.nLateMaxNs = ((windows outs).vClosed.getLast?.map worst).getD stats.nLateMaxNs

theorem average_mem_Icc {vLates : List Int} (hnonneg : ∀ nLateNs ∈ vLates, 0 ≤ nLateNs) :
    vLates.foldl (smooth 16) 0 ∈ Set.Icc 0 (worst vLates) := by
  apply foldl_smooth_mem_Icc (by norm_num)
  · exact Set.mem_Icc.mpr ⟨le_rfl, worst_nonneg vLates⟩
  · exact fun nLateNs hmem => Set.mem_Icc.mpr ⟨hnonneg nLateNs hmem, le_worst hmem⟩

theorem runLoop_showsLateness (e : SendEngine α σ) (source : σ) (stats : SendStats) (xs : List SendReading) :
    ShowsLateness stats (e.runLoop source stats xs).2 (e.runLoop source stats xs).1.stats := by
  have h := lateBooks_runLoop (e := e) source stats xs
  generalize (e.runLoop source stats xs).2 = outs at h ⊢
  have hshown (hsome : lates outs ≠ []) : (e.runLoop source stats xs).1.stats.nLateAvgNs = (lates outs).foldl (smooth 16) 0 := by
    rw [h.shownAvg, if_neg hsome, h.average]
  refine ⟨fun hsome => ?_, fun before n nLateNs hsplit hn => ?_, windows_partition outs, h.shownMax⟩
  · rw [hshown hsome]
    exact Set.mem_Icc.mp (average_mem_Icc h.nonneg)
  · have hsome : lates outs ≠ [] := by simp [hsplit]
    have hnonneg := h.nonneg
    rw [hsplit] at hnonneg
    have hlate : 0 ≤ nLateNs := hnonneg nLateNs (by simp)
    obtain ⟨hlow, hhigh⟩ := average_mem_Icc fun l hl => hnonneg l (List.mem_append_left _ hl)
    obtain ⟨hbefore, hlast⟩ := max_le_iff.mp hn
    rw [hshown hsome, hsplit, List.foldl_append]
    apply foldl_smooth_replicate (by norm_num)
    omega

end SendEngine

end PiAudioNode.Rtp
