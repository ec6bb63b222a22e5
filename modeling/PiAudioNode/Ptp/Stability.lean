import Mathlib
import PiAudioNode.Ptp.Servo

/-! The coupled offset and path delay filters on a network without jitter: what
bounds the errors, and where the filters can come to rest. -/
namespace PiAudioNode.Ptp
open Lib

/-- The measurements of a network with offset `O` and path delay `D`. -/
inductive Heard where
  | measurement
  | delayResp

def heardStep (O D : ℚ) (c : PtpClock) : Heard → PtpClock
  | .measurement => addM2S c (O - D)
  | .delayResp => addS2M c (O + D)

inductive FilterEvent where
  | heard (h : Heard)
  | silence (now : Time)

/-- The sync-silence branch of a timer tick. -/
def dropSync (c : PtpClock) : PtpClock := { c with bSynced := false, qOffsetWindow := [] }

def filterStep (O D : ℚ) (c : PtpClock) : FilterEvent → PtpClock
  | .heard h => heardStep O D c h
  | .silence now => if c.bSynced ∧ syncTimeout < now - c.lastSyncSeen then dropSync c else c

/-- Every error is at most `M`: that of the offset, of the delay once there is
one, and of every sample the window remembers. -/
structure Within (O D M : ℚ) (c : PtpClock) : Prop where
  offset : |c.dSmoothedOffsetNs - O| ≤ M
  delay : c.bHaveDelay → |c.dMeanPathDelayNs - D| ≤ M
  window : ∀ w ∈ c.qOffsetWindow, |w - O| ≤ M

theorem mem_pushOffset {q : List ℚ} {s d w : ℚ} (h : w ∈ pushOffset q s d) : w ∈ q ∨ w = d := by
  have tail_of {l : List ℚ} (hl : w ∈ if 16 < l.length then l.tail else l) : w ∈ l := by
    split_ifs at hl with hlong
    · exact List.mem_of_mem_tail hl
    · exact hl
  have hmem := tail_of h
  rw [List.mem_append, List.mem_singleton] at hmem
  refine hmem.imp_left fun hq => ?_
  split_ifs at hq with hjump
  · simp at hq
  · exact hq

theorem Within.addOffsetSample {O D M d : ℚ} {c : PtpClock} (h : Within O D M c) (hd : |d - O| ≤ M) :
    Within O D M (addOffsetSample c d) := by
  have hwindow : ∀ w ∈ pushOffset c.qOffsetWindow c.dSmoothedOffsetNs d, |w - O| ≤ M := by
    intro w hw
    rcases mem_pushOffset hw with hold | rfl
    · exact h.window w hold
    · exact hd
  refine ⟨?_, by simpa using h.delay, by simpa using hwindow⟩
  rcases lt_or_ge (pushOffset c.qOffsetWindow c.dSmoothedOffsetNs d).length 4 with hshort | hlong
  · rw [(addOffsetSample_short hshort).1]
    exact h.offset
  · rw [(addOffsetSample_long hlong).1]
    have hmedian := hwindow _ (median_mem (List.ne_nil_of_length_pos (by omega)) 0)
    split_ifs
    · exact lowPass_near h.offset hmedian
    · exact hmedian

/-- A measurement errs by the error of the path delay it adds, or by the whole
path delay where none is known yet. -/
theorem Within.addM2S {O D M : ℚ} {c : PtpClock} (hD : 0 ≤ D) (hM : D ≤ M) (h : Within O D M c) :
    Within O D M (addM2S c (O - D)) := by
  have herror : |O - D + (if c.bHaveDelay then c.dMeanPathDelayNs else 0) - O| ≤ M := by
    split_ifs with hdelay
    · have heq : O - D + c.dMeanPathDelayNs - O = c.dMeanPathDelayNs - D := by ring
      rw [heq]
      exact h.delay hdelay
    · have heq : O - D + 0 - O = -D := by ring
      rw [heq, abs_neg, abs_of_nonneg hD]
      exact hM
  have hadded := h.addOffsetSample herror
  exact ⟨hadded.offset, hadded.delay, hadded.window⟩

/-- A delay response errs by the error of the offset it removes. -/
theorem Within.addS2M {O D M : ℚ} {c : PtpClock} (h : Within O D M c) : Within O D M (addS2M c (O + D)) := by
  have herror : |delayOf c (O + D) - D| ≤ M := by
    have heq : delayOf c (O + D) - D = -(c.dSmoothedOffsetNs - O) := by
      unfold delayOf
      ring
    rw [heq, abs_neg]
    exact h.offset
  unfold PiAudioNode.Ptp.addS2M
  split_ifs with hrange hdelay
  · exact ⟨h.offset, fun _ => lowPass_near (h.delay hdelay) herror, h.window⟩
  · exact ⟨h.offset, fun _ => herror, h.window⟩
  · exact h

theorem Within.dropSync {O D M : ℚ} {c : PtpClock} (h : Within O D M c) : Within O D M (dropSync c) :=
  ⟨h.offset, h.delay, by simp [PiAudioNode.Ptp.dropSync]⟩

theorem Within.filterStep {O D M : ℚ} {c : PtpClock} (hD : 0 ≤ D) (hM : D ≤ M) (h : Within O D M c)
    (e : FilterEvent) : Within O D M (filterStep O D c e) := by
  rcases e with (_ | _) | now
  · exact h.addM2S hD hM
  · exact h.addS2M
  · simp only [PiAudioNode.Ptp.filterStep]
    split_ifs
    · exact h.dropSync
    · exact h

/-- The errors never grow past a bound that the path delay respects. -/
theorem filter_stable (O D M : ℚ) (c : PtpClock) (es : List FilterEvent) (hD : 0 ≤ D) (hM : D ≤ M)
    (h : Within O D M c) : Within O D M (run (filterStep O D) c es) :=
  invariant h (fun _ e hs => hs.filterStep hD hM e) es

/-- A clock 3 ms off that knows no path delay yet, on a path of 1 ms. -/
theorem filter_stable_start :
    Within 3000000 1000000 3000000 (run (filterStep 3000000 1000000) {}
      [.heard .measurement, .heard .measurement, .heard .measurement, .heard .measurement, .heard .delayResp,
        .silence 6000000000, .heard .measurement]) :=
  filter_stable 3000000 1000000 3000000 {} _ (by norm_num) (by norm_num) ⟨by norm_num, by simp, by simp⟩

end PiAudioNode.Ptp
