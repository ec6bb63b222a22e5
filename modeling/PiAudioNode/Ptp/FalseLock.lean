import Mathlib
import PiAudioNode.Ptp.Stability

/-! Where the coupled filters come to rest: at the true offset and path delay, or
at a pair whose delay samples the plausibility check throws away. -/
namespace PiAudioNode.Ptp
open Lib

/-- No further measurement or delay response of this network moves the filters. -/
def SettledOn (O D : ℚ) (c : PtpClock) : Prop :=
  ∀ hs : List Heard, (run (heardStep O D) c hs).dSmoothedOffsetNs = c.dSmoothedOffsetNs ∧
    (run (heardStep O D) c hs).dMeanPathDelayNs = c.dMeanPathDelayNs

/-- The fixed point of the offset filter lies where the delay filter drops what it hears. -/
def Stuck (O D dSmoothedOffsetNs dMeanPathDelayNs : ℚ) : Prop :=
  dSmoothedOffsetNs = O - D + dMeanPathDelayNs ∧
    (2 * D < dMeanPathDelayNs ∨ dMeanPathDelayNs ≤ 2 * D - delayLimit)

section Window
variable {s w : ℚ}

/-- Nothing but the samples of one value. -/
def Uniform (w : ℚ) (q : List ℚ) : Prop := ∀ x ∈ q, x = w

theorem Uniform.push {q : List ℚ} (h : Uniform w q) : Uniform w (pushOffset q s w) := by
  intro x hx
  rcases mem_pushOffset hx with hold | rfl
  · exact h x hold
  · rfl

theorem Uniform.median {q : List ℚ} (h : Uniform w q) (hlen : 0 < q.length) : median q 0 = w :=
  h _ (median_mem (List.ne_nil_of_length_pos hlen) 0)

theorem length_push_short {q : List ℚ} (h : q.length < 8) : (pushOffset q s w).length = q.length + 1 := by
  simp only [pushOffset, if_neg (show ¬ (8 ≤ q.length ∧ offsetJump < |w - s|) by omega)]
  rw [if_neg (by simp; omega)]
  simp

theorem push_jump {q : List ℚ} (hlen : 8 ≤ q.length) (hjump : offsetJump < |w - s|) : pushOffset q s w = [w] := by
  simp [pushOffset, hlen, hjump]

theorem push_steady {q : List ℚ} (h : ¬ offsetJump < |w - s|) :
    pushOffset q s w = if 16 ≤ q.length then (q ++ [w]).tail else q ++ [w] := by
  simp [pushOffset, h]

theorem Uniform.iterate {q : List ℚ} (h : Uniform w q) (n : Nat) : Uniform w ((pushOffset · s w)^[n] q) := by
  induction n generalizing q with
  | zero => exact h
  | succ n ih => exact ih h.push

theorem length_iterate_short {q : List ℚ} {n : Nat} (h : q.length + n ≤ 8) :
    ((pushOffset · s w)^[n] q).length = q.length + n := by
  induction n generalizing q with
  | zero => rfl
  | succ n ih =>
    have hpush : (pushOffset q s w).length = q.length + 1 := length_push_short (by omega)
    rw [Function.iterate_succ_apply, ih (by omega), hpush]
    omega

/-- Old samples leave the window one by one, or all at once on a jump. -/
theorem exists_uniform (k : Nat) (old new : List ℚ) (hnew : Uniform w new)
    (hk : old.length + (16 - (old ++ new).length) ≤ k) :
    ∃ n, Uniform w ((pushOffset · s w)^[n] (old ++ new)) := by
  induction k generalizing old new with
  | zero =>
    obtain rfl : old = [] := List.eq_nil_of_length_eq_zero (by omega)
    exact ⟨0, hnew⟩
  | succ k ih =>
    have hnew' : Uniform w (new ++ [w]) := by
      intro x hx
      rcases List.mem_append.mp hx with hx | hx
      · exact hnew x hx
      · exact List.mem_singleton.mp hx
    -- one push, after which fewer old samples or fewer free places are left
    have next (old' : List ℚ) (hpush : pushOffset (old ++ new) s w = old' ++ (new ++ [w]))
        (hless : old'.length + (16 - (old' ++ (new ++ [w])).length) ≤ k) :
        ∃ n, Uniform w ((pushOffset · s w)^[n] (old ++ new)) := by
      obtain ⟨n, hn⟩ := ih old' (new ++ [w]) hnew' hless
      refine ⟨n + 1, ?_⟩
      rw [Function.iterate_succ_apply, hpush]
      exact hn
    cases old with
    | nil => exact ⟨0, hnew⟩
    | cons x old =>
      by_cases hjump : offsetJump < |w - s|
      · rcases lt_or_ge (x :: old ++ new).length 8 with hlen | hlen
        · refine next (x :: old) ?_ ?_
          · simp only [pushOffset, if_neg (show ¬ (8 ≤ (x :: old ++ new).length ∧ offsetJump < |w - s|) by omega)]
            rw [if_neg (by simp at hlen ⊢; omega)]
            simp
          · simp at hk hlen ⊢
            omega
        · refine ⟨1, ?_⟩
          rw [Function.iterate_one, push_jump hlen hjump]
          simp [Uniform]
      · rcases lt_or_ge (x :: old ++ new).length 16 with hlen | hlen
        · refine next (x :: old) ?_ ?_
          · rw [push_steady hjump, if_neg (by omega)]
            simp
          · simp at hk hlen ⊢
            omega
        · refine next old ?_ ?_
          · rw [push_steady hjump, if_pos hlen]
            simp
          · simp at hk hlen ⊢
            omega

/-- A window of one value grows long enough to have a median. -/
theorem exists_long (q : List ℚ) : ∃ n, 4 ≤ ((pushOffset · s w)^[n + 1] q).length := by
  have grown {q : List ℚ} (hq : q.length < 8) : ∃ n, 4 ≤ ((pushOffset · s w)^[n + 1] q).length := by
    rcases Nat.lt_or_ge 4 q.length with hlen | hlen
    · exact ⟨0, by rw [length_iterate_short (by omega)]; omega⟩
    · exact ⟨3, by rw [length_iterate_short (by omega)]; omega⟩
  rcases lt_or_ge q.length 8 with hlen | hlen
  · exact grown hlen
  · by_cases hjump : offsetJump < |w - s|
    · obtain ⟨n, hn⟩ := grown (q := [w]) (by simp)
      refine ⟨n + 1, ?_⟩
      rw [Function.iterate_succ_apply, push_jump hlen hjump]
      exact hn
    · refine ⟨0, ?_⟩
      rw [Function.iterate_one, push_steady hjump]
      split_ifs <;> simp <;> omega

end Window

section Rest
variable {O D : ℚ} {c : PtpClock}

/-- The clock after measurements alone. -/
def measured (O D : ℚ) (c : PtpClock) (n : Nat) : PtpClock := run (heardStep O D) c (List.replicate n .measurement)

theorem measured_succ (n : Nat) : measured O D c (n + 1) = addM2S (measured O D c n) (O - D) := by
  rw [measured, List.replicate_succ', run_snoc]
  rfl

theorem SettledOn.measured_offset (h : SettledOn O D c) (n : Nat) :
    (measured O D c n).dSmoothedOffsetNs = c.dSmoothedOffsetNs := (h _).1

theorem SettledOn.measured_delay (h : SettledOn O D c) (n : Nat) :
    (measured O D c n).dMeanPathDelayNs = c.dMeanPathDelayNs := (h _).2

theorem measured_bHaveDelay (hdelay : c.bHaveDelay) (n : Nat) : (measured O D c n).bHaveDelay := by
  induction n with
  | zero => exact hdelay
  | succ n ih =>
    rw [measured_succ, addM2S]
    simpa using ih

theorem SettledOn.measured_window (h : SettledOn O D c) (hdelay : c.bHaveDelay) (n : Nat) :
    (measured O D c n).qOffsetWindow =
      (pushOffset · c.dSmoothedOffsetNs (O - D + c.dMeanPathDelayNs))^[n] c.qOffsetWindow := by
  induction n with
  | zero => rfl
  | succ n ih =>
    rw [measured_succ, addM2S, Function.iterate_succ_apply', if_pos (measured_bHaveDelay hdelay n),
      h.measured_delay, ← ih, ← h.measured_offset n]
    exact addOffsetSample_qOffsetWindow ..

theorem measured_bSynced (hsynced : c.bSynced) (n : Nat) : (measured O D c n).bSynced := by
  induction n with
  | zero => exact hsynced
  | succ n ih =>
    rw [measured_succ, addM2S]
    generalize O - D + _ = d
    rcases lt_or_ge (pushOffset (measured O D c n).qOffsetWindow (measured O D c n).dSmoothedOffsetNs d).length 4
      with hshort | hlong
    · exact (addOffsetSample_short hshort).2.trans ih
    · exact (addOffsetSample_long hlong).2

/-- At rest the offset is the one the measurements say, with the delay as it is believed. -/
theorem SettledOn.offset_eq (h : SettledOn O D c) (hsynced : c.bSynced) (hdelay : c.bHaveDelay) :
    c.dSmoothedOffsetNs = O - D + c.dMeanPathDelayNs := by
  obtain ⟨k, hk⟩ := exists_uniform (s := c.dSmoothedOffsetNs) (w := O - D + c.dMeanPathDelayNs) _ c.qOffsetWindow []
    (by simp [Uniform]) le_rfl
  rw [List.append_nil, ← h.measured_window hdelay] at hk
  obtain ⟨n, hn⟩ := exists_long (s := c.dSmoothedOffsetNs) (w := O - D + c.dMeanPathDelayNs)
    (measured O D c k).qOffsetWindow
  have huniform := hk.iterate (s := c.dSmoothedOffsetNs) (n + 1)
  rw [h.measured_window hdelay, ← Function.iterate_add_apply] at hn huniform
  have hpushed : (measured O D c (n + k + 1)).qOffsetWindow = pushOffset (measured O D c (n + k)).qOffsetWindow
      (measured O D c (n + k)).dSmoothedOffsetNs (O - D + c.dMeanPathDelayNs) := by
    rw [h.measured_window hdelay, h.measured_window hdelay, h.measured_offset, Function.iterate_succ_apply']
  have horder : n + 1 + k = n + k + 1 := by omega
  rw [horder, ← h.measured_window hdelay, hpushed] at hn huniform
  have hstep := (addOffsetSample_long hn).1
  rw [if_pos (measured_bSynced hsynced _), huniform.median (by omega), h.measured_offset] at hstep
  have hnext := h.measured_offset (n + k + 1)
  rw [measured_succ, addM2S, if_pos (measured_bHaveDelay hdelay _), h.measured_delay] at hnext
  exact (lowPass_eq_left_iff.mp (hstep.symm.trans hnext)).symm

/-- At rest the path delay is the one a response says, unless it is not believed. -/
theorem SettledOn.delay_eq (h : SettledOn O D c) (hdelay : c.bHaveDelay) (hpaths : Plausible c (O + D)) :
    delayOf c (O + D) = c.dMeanPathDelayNs := by
  have hnext := (h [.delayResp]).2
  change (addS2M c (O + D)).dMeanPathDelayNs = _ at hnext
  rw [addS2M, if_pos hpaths] at hnext
  simp only [hdelay, if_true] at hnext
  exact lowPass_eq_left_iff.mp hnext

theorem SettledOn.correct (h : SettledOn O D c) (hsynced : c.bSynced) (hdelay : c.bHaveDelay)
    (hfree : ¬ Stuck O D c.dSmoothedOffsetNs c.dMeanPathDelayNs) :
    c.dSmoothedOffsetNs = O ∧ c.dMeanPathDelayNs = D := by
  have hoffset := h.offset_eq hsynced hdelay
  have hpaths : Plausible c (O + D) := by
    by_contra hnot
    refine hfree ⟨hoffset, ?_⟩
    rw [Plausible, delayOf, hoffset, not_and_or, not_le, not_lt] at hnot
    exact hnot.imp (fun hlow => by linarith) (fun hhigh => by linarith)
  have hmean := h.delay_eq hdelay hpaths
  rw [delayOf] at hmean
  constructor <;> linarith

end Rest

/-- A clock that has locked to a pair of values: its window holds nothing else. -/
def lockedAt (dSmoothedOffsetNs dMeanPathDelayNs : ℚ) : PtpClock :=
  { bSynced := true, bHaveDelay := true, dSmoothedOffsetNs, dMeanPathDelayNs }

/-- What stays as it is while a stuck clock goes on listening. -/
structure StuckAt (s m : ℚ) (c : PtpClock) : Prop where
  offset : c.dSmoothedOffsetNs = s
  delay : c.dMeanPathDelayNs = m
  synced : c.bSynced
  haveDelay : c.bHaveDelay
  window : Uniform s c.qOffsetWindow

theorem StuckAt.step {O D s m : ℚ} {c : PtpClock} (hstuck : Stuck O D s m) (h : StuckAt s m c) (e : Heard) :
    StuckAt s m (heardStep O D c e) := by
  obtain ⟨hs, hgate⟩ := hstuck
  cases e with
  | measurement =>
    have hsample : O - D + (if c.bHaveDelay then c.dMeanPathDelayNs else 0) = s := by
      rw [if_pos h.haveDelay, h.delay, hs]
    simp only [heardStep, addM2S, hsample]
    have hwindow : Uniform s (pushOffset c.qOffsetWindow c.dSmoothedOffsetNs s) := h.window.push
    rcases lt_or_ge (pushOffset c.qOffsetWindow c.dSmoothedOffsetNs s).length 4 with hshort | hlong
    · obtain ⟨hoffset, hsynced⟩ := addOffsetSample_short hshort
      exact ⟨hoffset.trans h.offset, by simpa using h.delay, hsynced.trans h.synced, by simpa using h.haveDelay,
        by simpa using hwindow⟩
    · obtain ⟨hoffset, hsynced⟩ := addOffsetSample_long hlong
      rw [if_pos h.synced, hwindow.median (by omega), h.offset] at hoffset
      exact ⟨hoffset.trans (lowPass_eq_left_iff.mpr rfl), by simpa using h.delay, hsynced, by simpa using h.haveDelay,
        by simpa using hwindow⟩
  | delayResp =>
    have hdropped : ¬ Plausible c (O + D) := by
      rw [Plausible, delayOf, h.offset, not_and_or, not_le, not_lt]
      exact hgate.imp (fun hlow => by linarith) (fun hhigh => by linarith)
    rw [heardStep, addS2M, if_neg hdropped]
    exact h

theorem settledOn_of_stuck {O D s m : ℚ} (hstuck : Stuck O D s m) : SettledOn O D (lockedAt s m) := by
  intro hs
  have start : StuckAt s m (lockedAt s m) := ⟨rfl, rfl, rfl, rfl, by simp [Uniform, lockedAt]⟩
  have hrun := invariant (I := StuckAt s m) start (fun _ e h => h.step hstuck e) hs
  exact ⟨hrun.offset, hrun.delay⟩

/-- A pair of values is a false lock exactly when it is stuck. -/
theorem no_false_lock_iff (O D s m : ℚ) (hD : 0 ≤ D) (hlimit : D < delayLimit) :
    (∀ c : PtpClock, c.bSynced → c.bHaveDelay → c.dSmoothedOffsetNs = s → c.dMeanPathDelayNs = m → SettledOn O D c →
      s = O ∧ m = D) ↔ ¬ Stuck O D s m := by
  constructor
  · intro h hstuck
    obtain ⟨-, hm⟩ := h (lockedAt s m) rfl rfl rfl rfl (settledOn_of_stuck hstuck)
    rcases hstuck.2 with hlow | hhigh <;> linarith
  · rintro hfree c hsynced hdelay rfl rfl hsettled
    exact hsettled.correct hsynced hdelay hfree

/-- No offset is taken for true on a path of 10 ms while 15 ms are believed. -/
theorem no_false_lock_fifteen : ¬ Stuck 0 10000000 5000000 15000000 ∧
    ∀ c : PtpClock, c.bSynced → c.bHaveDelay → c.dSmoothedOffsetNs = 5000000 → c.dMeanPathDelayNs = 15000000 →
      SettledOn 0 10000000 c → (5000000 : ℚ) = 0 ∧ (15000000 : ℚ) = 10000000 := by
  have hfree : ¬ Stuck 0 10000000 5000000 15000000 := by norm_num [Stuck, delayLimit]
  exact ⟨hfree, (no_false_lock_iff 0 10000000 5000000 15000000 (by norm_num) (by norm_num [delayLimit])).mpr hfree⟩

/-- A path that was 40 ms long and is now 10 ms: the clock rests 30 ms off. -/
theorem falseLock_settled :
    ((lockedAt 30000000 40000000).bSynced ∧ (lockedAt 30000000 40000000).bHaveDelay ∧
      SettledOn 0 10000000 (lockedAt 30000000 40000000)) ∧
      ¬ ((lockedAt 30000000 40000000).dSmoothedOffsetNs = 0 ∧
        (lockedAt 30000000 40000000).dMeanPathDelayNs = 10000000) :=
  ⟨⟨rfl, rfl, settledOn_of_stuck (by norm_num [Stuck])⟩, by norm_num [lockedAt]⟩

end PiAudioNode.Ptp
