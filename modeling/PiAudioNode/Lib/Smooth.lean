import Mathlib

/-! Averages of integers that go a fixed part of the way to each new value, cut off
towards zero. They stay among the values, and come to rest near one that persists. -/
namespace PiAudioNode.Lib

/-- One value more: a `d`-th part of the way to it. -/
def smooth (d avg x : Int) : Int := avg + (x - avg).tdiv d

section Smooth
variable {d avg x lo hi : Int}

/-- What is left of the way. -/
theorem natAbs_sub_smooth (hd : 0 < d) : (x - smooth d avg x).natAbs = (x - avg).natAbs - (x - avg).natAbs / d.natAbs := by
  have hshort : x - smooth d avg x = (x - avg) - (x - avg).tdiv d := by rw [smooth]; ring
  rw [hshort]
  generalize x - avg = y
  obtain ⟨k, rfl⟩ := Int.eq_ofNat_of_zero_le hd.le
  rcases Int.eq_nat_or_neg y with ⟨m, rfl | rfl⟩
  · rw [← Int.ofNat_tdiv, Int.natAbs_natCast, Int.natAbs_natCast, ← Int.ofNat_sub (Nat.div_le_self m k),
      Int.natAbs_natCast]
  · rw [Int.neg_tdiv, ← Int.ofNat_tdiv, Int.natAbs_neg, Int.natAbs_natCast, Int.natAbs_natCast]
    have hle := Nat.div_le_self m k
    omega

/-- The average does not leave a range that holds it and the value. -/
theorem smooth_mem_Icc (hd : 0 < d) (ha : avg ∈ Set.Icc lo hi) (hx : x ∈ Set.Icc lo hi) : smooth d avg x ∈ Set.Icc lo hi := by
  obtain ⟨k, rfl⟩ := Int.eq_ofNat_of_zero_le hd.le
  rw [Set.mem_Icc] at ha hx ⊢
  rcases le_total avg x with hle | hle
  · obtain ⟨m, hm⟩ := Int.eq_ofNat_of_zero_le (sub_nonneg.mpr hle)
    have hpart := Nat.div_le_self m k
    rw [smooth, hm, ← Int.ofNat_tdiv]
    generalize m / k = part at hpart ⊢
    omega
  · obtain ⟨m, hm⟩ := Int.eq_ofNat_of_zero_le (sub_nonneg.mpr hle)
    have hneg : x - avg = -(m : Int) := by omega
    have hpart := Nat.div_le_self m k
    rw [smooth, hneg, Int.neg_tdiv, ← Int.ofNat_tdiv]
    generalize m / k = part at hpart ⊢
    omega

theorem foldl_smooth_mem_Icc (hd : 0 < d) (ha : avg ∈ Set.Icc lo hi) {xs : List Int} (hxs : ∀ x ∈ xs, x ∈ Set.Icc lo hi) :
    xs.foldl (smooth d) avg ∈ Set.Icc lo hi := by
  induction xs generalizing avg with
  | nil => exact ha
  | cons x xs ih =>
    apply ih
    · exact smooth_mem_Icc hd ha (hxs x List.mem_cons_self)
    · exact fun y hy => hxs y (List.mem_cons_of_mem x hy)

/-- A value that is reported often enough is met up to the part that is cut off. -/
theorem foldl_smooth_replicate (hd : 0 < d) {n : Nat} (hn : (x - avg).natAbs ≤ n) :
    (x - (List.replicate n x).foldl (smooth d) avg).natAbs < d.natAbs := by
  induction n generalizing avg with
  | zero =>
    rw [List.replicate_zero, List.foldl_nil]
    omega
  | succ n ih =>
    rw [List.replicate_succ, List.foldl_cons]
    have hleft : (x - smooth d avg x).natAbs = (x - avg).natAbs - (x - avg).natAbs / d.natAbs := natAbs_sub_smooth hd
    by_cases hnear : (x - avg).natAbs < d.natAbs
    · -- the average stays where it is
      have hrest : (x - avg).tdiv d = 0 := by
        rw [← Int.natAbs_eq_zero, Int.natAbs_tdiv]
        exact Nat.div_eq_of_lt hnear
      have hfixed : smooth d avg x = avg := by rw [smooth, hrest, add_zero]
      rw [hfixed]
      clear ih hn hleft
      induction n with
      | zero => exact hnear
      | succ n ih =>
        rw [List.replicate_succ, List.foldl_cons, hfixed]
        exact ih
    · apply ih
      have hpart : 0 < (x - avg).natAbs / d.natAbs := Nat.div_pos (not_lt.mp hnear) (by omega)
      omega

end Smooth

end PiAudioNode.Lib
