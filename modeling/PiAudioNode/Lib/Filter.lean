import Mathlib

/-! A median over a window and a first-order low pass, with what they keep: a
distance from a point, an interval that holds most of the window, and their fixed
points. -/
namespace PiAudioNode.Lib

section Median
variable {α : Type*} [LinearOrder α]

/-- The upper median; the default is for an empty list only. -/
def median (q : List α) (default : α) : α := (q.insertionSort (· ≤ ·)).getD (q.length / 2) default

theorem median_mem {q : List α} (hq : q ≠ []) (default : α) : median q default ∈ q := by
  have hpos := List.length_pos_of_ne_nil hq
  have hlt : q.length / 2 < (q.insertionSort (· ≤ ·)).length := by
    rw [List.length_insertionSort]
    omega
  rw [median, List.getD_eq_getElem _ _ hlt]
  exact (List.mem_insertionSort (· ≤ ·)).mp (List.getElem_mem hlt)

/-- In a sorted list an element is at least `lo` once all that are less come before it. -/
theorem le_getElem_of_countP {l : List α} (hl : l.Pairwise (· ≤ ·)) {lo : α} {i : Nat} (hi : i < l.length)
    (h : l.countP (· < lo) ≤ i) : lo ≤ l[i] := by
  induction l generalizing i with
  | nil => exact absurd hi (Nat.not_lt_zero i)
  | cons x xs ih =>
    obtain ⟨hhead, htail⟩ := List.pairwise_cons.mp hl
    by_cases hx : x < lo
    · rw [List.countP_cons_of_pos (by simpa using hx)] at h
      cases i with
      | zero => omega
      | succ i => exact ih htail (Nat.lt_of_succ_lt_succ hi) (Nat.le_of_succ_le_succ h)
    · cases i with
      | zero => exact not_lt.mp hx
      | succ i => exact (not_lt.mp hx).trans (hhead _ (List.getElem_mem (Nat.lt_of_succ_lt_succ hi)))

/-- And at most `hi` once all that are greater come after it. -/
theorem getElem_le_of_countP {l : List α} (hl : l.Pairwise (· ≤ ·)) {hi : α} {i : Nat} (hlen : i < l.length)
    (h : l.countP (hi < ·) + i < l.length) : l[i] ≤ hi := by
  induction l generalizing i with
  | nil => exact absurd hlen (Nat.not_lt_zero i)
  | cons x xs ih =>
    obtain ⟨hhead, htail⟩ := List.pairwise_cons.mp hl
    by_cases hx : hi < x
    · -- then the rest is greater as well, and nothing is left to come before it
      have hall : xs.countP (hi < ·) = xs.length := by
        rw [List.countP_eq_length]
        intro y hy
        exact decide_eq_true (hx.trans_le (hhead y hy))
      rw [List.countP_cons_of_pos (by simpa using hx), hall, List.length_cons] at h
      omega
    · rw [List.countP_cons_of_neg (by simpa using hx), List.length_cons] at h
      cases i with
      | zero => exact not_lt.mp hx
      | succ i => exact ih htail (Nat.lt_of_succ_lt_succ hlen) (by omega)

/-- A minority outside an interval does not move the median out of it. -/
theorem median_mem_Icc {q : List α} {lo hi : α} (h : 2 * q.countP (· ∉ Set.Icc lo hi) < q.length) (default : α) :
    median q default ∈ Set.Icc lo hi := by
  have hlow : q.countP (· < lo) ≤ q.countP (· ∉ Set.Icc lo hi) := by
    apply List.countP_mono_left
    intro x _ hx
    exact decide_eq_true fun hmem => absurd hmem.1 (not_le.mpr (of_decide_eq_true hx))
  have hhigh : q.countP (hi < ·) ≤ q.countP (· ∉ Set.Icc lo hi) := by
    apply List.countP_mono_left
    intro x _ hx
    exact decide_eq_true fun hmem => absurd hmem.2 (not_le.mpr (of_decide_eq_true hx))
  have hperm := List.perm_insertionSort (· ≤ ·) q
  have hsorted : (q.insertionSort (· ≤ ·)).Pairwise (· ≤ ·) := List.pairwise_insertionSort (· ≤ ·) q
  have hlt : q.length / 2 < (q.insertionSort (· ≤ ·)).length := by
    rw [List.length_insertionSort]
    omega
  rw [median, List.getD_eq_getElem _ _ hlt]
  constructor
  · apply le_getElem_of_countP hsorted
    rw [hperm.countP_eq]
    omega
  · apply getElem_le_of_countP hsorted
    rw [hperm.countP_eq, List.length_insertionSort]
    omega

end Median

section Spans
variable {α : Type*} [LinearOrder α]

/-- Between the least and the greatest of a list. -/
def Spans (l : List α) (x : α) : Prop := (∃ a ∈ l, a ≤ x) ∧ ∃ b ∈ l, x ≤ b

instance (l : List α) (x : α) : Decidable (Spans l x) := inferInstanceAs (Decidable (_ ∧ _))

theorem spans_of_mem {l : List α} {x : α} (h : x ∈ l) : Spans l x := ⟨⟨x, h, le_rfl⟩, ⟨x, h, le_rfl⟩⟩

theorem Spans.mono {l m : List α} {x : α} (h : Spans l x) (hlm : l ⊆ m) : Spans m x := by
  obtain ⟨⟨a, ha, hax⟩, b, hb, hxb⟩ := h
  exact ⟨⟨a, hlm ha, hax⟩, b, hlm hb, hxb⟩

end Spans

section LowPass
variable {K : Type*} [Field K] [LinearOrder K] [IsStrictOrderedRing K]

/-- One tenth of the new value, nine tenths of the old. -/
def lowPass (old new : K) : K := old * (9 / 10) + new * (1 / 10)

theorem lowPass_near {a b x r : K} (ha : |a - x| ≤ r) (hb : |b - x| ≤ r) : |lowPass a b - x| ≤ r := by
  obtain ⟨ha₁, ha₂⟩ := abs_le.mp ha
  obtain ⟨hb₁, hb₂⟩ := abs_le.mp hb
  unfold lowPass
  rw [abs_le]
  constructor <;> linarith

theorem lowPass_within {a b x r t : K} (ha : |a - x| ≤ r) (hb : |b - x| ≤ t) : |lowPass a b - x| ≤ 9 / 10 * r + t / 10 := by
  obtain ⟨ha₁, ha₂⟩ := abs_le.mp ha
  obtain ⟨hb₁, hb₂⟩ := abs_le.mp hb
  unfold lowPass
  rw [abs_le]
  constructor <;> linarith

theorem lowPass_mem_Icc {a b lo hi : K} (ha : a ∈ Set.Icc lo hi) (hb : b ∈ Set.Icc lo hi) :
    lowPass a b ∈ Set.Icc lo hi := by
  obtain ⟨ha₁, ha₂⟩ := ha
  obtain ⟨hb₁, hb₂⟩ := hb
  unfold lowPass
  constructor <;> linarith

/-- What lies between the extremes of a list stays there. -/
theorem Spans.lowPass {l : List K} {a b : K} (ha : Spans l a) (hb : Spans l b) : Spans l (lowPass a b) := by
  obtain ⟨⟨x, hx, hxa⟩, y, hy, hay⟩ := ha
  obtain ⟨⟨u, hu, hub⟩, v, hv, hbv⟩ := hb
  have hmem : Lib.lowPass a b ∈ Set.Icc (min x u) (max y v) := by
    apply lowPass_mem_Icc
    · exact ⟨(min_le_left x u).trans hxa, hay.trans (le_max_left y v)⟩
    · exact ⟨(min_le_right x u).trans hub, hbv.trans (le_max_right y v)⟩
  refine ⟨⟨min x u, ?_, hmem.1⟩, max y v, ?_, hmem.2⟩
  · rcases min_choice x u with h | h <;> rwa [h]
  · rcases max_choice y v with h | h <;> rwa [h]

theorem lowPass_eq_left_iff {a b : K} : lowPass a b = a ↔ b = a := by
  unfold lowPass
  constructor <;> intro h <;> linarith

end LowPass

end PiAudioNode.Lib
