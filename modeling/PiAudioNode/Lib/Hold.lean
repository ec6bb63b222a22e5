import Mathlib
import PiAudioNode.Lib.Run

/-! Timed reports of a value, and a timer that runs while the value stays the same:
what it says of the reports so far, and when some value has persisted. -/
namespace PiAudioNode.Lib
variable {α τ : Type*}

/-- The value reported last, with the time from which on nothing else was reported. -/
def hold [DecidableEq α] (p : Option (α × τ)) (x : α × τ) : Option (α × τ) :=
  match p with
  | some held => if held.1 = x.1 then some held else some x
  | none => some x

/-- The reports end with some of one value, the first of them at `t`. -/
def Stretch (l : List (α × τ)) (v : α) (t : τ) : Prop :=
  ∃ pre rest, l = pre ++ (v, t) :: rest ∧ ∀ x ∈ rest, x.1 = v

theorem not_stretch_nil {v : α} {t : τ} : ¬ Stretch [] v t := by
  rintro ⟨pre, rest, h, -⟩
  simp at h

theorem stretch_snoc {l : List (α × τ)} {x : α × τ} {v : α} {t : τ} :
    Stretch (l ++ [x]) v t ↔ x = (v, t) ∨ x.1 = v ∧ Stretch l v t := by
  rw [Stretch, since_snoc, and_comm]
  rfl

theorem Stretch.mem {l : List (α × τ)} {v : α} {t : τ} (h : Stretch l v t) : (v, t) ∈ l := by
  obtain ⟨pre, rest, rfl, -⟩ := h
  simp

section Timer
variable [DecidableEq α]

theorem hold_eq_some {p : Option (α × τ)} {x held : α × τ} (h : hold p x = some held) :
    held.1 = x.1 ∧ (p = some held ∨ held = x) := by
  cases p with
  | none => exact ⟨(Option.some.inj h) ▸ rfl, Or.inr (Option.some.inj h).symm⟩
  | some q =>
    simp only [hold] at h
    split at h
    · rename_i hsame
      obtain rfl := Option.some.inj h
      exact ⟨hsame, Or.inl rfl⟩
    · obtain rfl := Option.some.inj h
      exact ⟨rfl, Or.inr rfl⟩

/-- The timer stands at the start of a stretch. -/
theorem stretch_hold {l : List (α × τ)} {held : α × τ} (h : run hold none l = some held) :
    Stretch l held.1 held.2 := by
  induction l using List.reverseRecOn generalizing held with
  | nil => cases h
  | append_singleton l x ih =>
    rw [run_snoc] at h
    obtain ⟨hvalue, hold | rfl⟩ := hold_eq_some h
    · exact stretch_snoc.mpr (Or.inr ⟨hvalue.symm, ih hold⟩)
    · exact stretch_snoc.mpr (Or.inl rfl)

theorem exists_hold {l : List (α × τ)} {v : α} {t : τ} (hs : Stretch l v t) :
    ∃ held, run hold none l = some held := by
  rcases List.eq_nil_or_concat l with rfl | ⟨l, x, rfl⟩
  · exact absurd hs not_stretch_nil
  · rw [List.concat_eq_append, run_snoc]
    cases run hold none l with
    | none => exact ⟨x, rfl⟩
    | some held =>
      simp only [hold]
      split
      · exact ⟨held, rfl⟩
      · exact ⟨x, rfl⟩

variable [LinearOrder τ]

/-- And no stretch that ends with the reports begins before it. -/
theorem hold_le_stretch {l : List (α × τ)} (hl : l.Pairwise (·.2 ≤ ·.2)) {held : α × τ} {v : α} {t : τ}
    (h : run hold none l = some held) (hs : Stretch l v t) : held.1 = v ∧ held.2 ≤ t := by
  induction l using List.reverseRecOn generalizing held v t with
  | nil => cases h
  | append_singleton l x ih =>
    obtain ⟨hl, -, hlast⟩ := List.pairwise_append.mp hl
    rw [run_snoc] at h
    obtain ⟨hvalue, hbefore⟩ := hold_eq_some h
    rcases stretch_snoc.mp hs with rfl | ⟨hx, hs⟩
    · refine ⟨hvalue, ?_⟩
      rcases hbefore with hbefore | rfl
      · exact hlast held (stretch_hold hbefore).mem _ (List.mem_singleton.mpr rfl)
      · exact le_rfl
    · -- the timer held this value before the report, and went on
      obtain ⟨q, hq⟩ := exists_hold hs
      obtain ⟨hqv, hqt⟩ := ih hl hq hs
      rw [hq] at h
      simp only [hold, hqv.trans hx.symm, if_true] at h
      obtain rfl := Option.some.inj h
      exact ⟨hqv, hqt⟩

end Timer

section Persists
variable [LinearOrder τ] [Add τ]

/-- Some value was reported again, and nothing else in between, `d` after it was first. -/
def Persists (d : τ) (l : List (α × τ)) : Prop :=
  ∃ pre x t, pre ++ [x] <+: l ∧ Stretch pre x.1 t ∧ t + d ≤ x.2

theorem not_persists_nil {d : τ} : ¬ Persists d ([] : List (α × τ)) := by
  rintro ⟨pre, x, t, h, -⟩
  simp at h

theorem persists_snoc {d : τ} {l : List (α × τ)} {x : α × τ} :
    Persists d (l ++ [x]) ↔ Persists d l ∨ ∃ t, Stretch l x.1 t ∧ t + d ≤ x.2 := by
  constructor
  · rintro ⟨pre, y, t, hprefix, hs, hlong⟩
    rcases List.prefix_concat_iff.mp hprefix with heq | hprefix
    · obtain ⟨rfl, hy⟩ := List.append_inj' heq rfl
      obtain rfl := List.singleton_inj.mp hy
      exact Or.inr ⟨t, hs, hlong⟩
    · exact Or.inl ⟨pre, y, t, hprefix, hs, hlong⟩
  · rintro (⟨pre, y, t, hprefix, hs, hlong⟩ | ⟨t, hs, hlong⟩)
    · exact ⟨pre, y, t, hprefix.trans (List.prefix_append _ _), hs, hlong⟩
    · exact ⟨l, x, t, List.prefix_rfl, hs, hlong⟩

/-- The timer decides it, report by report. -/
theorem persists_snoc_hold [DecidableEq α] [AddRightMono τ] {d : τ} {l : List (α × τ)} (hl : l.Pairwise (·.2 ≤ ·.2))
    {x : α × τ} : Persists d (l ++ [x]) ↔
      Persists d l ∨ ∃ held, run hold none l = some held ∧ held.1 = x.1 ∧ held.2 + d ≤ x.2 := by
  rw [persists_snoc]
  apply or_congr_right
  constructor
  · rintro ⟨t, hs, hlong⟩
    obtain ⟨held, hheld⟩ := exists_hold hs
    obtain ⟨hvalue, hle⟩ := hold_le_stretch hl hheld hs
    exact ⟨held, hheld, hvalue, (add_le_add_left hle d).trans hlong⟩
  · rintro ⟨held, hheld, hvalue, hlong⟩
    exact ⟨held.2, hvalue ▸ stretch_hold hheld, hlong⟩

end Persists

end PiAudioNode.Lib
