import Mathlib

/-! A value that the steps of a fold set: after them it is the one that was set last. -/
namespace PiAudioNode.Lib

section Latest
variable {σ α β : Type*} {step : σ → α → σ} {get : σ → β} {told : α → Option β} {xs : List α}

/-- A step sets the value that it tells, and leaves it where it tells none. -/
def Sets (step : σ → α → σ) (get : σ → β) (told : α → Option β) : Prop :=
  ∀ s x, get (step s x) = (told x).getD (get s)

theorem Sets.foldl (h : Sets step get told) (s : σ) (xs : List α) :
    get (xs.foldl step s) = (xs.filterMap told).getLast?.getD (get s) := by
  rw [← List.getLastD_eq_getLast?]
  induction xs generalizing s with
  | nil => rfl
  | cons x xs ih =>
    rw [List.foldl_cons, ih, h s x]
    cases htold : told x with
    | none => rw [List.filterMap_cons_none htold, Option.getD_none]
    | some b => rw [List.filterMap_cons_some htold, List.getLastD_cons, Option.getD_some]

/-- A condition on the last of some values is one on the value that is held then. -/
theorem forall_getLast?_iff {P : β → Prop} {bs : List β} {b : β} (h : P b) :
    P (bs.getLast?.getD b) ↔ ∀ b' ∈ bs.getLast?, P b' := by
  cases bs.getLast? with
  | none => simp [h]
  | some b' => simp

theorem getLast?_getD_eq_iff {bs : List β} {b : β} : bs.getLast?.getD b = b ↔ ∀ b' ∈ bs.getLast?, b' = b :=
  forall_getLast?_iff (P := (· = b)) rfl

theorem eq_nil_of_getLast? {bs : List β} {b b' : β} (hne : b ≠ b') (h : bs.getLast?.getD b = b)
    (h' : bs.getLast?.getD b' = b') : bs = [] := by
  cases hlast : bs.getLast? with
  | none => exact List.getLast?_eq_none_iff.mp hlast
  | some last =>
    rw [hlast, Option.getD_some] at h h'
    exact absurd (h.symm.trans h') hne

/-- Steps that leave two different values alone tell none. -/
theorem Sets.told_eq_none (h : Sets step get told) {s t : σ} (hne : get s ≠ get t) (hs : get (xs.foldl step s) = get s)
    (ht : get (xs.foldl step t) = get t) : ∀ x ∈ xs, told x = none := by
  rw [h.foldl] at hs ht
  exact List.filterMap_eq_nil_iff.mp (eq_nil_of_getLast? hne hs ht)

end Latest

end PiAudioNode.Lib
