import Mathlib

/-! Picking a winner by one pass over a list: a challenger takes the title when
it beats the holder. Nothing is assumed of the comparison, which may be cyclic. -/
namespace PiAudioNode.Lib.Tournament
variable {α : Type*}

/-- The holder after meeting one more challenger. -/
def challenge (beats : α → α → Prop) [DecidableRel beats] (holder : Option α) (x : α) : Option α :=
  match holder with
  | none => some x
  | some b => if beats x b then some x else some b

def champion (beats : α → α → Prop) [DecidableRel beats] (xs : List α) : Option α :=
  xs.foldl (challenge beats) none

/-- The member beats every other member. -/
def Dominates (beats : α → α → Prop) (xs : List α) (w : α) : Prop :=
  w ∈ xs ∧ ∀ x ∈ xs, x ≠ w → beats w x

variable {beats : α → α → Prop} [DecidableRel beats]

private theorem fold_mem (xs : List α) (holder : Option α) {w : α}
    (h : xs.foldl (challenge beats) holder = some w) : holder = some w ∨ w ∈ xs := by
  induction xs generalizing holder with
  | nil => exact Or.inl h
  | cons x xs ih =>
    rcases ih _ h with hw | hw
    · cases holder with
      | none => simp_all [challenge]
      | some b =>
        simp only [challenge] at hw
        split at hw <;> simp_all
    · exact Or.inr (List.mem_cons_of_mem x hw)

theorem champion_mem {xs : List α} {w : α} (h : champion beats xs = some w) : w ∈ xs := by
  rcases fold_mem xs none h with h | h
  · cases h
  · exact h

/-- A comparison of images is decided among the images. -/
theorem champion_map {β : Type*} (f : β → α) (xs : List β) :
    champion beats (xs.map f) = (champion (fun a b => beats (f a) (f b)) xs).map f := by
  have hfold (holder : Option β) : (xs.map f).foldl (challenge beats) (holder.map f) =
      (xs.foldl (challenge fun a b => beats (f a) (f b)) holder).map f := by
    induction xs generalizing holder with
    | nil => rfl
    | cons x xs ih =>
      have hstep : challenge beats (holder.map f) (f x) =
          (challenge (fun a b => beats (f a) (f b)) holder x).map f := by
        cases holder with
        | none => rfl
        | some b =>
          simp only [challenge, Option.map_some]
          split <;> rfl
      rw [List.map_cons, List.foldl_cons, List.foldl_cons, hstep]
      exact ih _
  exact hfold none

private theorem fold_isSome (xs : List α) (b : α) : ∃ w, xs.foldl (challenge beats) (some b) = some w := by
  induction xs generalizing b with
  | nil => exact ⟨b, rfl⟩
  | cons x xs ih =>
    simp only [List.foldl_cons, challenge]
    split
    · exact ih x
    · exact ih b

theorem champion_exists {xs : List α} (h : xs ≠ []) : ∃ w, champion beats xs = some w := by
  cases xs with
  | nil => exact absurd rfl h
  | cons x xs => exact fold_isSome xs x

private theorem fold_keeps {xs : List α} {w : α} (h : ∀ x ∈ xs, x ≠ w → ¬ beats x w) :
    xs.foldl (challenge beats) (some w) = some w := by
  induction xs with
  | nil => rfl
  | cons x xs ih =>
    have hx : challenge beats (some w) x = some w := by
      by_cases hw : x = w
      · simp [challenge, hw]
      · simp [challenge, h x List.mem_cons_self hw]
    rw [List.foldl_cons, hx]
    exact ih fun y hy => h y (List.mem_cons_of_mem x hy)

private theorem fold_reaches {xs : List α} {w : α} (hw : w ∈ xs) (hwin : ∀ x ∈ xs, x ≠ w → beats w x)
    (hlose : ∀ x ∈ xs, x ≠ w → ¬ beats x w) (holder : Option α)
    (hh : ∀ b, holder = some b → b ≠ w → beats w b) : xs.foldl (challenge beats) holder = some w := by
  induction xs generalizing holder with
  | nil => cases hw
  | cons x xs ih =>
    have tail : ∀ y ∈ xs, y ≠ w → ¬ beats y w := fun y hy => hlose y (List.mem_cons_of_mem x hy)
    by_cases hx : x = w
    · have taken : challenge beats holder x = some w := by
        cases holder with
        | none => simp [challenge, hx]
        | some b =>
          by_cases hb : b = w
          · simp [challenge, hx, hb]
          · simp [challenge, hx, hh b rfl hb]
      rw [List.foldl_cons, taken]
      exact fold_keeps tail
    · have hmem : w ∈ xs := (List.mem_cons.mp hw).resolve_left (Ne.symm hx)
      rw [List.foldl_cons]
      refine ih hmem (fun y hy => hwin y (List.mem_cons_of_mem x hy)) tail _ ?_
      intro b hb hne
      cases holder with
      | none =>
        simp only [challenge, Option.some.injEq] at hb
        exact hb ▸ hwin x List.mem_cons_self hx
      | some a =>
        simp only [challenge] at hb
        split at hb
        · exact Option.some.inj hb ▸ hwin x List.mem_cons_self hx
        · exact hh b hb hne

/-- A member that beats all others wins, whatever the others do to each other. -/
theorem champion_of_dominates (asymm : ∀ x y, beats x y → ¬ beats y x) {xs : List α} {w : α}
    (h : Dominates beats xs w) : champion beats xs = some w :=
  fold_reaches h.1 h.2 (fun x hx hne => asymm _ _ (h.2 x hx hne)) none (by simp)

omit [DecidableRel beats] in
/-- Where the comparison is that of a rank which tells members apart, one of
finitely many members beats all others. -/
theorem exists_dominates {β : Type*} [LinearOrder β] (rank : α → β) {xs : List α}
    (hrank : ∀ x ∈ xs, ∀ y ∈ xs, beats x y ↔ rank x < rank y)
    (inj : ∀ x ∈ xs, ∀ y ∈ xs, rank x = rank y → x = y) (hne : xs ≠ []) : ∃ w, Dominates beats xs w := by
  obtain ⟨w, hw, hle⟩ := Set.exists_min_image {x | x ∈ xs} rank xs.finite_toSet
    (List.exists_mem_of_ne_nil xs hne)
  refine ⟨w, hw, fun x hx hxw => (hrank w hw x hx).mpr ?_⟩
  exact lt_of_le_of_ne (hle x hx) fun h => hxw (inj w hw x hx h).symm

end PiAudioNode.Lib.Tournament
