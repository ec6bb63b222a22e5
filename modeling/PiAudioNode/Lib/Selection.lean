import Mathlib

/-! Elements of a list in the order of a list of keys, and the first two of them. -/
namespace PiAudioNode.Lib

section Selection
variable {α β κ : Type*} [DecidableEq κ] {key : α → κ} {keys : List κ} {xs : List α}

/-- For each key in turn the elements that have it. -/
def select (key : α → κ) (keys : List κ) (xs : List α) : List α :=
  keys.flatMap fun k => xs.filter fun x => key x = k

theorem mem_select {x : α} : x ∈ select key keys xs ↔ x ∈ xs ∧ key x ∈ keys := by
  simp only [select, List.mem_flatMap, List.mem_filter, decide_eq_true_eq]
  constructor
  · rintro ⟨k, hk, hx, rfl⟩
    exact ⟨hx, hk⟩
  · rintro ⟨hx, hk⟩
    exact ⟨key x, hk, hx, rfl⟩

theorem select_map (f : α → β) (key : β → κ) (keys : List κ) (xs : List α) :
    select key keys (xs.map f) = (select (fun x => key (f x)) keys xs).map f := by
  induction keys with
  | nil => rfl
  | cons k keys ih =>
    simp only [select, List.flatMap_cons, List.map_append] at ih ⊢
    rw [ih, List.filter_map]
    rfl

/-- Keys that no element has make no difference. -/
theorem select_filter (key : α → κ) (keys : List κ) (xs : List α) :
    select key (keys.filter fun k => ∃ x ∈ xs, key x = k) xs = select key keys xs := by
  induction keys with
  | nil => rfl
  | cons k keys ih =>
    simp only [select, List.flatMap_cons] at ih ⊢
    by_cases hk : ∃ x ∈ xs, key x = k
    · rw [List.filter_cons_of_pos (by simpa using hk), List.flatMap_cons, ih]
    · have hnone : xs.filter (fun x => decide (key x = k)) = [] := by
        refine List.filter_eq_nil_iff.mpr fun x hx => ?_
        simpa using fun heq => hk ⟨x, hx, heq⟩
      rw [List.filter_cons_of_neg (by simpa using hk), ih, hnone, List.nil_append]

/-- Every key has some element. -/
def AllHeld (key : α → κ) (keys : List κ) (xs : List α) : Prop := ∀ k ∈ keys, ∃ x ∈ xs, key x = k

theorem allHeld_filter (key : α → κ) (keys : List κ) (xs : List α) :
    AllHeld key (keys.filter fun k => ∃ x ∈ xs, key x = k) xs := by
  intro k hk
  exact of_decide_eq_true (List.mem_filter.mp hk).2

theorem AllHeld.exists_filter_eq_cons (h : AllHeld key keys xs) {k : κ} (hk : k ∈ keys) :
    ∃ x rest, xs.filter (fun x => key x = k) = x :: rest := by
  obtain ⟨x, hx, hkey⟩ := h k hk
  refine List.exists_cons_of_ne_nil (List.ne_nil_of_mem (a := x) ?_)
  exact List.mem_filter.mpr ⟨hx, decide_eq_true hkey⟩

/-- The one element of a key comes as often as the key does. -/
theorem take_two_select_of_repeat {k : κ} {rest : List κ} (hkeys : keys = k :: k :: rest)
    (hone : (xs.filter fun x => key x = k).length = 1) :
    ∃ x, xs.filter (fun x => key x = k) = [x] ∧ (select key keys xs).take 2 = [x, x] := by
  obtain ⟨x, hx⟩ := List.length_eq_one_iff.mp hone
  refine ⟨x, hx, ?_⟩
  rw [hkeys, select, List.flatMap_cons, List.flatMap_cons, hx]
  rfl

/-- An element comes twice among the first two just if the first two keys are one, and
no other element has it. -/
theorem nodup_take_two_select (hxs : xs.Nodup) (h : AllHeld key keys xs) :
    ((select key keys xs).take 2).Nodup ↔
      ¬ ∃ k rest, keys = k :: k :: rest ∧ (xs.filter fun x => key x = k).length = 1 := by
  have hkey {x : α} {k : κ} {more : List α} (hfilter : xs.filter (fun x => key x = k) = x :: more) : key x = k := by
    have hmem : x ∈ xs.filter fun x => key x = k := hfilter ▸ List.mem_cons_self
    exact of_decide_eq_true (List.mem_filter.mp hmem).2
  match keys with
  | [] => simp [select]
  | [k] =>
    have hselect : select key [k] xs = xs.filter fun x => key x = k := List.flatMap_singleton ..
    rw [hselect]
    exact iff_of_true ((hxs.filter _).take) (by simp)
  | k :: k' :: rest =>
    obtain ⟨x, more, hfilter⟩ := h.exists_filter_eq_cons List.mem_cons_self
    obtain ⟨y, more', hfilter'⟩ := h.exists_filter_eq_cons (List.mem_cons_of_mem _ List.mem_cons_self)
    have hselect : select key (k :: k' :: rest) xs = (x :: more) ++ ((y :: more') ++ select key rest xs) := by
      rw [← hfilter, ← hfilter']
      rfl
    cases more with
    | nil =>
      have htwo : (select key (k :: k' :: rest) xs).take 2 = [x, y] := by rw [hselect]; rfl
      rw [htwo]
      by_cases hkeys : k = k'
      · subst hkeys
        obtain ⟨rfl, -⟩ := List.cons.inj (hfilter.symm.trans hfilter')
        refine iff_of_false (by simp) (not_not_intro ⟨k, rest, rfl, ?_⟩)
        rw [hfilter]
        rfl
      · have hne : x ≠ y := by
          rintro rfl
          exact hkeys ((hkey hfilter).symm.trans (hkey hfilter'))
        refine iff_of_true (by simpa using hne) ?_
        rintro ⟨j, rest', hcons, -⟩
        obtain ⟨rfl, hcons⟩ := List.cons.inj hcons
        exact hkeys (List.cons.inj hcons).1.symm
    | cons x' more =>
      have htwo : (select key (k :: k' :: rest) xs).take 2 = (xs.filter fun x => key x = k).take 2 := by
        rw [hselect, hfilter]
        rfl
      rw [htwo]
      refine iff_of_true ((hxs.filter _).take) ?_
      rintro ⟨j, rest', hcons, hone⟩
      obtain ⟨rfl, -⟩ := List.cons.inj hcons
      rw [hfilter] at hone
      cases hone

end Selection

section Distinct
variable {α : Type*} [BEq α] [LawfulBEq α]

/-- Leaving out what came before changes the first two only if they are equal. -/
theorem take_two_eraseDups {xs : List α} (h : (xs.take 2).Nodup) : xs.eraseDups.take 2 = xs.take 2 := by
  match xs with
  | [] => rfl
  | [x] => rfl
  | x :: y :: rest =>
    have hne : y ≠ x := by
      rintro rfl
      simp at h
    have hkept : (!y == x) = true := by simpa using hne
    rw [List.eraseDups_cons, List.filter_cons_of_pos (p := fun b => !b == x) hkept, List.eraseDups_cons]
    rfl

end Distinct

end PiAudioNode.Lib
