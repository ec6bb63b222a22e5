import Mathlib

/-! A collection read page by page, from the newest element to the oldest. Each page
starts again at the oldest element of the page before. -/
namespace PiAudioNode.Lib

section Paging
variable {α κ : Type} [LinearOrder κ] {key : α → κ} {n : Nat} {items page seen new : List α} {o o' x : α}

/-- The newest `n` of the items, or all of them, in any order. -/
structure Newest (key : α → κ) (n : Nat) (items page : List α) : Prop where
  subperm : page.Subperm items
  length : page.length = min n items.length
  newest : ∀ x ∈ page, ∀ y ∈ items, key x < key y → y ∈ page

def Oldest (key : α → κ) (page : List α) (o : α) : Prop := o ∈ page ∧ ∀ x ∈ page, key o ≤ key x

def since (key : α → κ) (o : α) (items : List α) : List α := items.filter (key o ≤ key ·)

def upTo (key : α → κ) (o : α) (items : List α) : List α := items.filter (key · ≤ key o)

def before (key : α → κ) (o : α) (items : List α) : List α := items.filter (key · < key o)

@[simp] theorem mem_since : x ∈ since key o items ↔ x ∈ items ∧ key o ≤ key x := by simp [since]

@[simp] theorem mem_upTo : x ∈ upTo key o items ↔ x ∈ items ∧ key x ≤ key o := by simp [upTo]

@[simp] theorem mem_before : x ∈ before key o items ↔ x ∈ items ∧ key x < key o := by simp [before]

theorem nodup_since (h : items.Nodup) (key : α → κ) (o : α) : (since key o items).Nodup := h.filter _

theorem nodup_upTo (h : items.Nodup) (key : α → κ) (o : α) : (upTo key o items).Nodup := h.filter _

theorem length_since_add_before (key : α → κ) (o : α) (items : List α) :
    (since key o items).length + (before key o items).length = items.length := by
  have hsplit := List.length_eq_length_filter_add (l := items) (key o ≤ key ·)
  have hbefore : before key o items = items.filter (fun x => ! decide (key o ≤ key x)) := by
    apply List.filter_congr
    intro x _
    rw [← decide_not]
    exact decide_eq_decide.mpr not_le.symm
  rw [hbefore, hsplit]
  rfl

/-- The element itself stands between what came before it and what is up to it. -/
theorem length_upTo (hkeys : (items.map key).Nodup) (ho : o ∈ items) :
    (upTo key o items).length = (before key o items).length + 1 := by
  have hitems := hkeys.of_map
  have hperm : (upTo key o items).Perm (o :: before key o items) := by
    apply (List.perm_ext_iff_of_nodup (nodup_upTo hitems key o) ?_).mpr
    · intro x
      rw [List.mem_cons, mem_upTo, mem_before, le_iff_eq_or_lt]
      constructor
      · rintro ⟨hx, hkey | hlt⟩
        · exact Or.inl (List.inj_on_of_nodup_map hkeys hx ho hkey)
        · exact Or.inr ⟨hx, hlt⟩
      · rintro (rfl | ⟨hx, hlt⟩)
        · exact ⟨ho, Or.inl rfl⟩
        · exact ⟨hx, Or.inr hlt⟩
    · apply List.nodup_cons.mpr
      exact ⟨fun h => absurd (mem_before.mp h).2 (lt_irrefl _), hitems.filter _⟩
  rw [hperm.length_eq, List.length_cons]

theorem before_upTo (ho : key o' ≤ key o) : before key o' (upTo key o items) = before key o' items := by
  rw [before, upTo, List.filter_filter]
  apply List.filter_congr
  intro x _
  have himp : key x < key o' → key x ≤ key o := fun hlt => hlt.le.trans ho
  simpa using himp

theorem nodup_keys_upTo (hkeys : (items.map key).Nodup) (o : α) : ((upTo key o items).map key).Nodup :=
  hkeys.sublist (List.filter_sublist.map key)

/-- A short page has everything. -/
theorem Newest.perm_of_short (h : Newest key n items page) (hshort : page.length < n) : page.Perm items := by
  have hlength := h.length
  exact h.subperm.perm_of_length_le (by omega)

/-- A page has what is not older than its oldest element. -/
theorem Newest.mem_iff (h : Newest key n items page) (hkeys : (items.map key).Nodup) (ho : Oldest key page o) :
    x ∈ page ↔ x ∈ items ∧ key o ≤ key x := by
  constructor
  · intro hx
    exact ⟨h.subperm.subset hx, ho.2 x hx⟩
  · rintro ⟨hx, hle⟩
    rcases hle.eq_or_lt with heq | hlt
    · rw [← List.inj_on_of_nodup_map hkeys (h.subperm.subset ho.1) hx heq]
      exact ho.1
    · exact h.newest o ho.1 x hx hlt

theorem Newest.nodup (h : Newest key n items page) (hkeys : (items.map key).Nodup) : page.Nodup := by
  obtain ⟨page', hperm, hsub⟩ := h.subperm
  exact hperm.nodup_iff.mp (hkeys.of_map.sublist hsub)

theorem Newest.perm_since (h : Newest key n items page) (hkeys : (items.map key).Nodup) (ho : Oldest key page o) :
    page.Perm (since key o items) := by
  apply (List.perm_ext_iff_of_nodup (h.nodup hkeys) (nodup_since hkeys.of_map key o)).mpr
  intro x
  rw [h.mem_iff hkeys ho, mem_since]

/-- A full page leaves the older elements. -/
theorem Newest.length_before (h : Newest key n items page) (hkeys : (items.map key).Nodup) (ho : Oldest key page o)
    (hfull : page.length = n) : n + (before key o items).length = items.length := by
  rw [← length_since_add_before key o items, ← (h.perm_since hkeys ho).length_eq, hfull]

/-- The front of the items, sorted from the newest to the oldest. -/
theorem newest_take (key : α → κ) (n : Nat) (items : List α) :
    Newest key n items ((items.mergeSort fun x y => decide (key y ≤ key x)).take n) := by
  have hperm := List.mergeSort_perm items fun x y => decide (key y ≤ key x)
  refine ⟨(List.take_sublist ..).subperm.trans hperm.subperm, ?_, fun x hx y hy hlt => ?_⟩
  · rw [List.length_take, hperm.length_eq]
  · have hsorted : (items.mergeSort fun x y => decide (key y ≤ key x)).Pairwise fun x y => decide (key y ≤ key x) = true := by
      apply List.pairwise_mergeSort
      · intro a b c hab hbc
        rw [decide_eq_true_eq] at *
        exact hbc.trans hab
      · intro a b
        simpa using le_total (key b) (key a)
    rw [← hperm.mem_iff, ← List.take_append_drop n (items.mergeSort _), List.mem_append] at hy
    rw [← List.take_append_drop n (items.mergeSort _), List.pairwise_append] at hsorted
    rcases hy with hy | hy
    · exact hy
    · have hle := of_decide_eq_true (hsorted.2.2 x hx y hy)
      exact absurd hlt (not_lt.mpr hle)

/-- Everything down to `o` was seen, once. -/
structure SeenDownTo (key : α → κ) (items seen : List α) (o : α) : Prop where
  mem : o ∈ items
  perm : seen.Perm (since key o items)

theorem Newest.seenDownTo (h : Newest key n items page) (hkeys : (items.map key).Nodup) (ho : Oldest key page o) :
    SeenDownTo key items page o :=
  ⟨h.subperm.subset ho.1, h.perm_since hkeys ho⟩

namespace SeenDownTo
variable (h : SeenDownTo key items seen o) (hkeys : (items.map key).Nodup) (hpage : Newest key n (upTo key o items) page)

include h

theorem length_add : seen.length + (before key o items).length = items.length := by
  rw [h.perm.length_eq, length_since_add_before]

/-- With nothing before `o`, everything was seen. -/
theorem perm_items (hnone : (before key o items).length = 0) : seen.Perm items := by
  have hsub : (since key o items).Subperm items := List.filter_sublist.subperm
  have hlength := h.length_add
  refine h.perm.trans (hsub.perm_of_length_le ?_)
  rw [← h.perm.length_eq]
  omega

include hkeys

theorem nodup_append (hnew : new.Nodup) (hmem : ∀ x, x ∈ new ↔ x ∈ page ∧ x ∉ seen) : (seen ++ new).Nodup := by
  have hseen : seen.Nodup := h.perm.nodup_iff.mpr (nodup_since hkeys.of_map key o)
  exact List.nodup_append.mpr ⟨hseen, hnew, fun x hx y hy heq => ((hmem y).mp hy).2 (heq ▸ hx)⟩

include hpage

/-- One more page, of which only the new elements are taken. -/
theorem next (ho' : Oldest key page o') (hnew : new.Nodup) (hmem : ∀ x, x ∈ new ↔ x ∈ page ∧ x ∉ seen) :
    SeenDownTo key items (seen ++ new) o' := by
  have hnot := mem_upTo.mp (hpage.subperm.subset ho'.1)
  have hnodup := h.nodup_append hkeys hnew hmem
  refine ⟨hnot.1, (List.perm_ext_iff_of_nodup hnodup (nodup_since hkeys.of_map key o')).mpr fun x => ?_⟩
  rw [List.mem_append, hmem, h.perm.mem_iff, hpage.mem_iff (nodup_keys_upTo hkeys o) ho', mem_upTo, mem_since, mem_since]
  constructor
  · rintro (⟨hx, hle⟩ | ⟨⟨⟨hx, -⟩, hle⟩, -⟩)
    · exact ⟨hx, hnot.2.trans hle⟩
    · exact ⟨hx, hle⟩
  · rintro ⟨hx, hle⟩
    by_cases hsince : key o ≤ key x
    · exact Or.inl ⟨hx, hsince⟩
    · exact Or.inr ⟨⟨⟨hx, (not_le.mp hsince).le⟩, hle⟩, fun hin => hsince hin.2⟩

/-- A short page has all the rest. -/
theorem complete (hshort : page.length < n) (hnew : new.Nodup) (hmem : ∀ x, x ∈ new ↔ x ∈ page ∧ x ∉ seen) :
    (seen ++ new).Perm items := by
  have hnodup := h.nodup_append hkeys hnew hmem
  refine (List.perm_ext_iff_of_nodup hnodup hkeys.of_map).mpr fun x => ?_
  rw [List.mem_append, hmem, h.perm.mem_iff, (hpage.perm_of_short hshort).mem_iff, mem_upTo, mem_since]
  constructor
  · rintro (⟨hx, -⟩ | ⟨⟨hx, -⟩, -⟩)
    · exact hx
    · exact hx
  · intro hx
    by_cases hsince : key o ≤ key x
    · exact Or.inl ⟨hx, hsince⟩
    · exact Or.inr ⟨⟨hx, (not_le.mp hsince).le⟩, fun hin => hsince hin.2⟩

/-- A full page brings all of its elements but the one it starts with. -/
theorem length_before (ho' : Oldest key page o') (hfull : page.length = n) :
    n + (before key o' items).length = (before key o items).length + 1 := by
  have hnot := mem_upTo.mp (hpage.subperm.subset ho'.1)
  rw [← length_upTo hkeys h.mem, ← hpage.length_before (nodup_keys_upTo hkeys o) ho' hfull, before_upTo hnot.2]

theorem length_new (ho' : Oldest key page o') (hfull : page.length = n) (hnew : new.Nodup)
    (hmem : ∀ x, x ∈ new ↔ x ∈ page ∧ x ∉ seen) : new.length + 1 = n := by
  have hnext := (h.next hkeys hpage ho' hnew hmem).length_add
  have hseen := h.length_add
  have hstep := h.length_before hkeys hpage ho' hfull
  rw [List.length_append] at hnext
  omega

end SeenDownTo

end Paging

end PiAudioNode.Lib
