import Mathlib.Data.List.Infix
import PiAudioNode.Lib.Scan

/-! Texts cut at the first place where a separator stands. -/
namespace PiAudioNode.Lib

/-- What is before a separator and what is behind it. -/
def cut (sText : List Char) : List Char → Option (List Char × List Char)
  | [] => (stripPrefix sText []).map ([], ·)
  | c :: cs =>
    match stripPrefix sText (c :: cs) with
    | some rest => some ([], rest)
    | none => (cut sText cs).map fun x => (c :: x.1, x.2)

section Cut
variable {sText cs front rest : List Char} {c : Char}

theorem stripPrefix_eq_some_iff : stripPrefix sText cs = some rest ↔ cs = sText ++ rest := by
  rw [stripPrefix]
  split_ifs with h
  · obtain ⟨t, rfl⟩ := List.isPrefixOf_iff_prefix.mp h
    simp
  · constructor
    · intro hnone
      cases hnone
    · rintro rfl
      exact absurd (List.isPrefixOf_iff_prefix.mpr (List.prefix_append _ _)) h

theorem cut_cons_of_begins (h : stripPrefix sText (c :: cs) = some rest) : cut sText (c :: cs) = some ([], rest) := by
  rw [cut, h]

theorem cut_cons_of_differs (h : ¬ sText <+: c :: cs) :
    cut sText (c :: cs) = (cut sText cs).map fun x => (c :: x.1, x.2) := by
  have hnone : stripPrefix sText (c :: cs) = none := by
    rw [stripPrefix, if_neg fun hprefix => h (List.isPrefixOf_iff_prefix.mp hprefix)]
  rw [cut, hnone]

/-- A text is cut before a separator that is not met earlier. -/
theorem cut_eq_some_iff : cut sText cs = some (front, rest) ↔
    cs = front ++ (sText ++ rest) ∧ ∀ pre suf, front = pre ++ suf → suf ≠ [] → ¬ sText <+: suf ++ (sText ++ rest) := by
  induction cs generalizing front with
  | nil =>
    rw [cut]
    constructor
    · intro h
      obtain ⟨rest', hstrip, heq⟩ := Option.map_eq_some_iff.mp h
      cases heq
      refine ⟨by simpa using stripPrefix_eq_some_iff.mp hstrip, ?_⟩
      intro pre suf hsplit hsuf
      exact absurd (List.append_eq_nil_iff.mp hsplit.symm).2 hsuf
    · rintro ⟨hsplit, -⟩
      obtain ⟨rfl, hrest⟩ := List.append_eq_nil_iff.mp hsplit.symm
      rw [stripPrefix_eq_some_iff.mpr hrest.symm]
      rfl
  | cons c cs ih =>
    by_cases hprefix : sText <+: c :: cs
    · obtain ⟨rest', hrest'⟩ := hprefix
      rw [cut_cons_of_begins (stripPrefix_eq_some_iff.mpr hrest'.symm)]
      constructor
      · intro h
        cases h
        refine ⟨hrest'.symm, ?_⟩
        intro pre suf hsplit hsuf
        exact absurd (List.append_eq_nil_iff.mp hsplit.symm).2 hsuf
      · rintro ⟨hsplit, hfirst⟩
        cases front with
        | nil =>
          rw [List.nil_append, ← hrest'] at hsplit
          rw [List.append_cancel_left hsplit]
        | cons d front =>
          refine absurd ?_ (hfirst [] (d :: front) rfl (List.cons_ne_nil _ _))
          rw [← hsplit]
          exact ⟨rest', hrest'⟩
    · rw [cut_cons_of_differs hprefix]
      constructor
      · intro h
        obtain ⟨⟨front', rest'⟩, hcut, heq⟩ := Option.map_eq_some_iff.mp h
        cases heq
        obtain ⟨rfl, hfirst⟩ := ih.mp hcut
        refine ⟨rfl, ?_⟩
        intro pre suf hsplit hsuf
        cases pre with
        | nil =>
          rw [List.nil_append] at hsplit
          rw [← hsplit]
          exact hprefix
        | cons d pre =>
          obtain ⟨-, hfront⟩ := List.cons.inj hsplit
          exact hfirst pre suf hfront hsuf
      · rintro ⟨hsplit, hfirst⟩
        cases front with
        | nil => exact absurd ⟨rest, hsplit.symm⟩ hprefix
        | cons d front =>
          obtain ⟨rfl, rfl⟩ := List.cons.inj hsplit
          have hcut := ih.mpr ⟨rfl, fun pre suf hfront hsuf => hfirst (c :: pre) suf (by rw [hfront]; rfl) hsuf⟩
          rw [hcut]
          rfl

/-- No end of the separator is also its beginning, so it cannot overlap itself. -/
def Unbordered (sText : List Char) : Prop := ∀ p ∈ sText.inits, p <:+ sText → p = [] ∨ p = sText

instance (sText : List Char) : Decidable (Unbordered sText) :=
  inferInstanceAs (Decidable (∀ p ∈ sText.inits, _))

/-- A separator that stands early in a text stands in what is before the next one. -/
theorem prefix_append_iff (h : Unbordered sText) {suf : List Char} (hsuf : suf ≠ []) :
    sText <+: suf ++ (sText ++ rest) ↔ sText <+: suf := by
  constructor
  · intro hprefix
    rcases List.prefix_or_prefix_of_prefix hprefix (List.prefix_append suf (sText ++ rest)) with hin | ⟨q, rfl⟩
    · exact hin
    · have hq : q <+: (suf ++ q) ++ rest := (List.prefix_append_right_inj suf).mp hprefix
      have hborder : q <+: suf ++ q :=
        List.prefix_of_prefix_length_le hq (List.prefix_append _ rest) (by simp)
      rcases h q ((List.mem_inits _ _).mpr hborder) (List.suffix_append suf q) with rfl | heq
      · rw [List.append_nil]
      · exact absurd (List.append_left_eq_self.mp heq.symm) hsuf
  · exact fun hin => hin.trans (List.prefix_append _ _)

/-- The cut falls on a separator just when there is none in front of it. -/
theorem cut_append_iff (h : Unbordered sText) (hne : sText ≠ []) :
    cut sText (front ++ (sText ++ rest)) = some (front, rest) ↔ ¬ sText <:+: front := by
  rw [cut_eq_some_iff]
  constructor
  · rintro ⟨-, hfirst⟩ ⟨pre, suf, rfl⟩
    have hsuf : sText ++ suf ≠ [] := by simp [hne]
    refine hfirst pre (sText ++ suf) (List.append_assoc _ _ _) hsuf ?_
    exact (prefix_append_iff h hsuf).mpr (List.prefix_append _ _)
  · intro hno
    refine ⟨rfl, fun pre suf hsplit hsuf hprefix => hno ?_⟩
    obtain ⟨more, rfl⟩ := (prefix_append_iff h hsuf).mp hprefix
    exact ⟨pre, more, by rw [hsplit, List.append_assoc]⟩

end Cut

end PiAudioNode.Lib
