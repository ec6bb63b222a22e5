import PiAudioNode.Lib.Run

/-! A list that is filled with those values whose key is not in it yet. -/
namespace PiAudioNode.Lib
variable {α κ : Type*} [DecidableEq κ]

def keepNew (key : α → κ) (kept : List α) (x : α) : List α := if kept.any (key · = key x) then kept else kept ++ [x]

/-- Of every key the first value that has it. -/
def keepFirst (key : α → κ) (xs : List α) : List α := xs.foldl (keepNew key) []

section KeepFirst
variable {key : α → κ} {kept xs : List α} {x y : α} {k : κ}

theorem keepFirst_snoc (xs : List α) (x : α) : keepFirst key (xs ++ [x]) = keepNew key (keepFirst key xs) x := by
  rw [keepFirst, List.foldl_append]
  rfl

theorem keepNew_cases (key : α → κ) (kept : List α) (x : α) : (key x ∈ kept.map key ∧ keepNew key kept x = kept) ∨
    (key x ∉ kept.map key ∧ keepNew key kept x = kept ++ [x]) := by
  rw [keepNew]
  split_ifs with h
  · exact Or.inl ⟨by simpa using h, rfl⟩
  · exact Or.inr ⟨by simpa using h, rfl⟩

theorem mem_keys_keepNew : k ∈ (keepNew key kept x).map key ↔ k ∈ kept.map key ∨ k = key x := by
  rcases keepNew_cases key kept x with ⟨hknown, heq⟩ | ⟨hnew, heq⟩
  · rw [heq]
    constructor
    · exact Or.inl
    · rintro (h | rfl)
      · exact h
      · exact hknown
  · rw [heq, List.map_append, List.mem_append, List.map_singleton, List.mem_singleton]

/-- No key is lost. -/
theorem mem_keys_keepFirst : k ∈ (keepFirst key xs).map key ↔ k ∈ xs.map key := by
  induction xs using List.reverseRecOn with
  | nil => rfl
  | append_singleton xs x ih =>
    rw [keepFirst_snoc, mem_keys_keepNew, ih, List.map_append, List.mem_append, List.map_singleton, List.mem_singleton]

theorem nodup_keys_keepFirst (xs : List α) : ((keepFirst key xs).map key).Nodup := by
  induction xs using List.reverseRecOn with
  | nil => exact List.nodup_nil
  | append_singleton xs x ih =>
    rw [keepFirst_snoc]
    rcases keepNew_cases key (keepFirst key xs) x with ⟨-, heq⟩ | ⟨hnew, heq⟩
    · rwa [heq]
    · rw [heq, List.map_append, List.map_singleton, List.nodup_append]
      refine ⟨ih, List.nodup_singleton _, ?_⟩
      intro k hk k' hk' hsame
      rw [List.mem_singleton.mp hk'] at hsame
      exact hnew (hsame ▸ hk)

/-- A value is kept if it stands somewhere with no value of its key before it. -/
theorem mem_keepFirst_iff : x ∈ keepFirst key xs ↔ ∃ pre post, xs = pre ++ x :: post ∧ key x ∉ pre.map key := by
  induction xs using List.reverseRecOn with
  | nil =>
    constructor
    · intro h
      cases h
    · rintro ⟨pre, post, h, -⟩
      simp at h
  | append_singleton xs y ih =>
    rw [keepFirst_snoc]
    have hkeys : key y ∈ (keepFirst key xs).map key ↔ key y ∈ xs.map key := mem_keys_keepFirst
    constructor
    · intro hmem
      have hcases : x ∈ keepFirst key xs ∨ x = y ∧ key y ∉ xs.map key := by
        rcases keepNew_cases key (keepFirst key xs) y with ⟨-, heq⟩ | ⟨hnew, heq⟩
        · exact Or.inl (heq ▸ hmem)
        · rw [heq, List.mem_append, List.mem_singleton] at hmem
          exact hmem.imp_right fun h => ⟨h, mt hkeys.mpr hnew⟩
      rcases hcases with hold | ⟨rfl, hnew⟩
      · obtain ⟨pre, post, rfl, hfirst⟩ := ih.mp hold
        exact ⟨pre, post ++ [y], by simp, hfirst⟩
      · exact ⟨xs, [], rfl, hnew⟩
    · rintro ⟨pre, post, hsplit, hfirst⟩
      rcases snoc_eq_append_cons hsplit with ⟨rfl, rfl, -⟩ | ⟨rest, -, rfl⟩
      · rcases keepNew_cases key (keepFirst key xs) y with ⟨hknown, -⟩ | ⟨-, heq⟩
        · exact absurd (hkeys.mp hknown) hfirst
        · rw [heq]
          exact List.mem_append_right _ (List.mem_singleton_self _)
      · have hold := ih.mpr ⟨pre, rest, rfl, hfirst⟩
        rcases keepNew_cases key (keepFirst key (pre ++ x :: rest)) y with ⟨-, heq⟩ | ⟨-, heq⟩
        · rwa [heq]
        · rw [heq]
          exact List.mem_append_left _ hold

end KeepFirst

end PiAudioNode.Lib
