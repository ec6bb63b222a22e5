import Mathlib.Data.List.Basic

/-! Sequences of frames whose head says how long they are. A sequence is cut into such
frames in one way only, so that the frames at its front are those of any longer cut. -/
namespace PiAudioNode.Lib
variable {α : Type*} {size : α → Nat} {f g rest rest' : List α} {fs gs : List (List α)}

/-- A head, and as many more as it says. -/
def IsFrame (size : α → Nat) (f : List α) : Prop := ∃ head body, f = head :: body ∧ body.length = size head

theorem IsFrame.eq_of_append (hf : IsFrame size f) (hg : IsFrame size g) (h : f ++ rest = g ++ rest') :
    f = g ∧ rest = rest' := by
  obtain ⟨head, body, rfl, hbody⟩ := hf
  obtain ⟨head', body', rfl, hbody'⟩ := hg
  obtain ⟨rfl, htail⟩ := List.cons.inj h
  obtain ⟨rfl, hrest⟩ := List.append_inj htail (hbody.trans hbody'.symm)
  exact ⟨rfl, hrest⟩

/-- No frame lies whole at the front. -/
def Torn (size : α → Nat) (rest : List α) : Prop := ∀ f, IsFrame size f → ¬ f <+: rest

theorem torn_nil : Torn size [] := by
  rintro _ ⟨head, body, rfl, -⟩ h
  cases List.prefix_nil.mp h

theorem torn_cons {head : α} {body : List α} (h : body.length < size head) : Torn size (head :: body) := by
  rintro _ ⟨head', body', rfl, hbody⟩ ⟨more, heq⟩
  obtain ⟨rfl, hmore⟩ := List.cons.inj heq
  have hle : body'.length ≤ body.length := List.IsPrefix.length_le ⟨more, hmore⟩
  omega

/-- Frames at the front of others, with a torn rest behind them, are among those. -/
theorem prefix_of_flatten_prefix (hfs : ∀ f ∈ fs, IsFrame size f) (hgs : ∀ g ∈ gs, IsFrame size g)
    (hrest : Torn size rest) (h : gs.flatten <+: fs.flatten ++ rest) : gs <+: fs := by
  induction fs generalizing gs with
  | nil =>
    cases gs with
    | nil => exact List.nil_prefix
    | cons g gs =>
      have hfront : g <+: rest := (List.prefix_append g gs.flatten).trans h
      exact absurd hfront (hrest g (hgs g List.mem_cons_self))
  | cons f fs ih =>
    cases gs with
    | nil => exact List.nil_prefix
    | cons g gs =>
      obtain ⟨hf, hfs'⟩ := List.forall_mem_cons.mp hfs
      obtain ⟨hg, hgs'⟩ := List.forall_mem_cons.mp hgs
      obtain ⟨more, heq⟩ := h
      rw [List.flatten_cons, List.flatten_cons, List.append_assoc, List.append_assoc] at heq
      obtain ⟨rfl, htail⟩ := hg.eq_of_append hf heq
      exact List.cons_prefix_cons.mpr ⟨rfl, ih hfs' hgs' ⟨more, htail⟩⟩

end PiAudioNode.Lib
