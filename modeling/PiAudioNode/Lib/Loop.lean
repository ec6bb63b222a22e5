import Mathlib.Data.Nat.Notation
import Mathlib.Tactic.Common

/-! Loops that a turn either ends or goes on with. A bound on the turns that are made
stands for the time a loop may take. -/
namespace PiAudioNode.Lib
variable {σ : Type*}

inductive Turn (σ : Type*) where
  | ends (s : σ)
  | goes (s : σ)

/-- The state a loop ends in, if it does within so many turns. -/
def loop (turn : σ → Turn σ) : Nat → σ → Option σ
  | 0, _ => none
  | n + 1, s =>
    match turn s with
    | .ends t => some t
    | .goes t => loop turn n t

section Rules
variable {turn : σ → Turn σ} {Inv Post : σ → Prop} {left : σ → Nat} {s t : σ} {n : Nat}

theorem loop_ends (h : turn s = .ends t) (n : Nat) : loop turn (n + 1) s = some t := by
  rw [loop, h]

theorem loop_goes (h : turn s = .goes t) (n : Nat) : loop turn (n + 1) s = loop turn n t := by
  rw [loop, h]

/-- More turns than it takes change nothing. -/
theorem loop_mono {m : Nat} (h : loop turn n s = some t) (hle : n ≤ m) : loop turn m s = some t := by
  induction n generalizing s m with
  | zero => cases h
  | succ n ih =>
    obtain ⟨m, rfl⟩ := Nat.exists_eq_add_of_le' (Nat.lt_of_lt_of_le (Nat.succ_pos n) hle)
    cases hturn : turn s with
    | ends u =>
      rw [loop_ends hturn] at h ⊢
      exact h
    | goes u =>
      rw [loop_goes hturn] at h ⊢
      exact ih h (Nat.le_of_succ_le_succ hle)

/-- A turn that goes on keeps the invariant and leaves less to do; one that ends
establishes what the loop is for. -/
structure Progress (turn : σ → Turn σ) (Inv Post : σ → Prop) (left : σ → Nat) : Prop where
  kept : ∀ {s t}, Inv s → turn s = .goes t → Inv t
  less : ∀ {s t}, Inv s → turn s = .goes t → left t < left s
  reached : ∀ {s t}, Inv s → turn s = .ends t → Post t

/-- The loop ends, within one more turn than there is to do at the start. -/
theorem Progress.exists_loop (h : Progress turn Inv Post left) (hs : Inv s) (hn : left s < n) :
    ∃ t, loop turn n s = some t ∧ Post t := by
  induction n generalizing s with
  | zero => exact absurd hn (Nat.not_lt_zero _)
  | succ n ih =>
    cases hturn : turn s with
    | ends t => exact ⟨t, loop_ends hturn n, h.reached hs hturn⟩
    | goes t =>
      rw [loop_goes hturn]
      have hless := h.less hs hturn
      exact ih (h.kept hs hturn) (Nat.lt_of_lt_of_le hless (Nat.le_of_lt_succ hn))

end Rules

end PiAudioNode.Lib
