import Mathlib
import PiAudioNode.Lib.Run

/-! Positions in a run: the state before each event, what holds from one position
to another, and the last event of a kind before a position. -/
namespace PiAudioNode.Lib
variable {σ ε : Type*} {step : σ → ε → σ} {s : σ} {es : List ε}

theorem run_take_succ {i : Nat} {e : ε} (h : es[i]? = some e) :
    run step s (es.take (i + 1)) = step (run step s (es.take i)) e := by
  rw [List.take_add_one, h, Option.toList_some, run_snoc]

/-- What every event from position `i` on keeps still holds at position `j`. -/
theorem run_take_keeps {P : σ → Prop} {i j : Nat} (hij : i ≤ j) (hi : P (run step s (es.take i)))
    (keep : ∀ k e, i ≤ k → k < j → es[k]? = some e → P (run step s (es.take k)) →
      P (step (run step s (es.take k)) e)) : P (run step s (es.take j)) := by
  induction j, hij using Nat.le_induction with
  | base => exact hi
  | succ j hij ih =>
    have hj := ih fun k e hik hkj => keep k e hik (by omega)
    cases he : es[j]? with
    | none =>
      have hlen := List.getElem?_eq_none_iff.mp he
      rw [List.take_of_length_le hlen] at hj
      rwa [List.take_of_length_le (by omega)]
    | some e =>
      rw [run_take_succ he]
      exact keep j e hij (by omega) he hj

/-- Every event is allowed where it stands. -/
theorem admits_of_getElem {ok : List ε → ε → Prop} (h : ∀ i, (hi : i < es.length) → ok (es.take i) es[i]) :
    Admits ok es := by
  rintro pre e post rfl
  have hat := h pre.length (by simp)
  simpa using hat

/-- Where a property that fails at the start and holds at `j` began to hold. -/
theorem exists_onset {P : Nat → Prop} {j : Nat} (h₀ : ¬ P 0) (hj : P j) :
    ∃ i < j, ¬ P i ∧ ∀ k, i < k → k ≤ j → P k := by
  induction j with
  | zero => exact absurd hj h₀
  | succ j ih =>
    by_cases hprev : P j
    · obtain ⟨i, hij, hi, hall⟩ := ih hprev
      refine ⟨i, by omega, hi, fun k hik hkj => ?_⟩
      rcases Nat.le_succ_iff.mp hkj with hkj | rfl
      · exact hall k hik hkj
      · exact hj
    · refine ⟨j, by omega, hprev, fun k hik hkj => ?_⟩
      obtain rfl : k = j + 1 := by omega
      exact hj

/-- The last position before `j` with a property. -/
structure LastBefore (P : Nat → Prop) (i j : Nat) : Prop where
  before : i < j
  here : P i
  last : ∀ k, i < k → k < j → ¬ P k

theorem LastBefore.exists {P : Nat → Prop} {i j : Nat} (hij : i < j) (hi : P i) : ∃ k, LastBefore P k j := by
  induction j with
  | zero => omega
  | succ j ih =>
    by_cases hj : P j
    · exact ⟨j, by omega, hj, fun k hk _ => by omega⟩
    · have hlt : i < j := lt_of_le_of_ne (by omega) fun h => hj (h ▸ hi)
      obtain ⟨k, hk⟩ := ih hlt
      refine ⟨k, hk.before.trans (by omega), hk.here, fun l hkl hlj => ?_⟩
      rcases Nat.lt_succ_iff_lt_or_eq.mp hlj with hlj | rfl
      · exact hk.last l hkl hlj
      · exact hj

theorem LastBefore.le {P : Nat → Prop} {i j k : Nat} (h : LastBefore P i j) (hkj : k < j) (hk : P k) : k ≤ i :=
  not_lt.mp fun hik => h.last k hik hkj hk

end PiAudioNode.Lib
