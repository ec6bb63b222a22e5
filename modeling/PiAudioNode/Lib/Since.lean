import PiAudioNode.Lib.Run

/-! Books of a run that some events clear and the others write in: they hold what was
written since the last event that cleared them. -/
namespace PiAudioNode.Lib
variable {α β σ ε : Type*}

/-- The events of a run, each with the state that it found. -/
def found (step : σ → ε → σ) (s : σ) : List ε → List (σ × ε)
  | [] => []
  | e :: es => (s, e) :: found step (step s e) es

section
variable (clears : α → Prop) [DecidablePred clears]

/-- What comes behind the last of its kind, or all there is. -/
def sinceLast (xs : List α) : List α := (xs.reverse.takeWhile fun x => ¬ clears x).reverse

end

section Since
variable {step : σ → ε → σ} {s : σ} {clears : α → Prop} [DecidablePred clears]

theorem found_snoc (es : List ε) (e : ε) : found step s (es ++ [e]) = found step s es ++ [(run step s es, e)] := by
  induction es generalizing s with
  | nil => rfl
  | cons f es ih =>
    rw [List.cons_append, found, found, ih, List.cons_append]
    rfl

theorem sinceLast_snoc (xs : List α) (x : α) :
    sinceLast clears (xs ++ [x]) = if clears x then [] else sinceLast clears xs ++ [x] := by
  rw [sinceLast, List.reverse_append, List.reverse_singleton, List.singleton_append, List.takeWhile_cons]
  by_cases h : clears x
  · rw [if_pos h, if_neg (by simp [h])]
    rfl
  · rw [if_neg h, if_pos (by simp [h]), List.reverse_cons]
    rfl

/-- What a run keeps in its books. -/
theorem run_sinceLast {clears : σ × ε → Prop} [DecidablePred clears] {book : σ → β} {write : β → σ × ε → β} {clean : β}
    (start : book s = clean)
    (keep : ∀ es e, book (step (run step s es) e) =
      if clears (run step s es, e) then clean else write (book (run step s es)) (run step s es, e)) (es : List ε) :
    book (run step s es) = (sinceLast clears (found step s es)).foldl write clean := by
  induction es using List.reverseRecOn with
  | nil => exact start
  | append_singleton es e ih =>
    rw [run_snoc, keep, found_snoc, sinceLast_snoc]
    split_ifs
    · rfl
    · rw [List.foldl_append, ← ih]
      rfl

end Since

end PiAudioNode.Lib
