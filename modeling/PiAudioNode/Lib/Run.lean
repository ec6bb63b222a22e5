import Mathlib

/-! Runs of a step function over a list of events. A guard on an event may look
at the events before it, so an environment's promise is a property of the list. -/
namespace PiAudioNode.Lib
variable {σ τ ε : Type*}

/-- The state after all events, taken from left to right. -/
def run (step : σ → ε → σ) (s : σ) (es : List ε) : σ := es.foldl step s

@[simp] theorem run_nil (step : σ → ε → σ) (s : σ) : run step s [] = s := rfl

theorem run_append (step : σ → ε → σ) (s : σ) (es fs : List ε) :
    run step s (es ++ fs) = run step (run step s es) fs := List.foldl_append

@[simp] theorem run_snoc (step : σ → ε → σ) (s : σ) (es : List ε) (e : ε) :
    run step s (es ++ [e]) = step (run step s es) e := by
  simp [run]

/-- Two events of one run: the same one, or one of them comes first. -/
theorem append_cons_cases {p p' q q' : List ε} {e e' : ε} (h : p ++ e :: q = p' ++ e' :: q') :
    (p = p' ∧ e = e' ∧ q = q') ∨ (∃ m, p' = p ++ e :: m ∧ q = m ++ e' :: q') ∨
      ∃ m, p = p' ++ e' :: m ∧ q' = m ++ e :: q := by
  rcases List.append_eq_append_iff.mp h with ⟨m, hp, hm⟩ | ⟨m, hp, hm⟩
  · cases m with
    | nil =>
      obtain ⟨he, hq⟩ := List.cons.inj hm
      exact Or.inl ⟨by rw [hp, List.append_nil], he, hq⟩
    | cons x m =>
      obtain ⟨rfl, hq⟩ := List.cons.inj hm
      exact Or.inr (Or.inl ⟨m, hp, hq⟩)
  · cases m with
    | nil =>
      obtain ⟨he, hq⟩ := List.cons.inj hm
      exact Or.inl ⟨by rw [hp, List.append_nil], he.symm, hq.symm⟩
    | cons x m =>
      obtain ⟨rfl, hq⟩ := List.cons.inj hm
      exact Or.inr (Or.inr ⟨m, hp, hq⟩)

/-- An event of a run that ends with `e`: it is `e`, or comes before it. -/
theorem snoc_eq_append_cons {es pre post : List ε} {e f : ε} (h : es ++ [e] = pre ++ f :: post) :
    (es = pre ∧ e = f ∧ post = []) ∨ ∃ rest, post = rest ++ [e] ∧ es = pre ++ f :: rest := by
  rcases List.eq_nil_or_concat post with rfl | ⟨rest, g, rfl⟩
  · obtain ⟨hpre, he⟩ := List.append_inj' h rfl
    exact Or.inl ⟨hpre, List.singleton_inj.mp he, rfl⟩
  · rw [List.concat_eq_append] at h ⊢
    rw [← List.cons_append, ← List.append_assoc] at h
    obtain ⟨hrest, he⟩ := List.append_inj' h rfl
    obtain rfl := List.singleton_inj.mp he
    exact Or.inr ⟨rest, rfl, hrest⟩

/-- What holds of all events since `f` holds still, if the run goes on with such an event;
or `f` is the last one. -/
theorem since_snoc {P : ε → Prop} {es : List ε} {e f : ε} :
    (∃ pre post, es ++ [e] = pre ++ f :: post ∧ ∀ x ∈ post, P x) ↔
      e = f ∨ (∃ pre post, es = pre ++ f :: post ∧ ∀ x ∈ post, P x) ∧ P e := by
  constructor
  · rintro ⟨pre, post, hsplit, hpost⟩
    rcases snoc_eq_append_cons hsplit with ⟨-, he, -⟩ | ⟨rest, rfl, hes⟩
    · exact Or.inl he
    · exact Or.inr ⟨⟨pre, rest, hes, fun x hx => hpost x (List.mem_append_left _ hx)⟩, hpost e (by simp)⟩
  · rintro (rfl | ⟨⟨pre, rest, rfl, hrest⟩, he⟩)
    · exact ⟨es, [], rfl, by simp⟩
    · refine ⟨pre, rest ++ [e], by simp, fun x hx => ?_⟩
      rcases List.mem_append.mp hx with hx | hx
      · exact hrest x hx
      · rw [List.mem_singleton.mp hx]
        exact he

/-- Every event is allowed after the events that precede it. -/
def Admits (ok : List ε → ε → Prop) (es : List ε) : Prop :=
  ∀ pre e post, es = pre ++ e :: post → ok pre e

theorem Admits.of_append {ok : List ε → ε → Prop} {es fs : List ε} (h : Admits ok (es ++ fs)) : Admits ok es := by
  intro pre e post he
  exact h pre e (post ++ fs) (by simp [he])

theorem Admits.last {ok : List ε → ε → Prop} {es : List ε} {e : ε} (h : Admits ok (es ++ [e])) : ok es e :=
  h es e [] rfl

theorem Admits.snoc {ok : List ε → ε → Prop} {es : List ε} {e : ε} (h : Admits ok es) (he : ok es e) :
    Admits ok (es ++ [e]) := by
  intro pre f post hsplit
  rcases snoc_eq_append_cons hsplit with ⟨rfl, rfl, -⟩ | ⟨rest, -, hes⟩
  · exact he
  · exact h pre f rest hes

theorem admits_snoc {ok : List ε → ε → Prop} {es : List ε} {e : ε} :
    Admits ok (es ++ [e]) ↔ Admits ok es ∧ ok es e :=
  ⟨fun h => ⟨h.of_append, h.last⟩, fun h => h.1.snoc h.2⟩

theorem admits_nil {ok : List ε → ε → Prop} : Admits ok [] := by
  intro pre e post he
  simp at he

/-- Two guards that agree after every run the first allows, allow the same runs. -/
theorem admits_congr {ok ok' : List ε → ε → Prop} (h : ∀ es e, Admits ok es → (ok es e ↔ ok' es e)) (es : List ε) :
    Admits ok es ↔ Admits ok' es := by
  induction es using List.reverseRecOn with
  | nil => exact ⟨fun _ => admits_nil, fun _ => admits_nil⟩
  | append_singleton es e ih =>
    rw [admits_snoc, admits_snoc, ← ih]
    exact and_congr_right fun hes => h es e hes

theorem admits_cons {ok : List ε → ε → Prop} {e : ε} {es : List ε} :
    Admits ok (e :: es) ↔ ok [] e ∧ Admits (fun pre => ok (e :: pre)) es := by
  constructor
  · intro h
    exact ⟨h [] e es rfl, fun pre f post he => h (e :: pre) f post (by simp [he])⟩
  · rintro ⟨hfirst, hrest⟩ pre f post he
    cases pre with
    | nil =>
      obtain ⟨rfl, rfl⟩ := List.cons.inj he
      exact hfirst
    | cons g pre =>
      obtain ⟨rfl, htail⟩ := List.cons.inj he
      exact hrest pre f post htail

/-- What the start has and every allowed step keeps, the whole run has. The
invariant may speak of the events so far. -/
theorem history_invariant {step : σ → ε → σ} {s : σ} {ok : List ε → ε → Prop} {I : List ε → σ → Prop}
    (start : I [] s)
    (keep : ∀ es e, ok es e → I es (run step s es) → I (es ++ [e]) (step (run step s es) e))
    (es : List ε) (h : Admits ok es) : I es (run step s es) := by
  induction es using List.reverseRecOn with
  | nil => exact start
  | append_singleton es e ih =>
    rw [run_snoc]
    exact keep es e h.last (ih h.of_append)

/-- The rule for an invariant of the state alone. -/
theorem invariant {step : σ → ε → σ} {s : σ} {I : σ → Prop} (start : I s) (keep : ∀ s e, I s → I (step s e))
    (es : List ε) : I (run step s es) := by
  have all : Admits (fun _ _ => True) es := fun _ _ _ _ => trivial
  exact history_invariant (I := fun _ s => I s) start (fun _ _ _ h => keep _ _ h) es all

/-- Two runs of one system, the second without the events not kept: what relates
them at the start and survives kept events on both sides and other events on the
first, relates them at the end. -/
theorem erasure {step : σ → ε → σ} {s : σ} {keep : ε → Bool} {ok : List ε → ε → Prop}
    {R : List ε → σ → σ → Prop} (start : R [] s s)
    (kept : ∀ es e t, ok es e → keep e → R es (run step s es) t → R (es ++ [e]) (step (run step s es) e) (step t e))
    (erased : ∀ es e t, ok es e → ¬ keep e → R es (run step s es) t → R (es ++ [e]) (step (run step s es) e) t)
    (es : List ε) (h : Admits ok es) : R es (run step s es) (run step s (es.filter keep)) := by
  induction es using List.reverseRecOn with
  | nil => exact start
  | append_singleton es e ih =>
    have hrel := ih h.of_append
    rw [run_snoc, List.filter_append]
    by_cases he : keep e
    · rw [List.filter_cons_of_pos he, List.filter_nil, run_snoc]
      exact kept es e _ h.last he hrel
    · rw [List.filter_cons_of_neg he, List.filter_nil, List.append_nil]
      exact erased es e _ h.last he hrel

/-- An event that commutes with all of some others may go first. -/
theorem run_commute {step : σ → ε → σ} {x : ε} {es : List ε}
    (comm : ∀ s, ∀ y ∈ es, step (step s y) x = step (step s x) y) (s : σ) :
    step (run step s es) x = run step (step s x) es := by
  induction es using List.reverseRecOn with
  | nil => rfl
  | append_singleton es e ih =>
    rw [run_snoc, run_snoc, comm _ e (by simp), ih fun s y hy => comm s y (List.mem_append_left _ hy)]

/-- Where the events of one kind commute with all others they may all go first. -/
theorem run_by_kind {step : σ → ε → σ} {p : ε → Bool}
    (comm : ∀ s x y, p x → ¬ p y → step (step s y) x = step (step s x) y) (s : σ) (es : List ε) :
    run step s es = run step (run step s (es.filter p)) (es.filter fun e => ¬ p e) := by
  induction es using List.reverseRecOn with
  | nil => rfl
  | append_singleton es e ih =>
    rw [run_snoc, ih, List.filter_append, List.filter_append]
    by_cases he : p e
    · rw [List.filter_cons_of_pos he, List.filter_nil, List.filter_cons_of_neg (by simp [he]), List.filter_nil,
        List.append_nil, run_snoc]
      refine run_commute (fun s y hy => ?_) _
      exact comm s e y he (by simpa using (List.mem_filter.mp hy).2)
    · rw [List.filter_cons_of_neg he, List.filter_nil, List.filter_cons_of_pos (by simp [he]), List.filter_nil,
        List.append_nil, run_snoc]

end PiAudioNode.Lib
