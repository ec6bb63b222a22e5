import PiAudioNode.Lib.Run

/-! Steps that report what they did, and runs that keep the whole report. -/
namespace PiAudioNode.Lib
variable {σ ε ω : Type*}

/-- Continue with the state of the first part, append to its report. -/
def andThen (x : σ × List ω) (f : σ → σ × List ω) : σ × List ω := ((f x.1).1, x.2 ++ (f x.1).2)

@[simp] theorem andThen_fst (x : σ × List ω) (f : σ → σ × List ω) : (andThen x f).1 = (f x.1).1 := rfl

@[simp] theorem andThen_snd (x : σ × List ω) (f : σ → σ × List ω) : (andThen x f).2 = x.2 ++ (f x.1).2 := rfl

@[simp] theorem andThen_nil (s : σ) (f : σ → σ × List ω) : andThen (s, []) f = f s := by
  simp [andThen]

/-- One more event of a run that keeps its report. -/
def report (step : σ → ε → σ × List ω) (x : σ × List ω) (e : ε) : σ × List ω := andThen x (step · e)

def runReport (step : σ → ε → σ × List ω) (s : σ) (es : List ε) : σ × List ω := run (report step) (s, []) es

@[simp] theorem runReport_nil (step : σ → ε → σ × List ω) (s : σ) : runReport step s [] = (s, []) := rfl

@[simp] theorem runReport_snoc (step : σ → ε → σ × List ω) (s : σ) (es : List ε) (e : ε) :
    runReport step s (es ++ [e]) = andThen (runReport step s es) (step · e) := run_snoc ..

/-- A property of a report and the state it leads to, kept by one operation. -/
def Keeps (I : List ω → σ → Prop) (f : σ → σ × List ω) : Prop := ∀ outs s, I outs s → I (outs ++ (f s).2) (f s).1

theorem Keeps.andThen {I : List ω → σ → Prop} {f g : σ → σ × List ω} (hf : Keeps I f) (hg : Keeps I g) :
    Keeps I fun s => Lib.andThen (f s) g := by
  intro outs s h
  have := hg _ _ (hf outs s h)
  rwa [List.append_assoc] at this

/-- Kept by every step, kept by every run. -/
theorem runReport_invariant {step : σ → ε → σ × List ω} {s : σ} {I : List ω → σ → Prop} (start : I [] s)
    (keep : ∀ e, Keeps I (step · e)) (es : List ε) : I (runReport step s es).2 (runReport step s es).1 := by
  refine invariant (I := fun x : σ × List ω => I x.2 x.1) start ?_ es
  intro x e h
  exact keep e x.2 x.1 h

/-- Kept by every allowed step, kept by every run of allowed steps. -/
theorem runReport_history {step : σ → ε → σ × List ω} {s : σ} {ok : List ε → ε → Prop} {I : List ω → σ → Prop}
    (start : I [] s)
    (keep : ∀ es e, ok es e → I (runReport step s es).2 (runReport step s es).1 →
      I ((runReport step s es).2 ++ (step (runReport step s es).1 e).2) (step (runReport step s es).1 e).1)
    (es : List ε) (h : Admits ok es) : I (runReport step s es).2 (runReport step s es).1 := by
  refine history_invariant (I := fun _ (x : σ × List ω) => I x.2 x.1) start ?_ es h
  intro es e hok hkept
  exact keep es e hok hkept

end PiAudioNode.Lib
