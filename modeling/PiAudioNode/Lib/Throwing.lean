import Mathlib

/-! Computations over a state that may stop with an error. What they changed
before the error stays changed. -/
namespace PiAudioNode.Lib

abbrev Act (ε σ : Type) := ExceptT ε (StateM σ)

variable {ε σ α β γ : Type}

theorem bind_eq_ok {x : Except ε α} {f : α → Except ε β} {b : β} :
    (x >>= f) = .ok b ↔ ∃ a, x = .ok a ∧ f a = .ok b := by
  cases x with
  | error e =>
    constructor
    · intro h
      cases h
    · rintro ⟨_, h, _⟩
      cases h
  | ok a =>
    constructor
    · intro h
      exact ⟨a, rfl, h⟩
    · rintro ⟨c, hc, h⟩
      obtain rfl := Except.ok.inj hc
      exact h

theorem bind_eq_error {x : Except ε α} {f : α → Except ε β} {e : ε} :
    (x >>= f) = .error e ↔ x = .error e ∨ ∃ a, x = .ok a ∧ f a = .error e := by
  cases x with
  | error e' =>
    constructor
    · intro h
      obtain rfl : e' = e := Except.error.inj h
      exact Or.inl rfl
    · rintro (h | ⟨_, h, _⟩)
      · obtain rfl := Except.error.inj h
        rfl
      · cases h
  | ok a =>
    constructor
    · intro h
      exact Or.inr ⟨a, rfl, h⟩
    · rintro (h | ⟨b, hb, h⟩)
      · cases h
      · obtain rfl := Except.ok.inj hb
        exact h

namespace Act

/-- The result or the error, and the state it left. -/
def exec (x : Act ε σ α) (s : σ) : Except ε α × σ := (ExceptT.run x).run s

/-- A read that may fail and changes nothing. -/
def attempt (x : Except ε α) : Act ε σ α := fun s => (x, s)

/-- A change that may stop half way. -/
def ofUpdate (f : σ → Except ε α × σ) : Act ε σ α := f

@[simp] theorem exec_pure (a : α) (s : σ) : (pure a : Act ε σ α).exec s = (.ok a, s) := rfl

@[simp] theorem exec_throw (e : ε) (s : σ) : (throw e : Act ε σ α).exec s = (.error e, s) := rfl

@[simp] theorem exec_get (s : σ) : (get : Act ε σ σ).exec s = (.ok s, s) := rfl

@[simp] theorem exec_modify (f : σ → σ) (s : σ) : (modify f : Act ε σ PUnit).exec s = (.ok ⟨⟩, f s) := rfl

@[simp] theorem exec_attempt (x : Except ε α) (s : σ) : (attempt x : Act ε σ α).exec s = (x, s) := rfl

@[simp] theorem exec_ofUpdate (f : σ → Except ε α × σ) (s : σ) : (ofUpdate f).exec s = f s := rfl

theorem exec_bind (x : Act ε σ α) (f : α → Act ε σ β) (s : σ) : (x >>= f).exec s = match x.exec s with
    | (.ok a, s') => (f a).exec s'
    | (.error e, s') => (.error e, s') := by
  have hrun : (x >>= f).exec s = (ExceptT.bindCont f (x.exec s).1 : StateM σ (Except ε β)) (x.exec s).2 := rfl
  rw [hrun]
  rcases x.exec s with ⟨e | a, s'⟩ <;> rfl

theorem exec_bind_ok {x : Act ε σ α} {f : α → Act ε σ β} {s s' : σ} {a : α} (h : x.exec s = (.ok a, s')) :
    (x >>= f).exec s = (f a).exec s' := by
  rw [exec_bind, h]

theorem exec_bind_error {x : Act ε σ α} {f : α → Act ε σ β} {s s' : σ} {e : ε} (h : x.exec s = (.error e, s')) :
    (x >>= f).exec s = (.error e, s') := by
  rw [exec_bind, h]

/-- Whatever way it ends, the computation leaves a state that `R` relates to the one it began in. -/
def Frames (R : σ → σ → Prop) (x : Act ε σ α) : Prop := ∀ s, R s (x.exec s).2

section
variable {R : σ → σ → Prop}

theorem Frames.pure [Std.Refl R] (a : α) : Frames R (Pure.pure a : Act ε σ α) := fun s => Std.Refl.refl s

theorem Frames.throw [Std.Refl R] (e : ε) : Frames R (MonadExcept.throw e : Act ε σ α) := fun s => Std.Refl.refl s

theorem Frames.get [Std.Refl R] : Frames R (MonadState.get : Act ε σ σ) := fun s => Std.Refl.refl s

theorem Frames.attempt [Std.Refl R] (x : Except ε α) : Frames R (Act.attempt x : Act ε σ α) :=
  fun s => Std.Refl.refl s

theorem Frames.update {f : σ → σ} (h : ∀ s, R s (f s)) : Frames R (modify f : Act ε σ PUnit) := h

theorem Frames.ofUpdate {f : σ → Except ε α × σ} (h : ∀ s, R s (f s).2) : Frames R (Act.ofUpdate f) := h

theorem Frames.bind [IsTrans σ R] {x : Act ε σ α} {f : α → Act ε σ β} (hx : Frames R x)
    (hf : ∀ a, Frames R (f a)) : Frames R (x >>= f) := by
  intro s
  have hfirst := hx s
  rw [exec_bind]
  rcases hrun : x.exec s with ⟨r | a, s'⟩
  · rw [hrun] at hfirst
    exact hfirst
  · rw [hrun] at hfirst
    exact IsTrans.trans _ _ _ hfirst (hf a s')

theorem Frames.forM [Std.Refl R] [IsTrans σ R] {f : β → Act ε σ PUnit} (h : ∀ b, Frames R (f b)) :
    ∀ bs : List β, Frames R (bs.forM f)
  | [] => Frames.pure PUnit.unit
  | b :: bs => (h b).bind fun _ => Frames.forM h bs

/-- What a computation that keeps an invariant relates: the invariant carries over. -/
def Carries (I : σ → Prop) (s s' : σ) : Prop := I s → I s'

instance (I : σ → Prop) : Std.Refl (Carries I) := ⟨fun _ h => h⟩

instance (I : σ → Prop) : IsTrans σ (Carries I) := ⟨fun _ _ _ h h' hs => h' (h hs)⟩

end

end Act

end PiAudioNode.Lib
