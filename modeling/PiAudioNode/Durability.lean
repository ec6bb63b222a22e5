import PiAudioNode.Config
import PiAudioNode.Lib.Landing
import PiAudioNode.Lib.Output

/-! Calls to the configuration from several threads: the mutation and the save are
locked each for itself, and other threads may come in between. -/
namespace PiAudioNode
open Lib Lib.Json

inductive ConfigCall where
  | setValue (sPath : String) (value : Json)
  | update (jsUpdates : Json)
  | save

/-- What a call writes to the document. -/
def ConfigCall.items : ConfigCall → List (String × Json)
  | .setValue sPath value => [(sPath, value)]
  | .update jsUpdates => jsUpdates.items
  | .save => []

abbrev Thread := Nat

/-- A call before its mutation, or between the mutation and the save. -/
inductive Phase where
  | called (call : ConfigCall)
  | mutated (call : ConfigCall)

structure SharedConfig where
  config : Config
  calls : Thread → Option Phase := fun _ => none

inductive ConfigStep where
  | enter (t : Thread) (call : ConfigCall)
  | mutate (t : Thread)
  | save (t : Thread)

/-- `replaced` is the place of the first value that a write replaces, `wrote` where it put its own. -/
inductive ConfigOutcome where
  | replaced (place : Place)
  | wrote (t : Thread) (sPath : String) (place : Place) (value : Json)
  | returned (t : Thread) (call : ConfigCall)
  | threw (t : Thread)

/-- What one write does to the document, and where. -/
def writeOutcomes (t : Thread) (sPath : String) (value : Json) (c : Config) : List ConfigOutcome :=
  match Config.pointer sPath with
  | .ok tokens =>
    ((Json.replaced tokens c.json).toList.map .replaced) ++
      match (assign value tokens c.json).1 with
      | .ok () => [.wrote t sPath (landing tokens c.json) value]
      | .error _ => []
  | .error _ => []

/-- The writes of a call up to the first that throws. -/
def mutation (t : Thread) : List (String × Json) → Config → List ConfigOutcome
  | [], _ => []
  | (sPath, value) :: rest, c =>
    writeOutcomes t sPath value c ++
      match c.write sPath value with
      | (.ok (), c) => mutation t rest c
      | (.error _, _) => []

namespace SharedConfig

def setCall (s : SharedConfig) (t : Thread) (phase : Option Phase) : SharedConfig :=
  { s with calls := Function.update s.calls t phase }

@[simp] theorem setCall_self (s : SharedConfig) (t : Thread) (phase : Option Phase) :
    (s.setCall t phase).calls t = phase := Function.update_self ..

theorem setCall_ne (s : SharedConfig) {t t' : Thread} (phase : Option Phase) (h : t' ≠ t) :
    (s.setCall t phase).calls t' = s.calls t' := Function.update_of_ne h ..

/-- The locked mutation: an exception ends the call, and nothing is saved. -/
def mutate (s : SharedConfig) (t : Thread) (call : ConfigCall) : SharedConfig × List ConfigOutcome :=
  match Config.writeAll call.items s.config with
  | (.ok (), c) => ({ s with config := c }.setCall t (some (.mutated call)), mutation t call.items s.config)
  | (.error _, c) => ({ s with config := c }.setCall t none, mutation t call.items s.config ++ [.threw t])

/-- The locked save, with which the call returns. -/
def save (s : SharedConfig) (t : Thread) (call : ConfigCall) : SharedConfig × List ConfigOutcome :=
  ({ s with config := s.config.save }.setCall t none, [.returned t call])

def step (s : SharedConfig) : ConfigStep → SharedConfig × List ConfigOutcome
  | .enter t call =>
    match s.calls t with
    | none => (s.setCall t (some (.called call)), [])
    | some _ => (s, [])
  | .mutate t =>
    match s.calls t with
    | some (.called call) => s.mutate t call
    | _ => (s, [])
  | .save t =>
    match s.calls t with
    | some (.mutated call) => s.save t call
    | _ => (s, [])

end SharedConfig

/-- The threads on a configuration, in any order of their steps. -/
def runThreads (c : Config) (es : List ConfigStep) : SharedConfig × List ConfigOutcome :=
  runReport SharedConfig.step { config := c } es

/-- The places of the values replaced in some part of a run. -/
def replacedPlaces (outs : List ConfigOutcome) : List Place :=
  outs.filterMap fun o => match o with
    | .replaced place => some place
    | _ => none

/-- A written value is in a document, each part of it that was not replaced since. -/
def Contains (js : Json) (place : Place) (value : Json) (since : List ConfigOutcome) : Prop :=
  ∀ part w, follow part value = some w → (∀ q ∈ replacedPlaces since, Beside (place ++ part) q) →
    follow (place ++ part) js = some w

/-- A path without a dash finds in a document what is at a place. -/
def Finds (sPath : String) (place : Place) : Prop :=
  ∀ tokens, Config.pointer sPath = .ok tokens → "-" ∉ tokens →
    ∀ js w, follow place js = some w → resolve tokens js = some w

/-- A call of the thread is over. -/
def ConfigOutcome.Ends (t : Thread) : ConfigOutcome → Prop
  | .returned t' _ => t' = t
  | .threw t' => t' = t
  | .replaced _ | .wrote .. => False

/-- Once a call has returned, each value it wrote is in the file, except for parts that
were replaced since its write, and its path leads there. -/
def Durable (s : SharedConfig) (outs : List ConfigOutcome) : Prop :=
  ∀ before t call after, outs = before ++ .returned t call :: after → ∀ x ∈ call.items, ∃ pre place since,
    before = pre ++ .wrote t x.1 place x.2 :: since ∧ (∀ o ∈ since, ¬ o.Ends t) ∧ Finds x.1 place ∧
      ∃ js, s.config.file = some js ∧ Contains js place x.2 (since ++ .returned t call :: after)

/-- No call is in progress, one has returned, and none has thrown. -/
def Quiet (s : SharedConfig) (outs : List ConfigOutcome) : Prop :=
  (∀ t, s.calls t = none) ∧ (∃ t call, .returned t call ∈ outs) ∧ ∀ t, .threw t ∉ outs

/-- The values that a step brings in are JSON values as a map keeps them. -/
def ConfigStep.Valid : ConfigStep → Prop
  | .enter _ call => ∀ x ∈ call.items, Ordered x.2
  | .mutate _ | .save _ => True

/-- The call in progress has written a value. -/
def Written (t : Thread) (x : String × Json) (outs : List ConfigOutcome) : Prop :=
  ∃ pre place since, outs = pre ++ .wrote t x.1 place x.2 :: since ∧ ∀ o ∈ since, ¬ o.Ends t

/-- All that was written so far is in a document. -/
def Held (js : Json) (outs : List ConfigOutcome) : Prop :=
  ∀ pre t sPath place value since, outs = pre ++ .wrote t sPath place value :: since → Contains js place value since

section Snoc
variable {js js' : Json} {outs : List ConfigOutcome} {o : ConfigOutcome} {place : Place} {value : Json}

theorem replacedPlaces_append (xs ys : List ConfigOutcome) :
    replacedPlaces (xs ++ ys) = replacedPlaces xs ++ replacedPlaces ys := List.filterMap_append

theorem Contains.mono (h : Contains js place value outs) (more : List ConfigOutcome) :
    Contains js place value (outs ++ more) := by
  intro part w hpart hbeside
  rw [replacedPlaces_append] at hbeside
  exact h part w hpart fun q hq => hbeside q (List.mem_append_left _ hq)

theorem Written.later {t : Thread} {x : String × Json} (h : Written t x outs) {more : List ConfigOutcome}
    (hmore : ∀ o ∈ more, ¬ o.Ends t) : Written t x (outs ++ more) := by
  obtain ⟨pre, place, since, rfl, hsince⟩ := h
  refine ⟨pre, place, since ++ more, by simp, fun o ho => ?_⟩
  rcases List.mem_append.mp ho with ho | ho
  · exact hsince o ho
  · exact hmore o ho

/-- A document in which only one value was replaced holds the rest. -/
theorem Held.replaced {q : Place} (h : Held js outs)
    (hkeep : ∀ p w, follow p js = some w → Beside p q → follow p js' = some w) : Held js' (outs ++ [.replaced q]) := by
  intro pre t sPath place value since hsplit
  rcases snoc_eq_append_cons hsplit with ⟨-, hx, -⟩ | ⟨rest, rfl, hinit⟩
  · cases hx
  · intro part w hpart hbeside
    rw [replacedPlaces_append] at hbeside
    exact hkeep _ _ (h _ _ _ _ _ _ hinit part w hpart fun q hq => hbeside q (List.mem_append_left _ hq))
      (hbeside q (List.mem_append_right _ (List.mem_singleton_self q)))

theorem Held.wrote (h : Held js outs) (t : Thread) (sPath : String) (hplace : follow place js = some value) :
    Held js (outs ++ [.wrote t sPath place value]) := by
  intro pre t' sPath' place' value' since hsplit
  rcases snoc_eq_append_cons hsplit with ⟨-, hx, rfl⟩ | ⟨rest, rfl, hinit⟩
  · obtain ⟨-, -, rfl, rfl⟩ := ConfigOutcome.wrote.inj hx
    intro part w hpart _
    rw [follow_append, hplace]
    exact hpart
  · exact (h _ _ _ _ _ _ hinit).mono _

theorem Held.ended (h : Held js outs) (ho : ∀ t sPath place value, o ≠ .wrote t sPath place value) :
    Held js (outs ++ [o]) := by
  intro pre t sPath place value since hsplit
  rcases snoc_eq_append_cons hsplit with ⟨-, hx, -⟩ | ⟨rest, rfl, hinit⟩
  · exact absurd hx (ho _ _ _ _)
  · exact (h _ _ _ _ _ _ hinit).mono _

end Snoc

section Mutation
variable {outs : List ConfigOutcome} {t : Thread} {c : Config}

/-- A write replaces and writes, and neither returns nor throws. -/
theorem mem_writeOutcomes {sPath : String} {value : Json} {o : ConfigOutcome}
    (h : o ∈ writeOutcomes t sPath value c) :
    (∃ q, o = .replaced q) ∨ ∃ place, o = .wrote t sPath place value ∧ Finds sPath place := by
  unfold writeOutcomes at h
  cases hpointer : Config.pointer sPath with
  | error e =>
    rw [hpointer] at h
    cases h
  | ok tokens =>
    rw [hpointer] at h
    rcases List.mem_append.mp h with h | h
    · obtain ⟨q, -, rfl⟩ := List.mem_map.mp h
      exact Or.inl ⟨q, rfl⟩
    · cases hassign : (assign value tokens c.json).1 with
      | error e =>
        rw [hassign] at h
        cases h
      | ok u =>
        rw [hassign] at h
        obtain rfl := List.mem_singleton.mp h
        refine Or.inr ⟨_, rfl, fun tokens' htokens hdash js w hfollow => ?_⟩
        obtain rfl := Except.ok.inj (hpointer.symm.trans htokens)
        exact resolve_landing hdash hassign hfollow

theorem mem_mutation {items : List (String × Json)} {o : ConfigOutcome} (h : o ∈ mutation t items c) :
    (∃ q, o = .replaced q) ∨ ∃ sPath place value, o = .wrote t sPath place value ∧ Finds sPath place := by
  induction items generalizing c with
  | nil => cases h
  | cons item items ih =>
    rcases List.mem_append.mp h with h | h
    · rcases mem_writeOutcomes h with hreplaced | ⟨place, ho, hfinds⟩
      · exact Or.inl hreplaced
      · exact Or.inr ⟨_, place, _, ho, hfinds⟩
    · split at h
      · exact ih h
      · cases h

theorem not_ends_mutation {items : List (String × Json)} (t' : Thread) :
    ∀ o ∈ mutation t items c, ¬ o.Ends t' := by
  intro o ho
  rcases mem_mutation ho with ⟨q, rfl⟩ | ⟨_, _, _, rfl, -⟩ <;> exact id

/-- A mutation without an exception writes all of its values. -/
theorem written_mutation {items : List (String × Json)} (hok : (Config.writeAll items c).1 = .ok ())
    {x : String × Json} (hx : x ∈ items) : Written t x (mutation t items c) := by
  induction items generalizing c with
  | nil => cases hx
  | cons item items ih =>
    obtain ⟨sPath, value⟩ := item
    simp only [Config.writeAll] at hok
    simp only [PiAudioNode.mutation]
    rcases hwrite : c.write sPath value with ⟨e | ⟨⟩, c'⟩
    · rw [hwrite] at hok
      cases hok
    · rw [hwrite] at hok
      rcases List.mem_cons.mp hx with rfl | hx
      · -- the first value is written before the others
        unfold Config.write at hwrite
        unfold writeOutcomes
        cases hpointer : Config.pointer sPath with
        | error e =>
          rw [hpointer] at hwrite
          cases hwrite
        | ok tokens =>
          rw [hpointer] at hwrite
          have hassign : (assign value tokens c.json).1 = .ok () := congrArg Prod.fst hwrite
          simp only [hassign]
          exact ⟨(Json.replaced tokens c.json).toList.map .replaced, landing tokens c.json, mutation t items c',
            by simp, not_ends_mutation t⟩
      · obtain ⟨pre, place, since, hsplit, hsince⟩ := ih hok hx
        exact ⟨writeOutcomes t sPath value c ++ pre, place, since, by simp [hsplit], hsince⟩

theorem ordered_write (sPath : String) {value : Json} (hvalue : Ordered value) (hc : Ordered c.json) :
    Ordered (c.write sPath value).2.json := by
  unfold Config.write
  split
  · exact ordered_assign hvalue hc
  · exact hc

theorem file_write (sPath : String) (value : Json) : (c.write sPath value).2.file = c.file := by
  unfold Config.write
  split <;> rfl

/-- The document holds what is written, and what was written beside it. -/
theorem Held.write (h : Held c.json outs) (hc : Ordered c.json) (t : Thread) (sPath : String) (value : Json) :
    Held (c.write sPath value).2.json (outs ++ writeOutcomes t sPath value c) := by
  unfold Config.write writeOutcomes
  cases hpointer : Config.pointer sPath with
  | error e => simpa using h
  | ok tokens =>
    have hreplaced : Held (assign value tokens c.json).2
        (outs ++ (Json.replaced tokens c.json).toList.map .replaced) := by
      cases hplace : Json.replaced tokens c.json with
      | none => simpa [assign_unreplaced hc hplace] using h
      | some q => exact h.replaced fun p w hp hbeside => follow_assign hp hplace hbeside
    simp only
    rw [← List.append_assoc]
    cases hassign : (assign value tokens c.json).1 with
    | error e => simpa using hreplaced
    | ok u => exact hreplaced.wrote t sPath (follow_landing hassign)

theorem Held.mutation {items : List (String × Json)} (h : Held c.json outs) (hc : Ordered c.json)
    (hitems : ∀ x ∈ items, Ordered x.2) (t : Thread) :
    Held (Config.writeAll items c).2.json (outs ++ mutation t items c) := by
  induction items generalizing c outs with
  | nil => simpa [Config.writeAll, PiAudioNode.mutation] using h
  | cons item items ih =>
    obtain ⟨sPath, value⟩ := item
    have hfirst := h.write hc t sPath value
    have hordered := ordered_write sPath (hitems _ List.mem_cons_self) hc
    simp only [Config.writeAll, PiAudioNode.mutation]
    generalize c.write sPath value = w at hfirst hordered ⊢
    obtain ⟨e | ⟨⟩, c'⟩ := w
    · simpa using hfirst
    · rw [← List.append_assoc]
      exact ih hfirst hordered fun x hx => hitems x (List.mem_cons_of_mem _ hx)

theorem ordered_writeAll {items : List (String × Json)} (hc : Ordered c.json) (hitems : ∀ x ∈ items, Ordered x.2) :
    Ordered (Config.writeAll items c).2.json ∧ (Config.writeAll items c).2.file = c.file := by
  induction items generalizing c with
  | nil => exact ⟨hc, rfl⟩
  | cons item items ih =>
    obtain ⟨sPath, value⟩ := item
    have hordered := ordered_write sPath (hitems _ List.mem_cons_self) hc
    have hfile := file_write (c := c) sPath value
    simp only [Config.writeAll]
    generalize c.write sPath value = w at hordered hfile ⊢
    obtain ⟨e | ⟨⟩, c'⟩ := w
    · exact ⟨hordered, hfile⟩
    · obtain ⟨hrest, hsame⟩ := ih hordered fun x hx => hitems x (List.mem_cons_of_mem _ hx)
      exact ⟨hrest, hsame.trans hfile⟩

end Mutation

section Runs
variable {s s' : SharedConfig} {outs : List ConfigOutcome} {t : Thread}

/-- What was written before a return is in the file. -/
def Filed (s : SharedConfig) (outs : List ConfigOutcome) : Prop :=
  ∀ pre t sPath place value since, outs = pre ++ .wrote t sPath place value :: since →
    (∃ t call, .returned t call ∈ since) → ∃ js, s.config.file = some js ∧ Contains js place value since

/-- The file stays as it is until a call returns. -/
theorem Filed.later (h : Filed s outs) (hfile : s'.config.file = s.config.file) {more : List ConfigOutcome}
    (hmore : ∀ t call, .returned t call ∉ more) : Filed s' (outs ++ more) := by
  induction more using List.reverseRecOn with
  | nil =>
    rw [List.append_nil]
    intro pre t sPath place value since hsplit hreturned
    rw [hfile]
    exact h pre t sPath place value since hsplit hreturned
  | append_singleton more o ih =>
    rw [← List.append_assoc]
    intro pre t sPath place value since hsplit hreturned
    obtain ⟨t', call, hreturned⟩ := hreturned
    rcases snoc_eq_append_cons hsplit with ⟨-, -, rfl⟩ | ⟨rest, rfl, hinit⟩
    · cases hreturned
    · have hbefore : .returned t' call ∈ rest := by
        rcases List.mem_append.mp hreturned with hrest | hlast
        · exact hrest
        · exact absurd (List.mem_append_right _ hlast) (hmore t' call)
      obtain ⟨js, hjs, hcontains⟩ := ih (fun t call ht => hmore t call (List.mem_append_left _ ht)) pre t sPath place
        value rest hinit ⟨t', call, hbefore⟩
      exact ⟨js, hjs, hcontains.mono _⟩

/-- A call that returns has written all of its values. -/
def ReturnsWritten (before : List ConfigOutcome) : ConfigOutcome → Prop
  | .returned t call => ∀ x ∈ call.items, Written t x before
  | _ => True

/-- What every step keeps: the document holds all that was written, the file what was
written before a return, and a file that lags behind has its save to come. -/
structure Kept (s : SharedConfig) (outs : List ConfigOutcome) : Prop where
  ordered : Ordered s.config.json
  called : ∀ t call, s.calls t = some (.called call) → ∀ x ∈ call.items, Ordered x.2
  mutated : ∀ t call, s.calls t = some (.mutated call) → ∀ x ∈ call.items, Written t x outs
  returned : Admits ReturnsWritten outs
  held : Held s.config.json outs
  finds : ∀ t sPath place value, .wrote t sPath place value ∈ outs → Finds sPath place
  filed : Filed s outs
  saved : (∀ t, .threw t ∉ outs) →
    s.config.file = some s.config.json ∨ (∃ t call, s.calls t = some (.mutated call)) ∨
      ∀ t call, .returned t call ∉ outs

/-- After the phase of one call has changed, a phase is that one or an older one. -/
theorem setCall_cases {phase : Option Phase} {t' : Thread} {phase' : Option Phase}
    (h : (s.setCall t phase).calls t' = phase') : t' = t ∧ phase = phase' ∨ t' ≠ t ∧ s.calls t' = phase' := by
  by_cases ht : t' = t
  · subst ht
    rw [SharedConfig.setCall_self] at h
    exact Or.inl ⟨rfl, h⟩
  · rw [SharedConfig.setCall_ne s phase ht] at h
    exact Or.inr ⟨ht, h⟩

theorem Kept.called_setCall (h : Kept s outs) {phase : Option Phase} (hphase : ∀ call, phase ≠ some (.called call))
    {t' : Thread} {call' : ConfigCall} (hcalled : (s.setCall t phase).calls t' = some (.called call')) :
    ∀ x ∈ call'.items, Ordered x.2 := by
  rcases setCall_cases hcalled with ⟨-, hsame⟩ | ⟨-, hother⟩
  · exact absurd hsame (hphase call')
  · exact h.called t' call' hother

/-- The calls of other threads have not ended with this one. -/
theorem Kept.mutated_setCall (h : Kept s outs) {phase : Option Phase} (hphase : ∀ call, phase ≠ some (.mutated call))
    {more : List ConfigOutcome} (hmore : ∀ t', t' ≠ t → ∀ o ∈ more, ¬ o.Ends t') {t' : Thread} {call' : ConfigCall}
    (hmutated : (s.setCall t phase).calls t' = some (.mutated call')) :
    ∀ x ∈ call'.items, Written t' x (outs ++ more) := by
  rcases setCall_cases hmutated with ⟨-, hsame⟩ | ⟨hne, hother⟩
  · exact absurd hsame (hphase call')
  · exact fun x hx => (h.mutated t' call' hother x hx).later (hmore t' hne)

theorem Kept.enter (h : Kept s outs) {call : ConfigCall} (hidle : s.calls t = none)
    (hcall : ∀ x ∈ call.items, Ordered x.2) : Kept (s.setCall t (some (.called call))) outs where
  ordered := h.ordered
  called t' call' hcalled := by
    rcases setCall_cases hcalled with ⟨-, hsame⟩ | ⟨-, hother⟩
    · obtain rfl := Phase.called.inj (Option.some.inj hsame)
      exact hcall
    · exact h.called t' call' hother
  mutated t' call' hmutated := by
    rcases setCall_cases hmutated with ⟨-, hsame⟩ | ⟨-, hother⟩
    · cases hsame
    · exact h.mutated t' call' hother
  returned := h.returned
  held := h.held
  finds := h.finds
  filed := h.filed
  saved hnone := by
    refine (h.saved hnone).imp_right (Or.imp_left ?_)
    rintro ⟨t', call', ht'⟩
    refine ⟨t', call', ?_⟩
    have hne : t' ≠ t := by
      rintro rfl
      rw [hidle] at ht'
      cases ht'
    rw [SharedConfig.setCall_ne s _ hne]
    exact ht'

theorem admits_mutation (h : Admits ReturnsWritten outs) (t : Thread) (items : List (String × Json)) (c : Config) :
    Admits ReturnsWritten (outs ++ mutation t items c) := by
  have hall : ∀ o ∈ mutation t items c, ∀ before, ReturnsWritten before o := by
    intro o ho before
    rcases mem_mutation ho with ⟨q, rfl⟩ | ⟨_, _, _, rfl, -⟩ <;> trivial
  generalize mutation t items c = more at hall
  induction more using List.reverseRecOn with
  | nil => rwa [List.append_nil]
  | append_singleton more o ih =>
    rw [← List.append_assoc]
    exact (ih fun o ho => hall o (List.mem_append_left _ ho)).snoc (hall o (by simp) _)

theorem finds_mutation (h : Kept s outs) (items : List (String × Json)) :
    ∀ t' sPath place value, .wrote t' sPath place value ∈ outs ++ mutation t items s.config → Finds sPath place := by
  intro t' sPath place value hmem
  rcases List.mem_append.mp hmem with hmem | hmem
  · exact h.finds _ _ _ _ hmem
  · rcases mem_mutation hmem with ⟨q, ho⟩ | ⟨_, _, _, ho, hplace⟩
    · cases ho
    · obtain ⟨-, rfl, rfl, -⟩ := ConfigOutcome.wrote.inj ho
      exact hplace

theorem Kept.mutate (h : Kept s outs) {call : ConfigCall} (hcall : ∀ x ∈ call.items, Ordered x.2) :
    Kept (s.mutate t call).1 (outs ++ (s.mutate t call).2) := by
  have hheld := h.held.mutation h.ordered hcall t
  obtain ⟨hordered, hfile⟩ := ordered_writeAll h.ordered hcall
  have hadmits := admits_mutation h.returned t call.items s.config
  have hfinds := finds_mutation (t := t) h call.items
  have hends : ∀ t', ∀ o ∈ mutation t call.items s.config, ¬ o.Ends t' := not_ends_mutation
  have hreturned : ∀ t' call', .returned t' call' ∉ mutation t call.items s.config :=
    fun t' call' hmem => hends t' _ hmem rfl
  have hwritten (hok : (Config.writeAll call.items s.config).1 = .ok ()) (x : String × Json) (hx : x ∈ call.items) :
      Written t x (mutation t call.items s.config) := written_mutation hok hx
  unfold SharedConfig.mutate
  rcases hwrite : Config.writeAll call.items s.config with ⟨e | ⟨⟩, c⟩
  · -- the exception leaves the writes before it in the document
    rw [hwrite] at hheld hordered hfile
    have hnew : ∀ t' call', .returned t' call' ∉ mutation t call.items s.config ++ [.threw t] := by
      simpa using hreturned
    have hothers : ∀ t', t' ≠ t → ∀ o ∈ mutation t call.items s.config ++ [.threw t], ¬ o.Ends t' := by
      intro t' hne o ho
      rcases List.mem_append.mp ho with ho | ho
      · exact hends t' o ho
      · obtain rfl := List.mem_singleton.mp ho
        exact hne.symm
    refine ⟨hordered, fun _ _ => h.called_setCall (by simp), fun _ _ => h.mutated_setCall (by simp) hothers, ?_, ?_,
      fun t' sPath place value hmem => ?_, h.filed.later hfile hnew, fun hnone => absurd (by simp) (hnone t)⟩
    · rw [← List.append_assoc]
      exact hadmits.snoc trivial
    · rw [← List.append_assoc]
      exact hheld.ended (by simp)
    · rw [← List.append_assoc] at hmem
      rcases List.mem_append.mp hmem with hmem | hmem
      · exact hfinds _ _ _ _ hmem
      · cases List.mem_singleton.mp hmem
  · rw [hwrite] at hheld hordered hfile hwritten
    refine ⟨hordered, fun _ _ => h.called_setCall (by simp), fun t' call' hmutated x hx => ?_, hadmits, hheld, hfinds,
      h.filed.later hfile hreturned, fun _ => Or.inr (Or.inl ⟨t, call, SharedConfig.setCall_self ..⟩)⟩
    rcases setCall_cases hmutated with ⟨rfl, hsame⟩ | ⟨-, hother⟩
    · obtain rfl := Phase.mutated.inj (Option.some.inj hsame)
      obtain ⟨pre, place, since, hsplit, hsince⟩ := hwritten rfl x hx
      exact ⟨outs ++ pre, place, since, by simp [hsplit], hsince⟩
    · exact (h.mutated t' call' hother x hx).later (hends t')

theorem Kept.save (h : Kept s outs) {call : ConfigCall} (hcall : ∀ x ∈ call.items, Written t x outs) :
    Kept (s.save t call).1 (outs ++ (s.save t call).2) where
  ordered := h.ordered
  called _ _ := h.called_setCall (by simp)
  mutated _ _ := by
    refine h.mutated_setCall (by simp) fun t' hne o ho => ?_
    obtain rfl := List.mem_singleton.mp ho
    exact hne.symm
  returned := h.returned.snoc hcall
  held := h.held.ended (by simp)
  finds t' sPath place value hmem := by
    rcases List.mem_append.mp hmem with hmem | hmem
    · exact h.finds _ _ _ _ hmem
    · cases List.mem_singleton.mp hmem
  filed _ _ _ _ _ _ hsplit _ := ⟨_, rfl, h.held.ended (by simp) _ _ _ _ _ _ hsplit⟩
  saved _ := Or.inl rfl

theorem Kept.step (h : Kept s outs) {e : ConfigStep} (he : e.Valid) : Kept (s.step e).1 (outs ++ (s.step e).2) := by
  cases e with
  | enter t call =>
    simp only [SharedConfig.step]
    split
    · rename_i hidle
      rw [List.append_nil]
      exact h.enter hidle he
    · rw [List.append_nil]
      exact h
  | mutate t =>
    simp only [SharedConfig.step]
    split
    · rename_i call hcalled
      exact h.mutate (h.called t call hcalled)
    · rw [List.append_nil]
      exact h
  | save t =>
    simp only [SharedConfig.step]
    split
    · rename_i call hmutated
      exact h.save (h.mutated t call hmutated)
    · rw [List.append_nil]
      exact h

theorem kept_start {c : Config} (hc : Ordered c.json) : Kept { config := c } [] where
  ordered := hc
  called t call hcalled := by cases hcalled
  mutated t call hmutated := by cases hmutated
  returned := admits_nil
  held pre t sPath place value since hsplit := by simp at hsplit
  finds t sPath place value hmem := by cases hmem
  filed pre t sPath place value since hsplit := by simp at hsplit
  saved _ := Or.inr (Or.inr fun t call => List.not_mem_nil)

theorem kept (c : Config) (hc : Ordered c.json) (es : List ConfigStep) (hes : ∀ e ∈ es, e.Valid) :
    Kept (runThreads c es).1 (runThreads c es).2 := by
  induction es using List.reverseRecOn with
  | nil => exact kept_start hc
  | append_singleton es e ih =>
    rw [runThreads, runReport_snoc]
    exact (ih fun x hx => hes x (List.mem_append_left _ hx)).step (hes e (by simp))

/-- Whatever the threads do to each other, what a call has written is in the file once
it has returned, and where nothing is in progress and nothing was thrown the file is
the document. -/
theorem durable_runThreads (c : Config) (hc : Ordered c.json) (es : List ConfigStep) (hes : ∀ e ∈ es, e.Valid) :
    Durable (runThreads c es).1 (runThreads c es).2 ∧ (Quiet (runThreads c es).1 (runThreads c es).2 →
      (runThreads c es).1.config.file = some (runThreads c es).1.config.json) := by
  have h := kept c hc es hes
  constructor
  · intro before t call after hsplit x hx
    obtain ⟨pre, place, since, rfl, hsince⟩ := h.returned before _ after hsplit x hx
    have hwhole : (runThreads c es).2 = pre ++ .wrote t x.1 place x.2 :: (since ++ .returned t call :: after) := by
      simp [hsplit]
    exact ⟨pre, place, since, rfl, hsince, h.finds t x.1 place x.2 (by simp [hwhole]),
      h.filed pre t x.1 place x.2 _ hwhole ⟨t, call, by simp⟩⟩
  · rintro ⟨hidle, ⟨t, call, hreturned⟩, hnone⟩
    rcases h.saved hnone with hfile | ⟨t', call', hpending⟩ | hnever
    · exact hfile
    · rw [hidle t'] at hpending
      cases hpending
    · exact absurd hreturned (hnever t call)

/-- The first save writes what the other thread has changed, too. -/
def twoWriters : List ConfigStep :=
  [.enter 0 (.setValue "ptp.domain" (.int 5)), .enter 1 (.update (.obj [("web.port", .int 81)])),
    .mutate 0, .mutate 1, .save 1, .save 0]

def domainOnly : Config := { json := .obj [("ptp", .obj [("domain", .int 0)])] }

theorem domainOnly_ordered : Ordered domainOnly.json := by
  refine .obj (List.pairwise_singleton _ _) fun x hx => ?_
  obtain rfl := List.mem_singleton.mp hx
  refine .obj (List.pairwise_singleton _ _) fun y hy => ?_
  obtain rfl := List.mem_singleton.mp hy
  exact .int 0

theorem twoWriters_valid : ∀ e ∈ twoWriters, e.Valid := by
  have hdomain : Ordered (.int 5) := .int 5
  have hport : Ordered (.int 81) := .int 81
  simp [twoWriters, ConfigStep.Valid, ConfigCall.items, Json.items, hdomain, hport]

theorem twoWriters_outs : (runThreads domainOnly twoWriters).2 =
    [.replaced [.member "ptp", .member "domain"], .wrote 0 "ptp.domain" [.member "ptp", .member "domain"] (.int 5),
      .replaced [.member "web"], .wrote 1 "web.port" [.member "web", .member "port"] (.int 81),
      .returned 1 (.update (.obj [("web.port", .int 81)])), .returned 0 (.setValue "ptp.domain" (.int 5))] := rfl

theorem twoWriters_quiet : Quiet (runThreads domainOnly twoWriters).1 (runThreads domainOnly twoWriters).2 := by
  refine ⟨?_, ⟨0, .setValue "ptp.domain" (.int 5), ?_⟩, ?_⟩
  · rintro (_ | _ | t) <;> rfl
  · simp [twoWriters_outs]
  · simp [twoWriters_outs]

theorem twoWriters_saved :
    (runThreads domainOnly twoWriters).1.config.file = some (runThreads domainOnly twoWriters).1.config.json :=
  (durable_runThreads domainOnly domainOnly_ordered twoWriters twoWriters_valid).2 twoWriters_quiet

end Runs

/-- A call on its own. -/
def ConfigCall.run (c : Config) : ConfigCall → Except JsonError Unit × Config
  | .setValue sPath value => c.setValue sPath value
  | .update jsUpdates => c.update jsUpdates
  | .save => (.ok (), c.save)

/-- A call with no other in between does what it does on its own. -/
theorem undisturbed (s : SharedConfig) {t : Thread} (hidle : s.calls t = none) (call : ConfigCall) :
    ([.enter t call, .mutate t, .save t].foldl (fun s e => (SharedConfig.step s e).1) s).config =
      (call.run s.config).2 := by
  have henter : s.step (.enter t call) = (s.setCall t (some (.called call)), []) := by
    simp only [SharedConfig.step, hidle]
  have hmutate : (s.setCall t (some (.called call))).step (.mutate t) =
      (s.setCall t (some (.called call))).mutate t call := by
    simp only [SharedConfig.step, SharedConfig.setCall_self]
  have hcall : (call.run s.config).2 = match Config.writeAll call.items s.config with
      | (.ok (), c) => c.save
      | (.error _, c) => c := by
    cases call with
    | setValue sPath value =>
      simp only [ConfigCall.run, Config.setValue, ConfigCall.items, Config.writeAll]
      rcases s.config.write sPath value with ⟨e | ⟨⟩, c⟩ <;> rfl
    | update jsUpdates =>
      simp only [ConfigCall.run, Config.update, ConfigCall.items]
      rcases Config.writeAll jsUpdates.items s.config with ⟨e | ⟨⟩, c⟩ <;> rfl
    | save => rfl
  simp only [List.foldl_cons, List.foldl_nil, henter, hmutate]
  rw [hcall]
  simp only [SharedConfig.mutate, SharedConfig.setCall]
  rcases Config.writeAll call.items s.config with ⟨e | ⟨⟩, c⟩
  · simp only [SharedConfig.step, Function.update_self]
  · simp only [SharedConfig.step, SharedConfig.save, SharedConfig.setCall, Function.update_self]

end PiAudioNode
