import PiAudioNode.Durability
import PiAudioNode.Merge

/-! The configuration when the daemon stops anywhere and starts again: what the file gives
back is the document as it was last saved. -/
namespace PiAudioNode
open Lib Lib.Json

namespace Config

/-- A value that lacks none of the defaults, or has no place for them. -/
inductive Whole : Json → Json → Prop where
  | value {js jsDefault : Json} (h : ¬ jsDefault.isObject) : Whole js jsDefault
  | other {js jsDefault : Json} (h : ¬ js.isObject) (hnull : js ≠ .null) : Whole js jsDefault
  | group {fields g : List (String × Json)} (hfind : ∀ x ∈ g, (findKey x.1 fields).isSome)
      (hbelow : ∀ x ∈ g, ∀ child, findKey x.1 fields = some child → Whole child x.2) : Whole (.obj fields) (.obj g)

/-- A null does not stand where a group of defaults goes. -/
def NoNullGroup (js jsDefault : Json) : Prop :=
  ∀ p, (descend p jsDefault).any isObject → descend p js ≠ some .null

/-- A document that a start leaves as it is. -/
structure Sound (js : Json) : Prop where
  object : js.isObject
  ordered : Ordered js
  whole : Whole js (.obj defaults)

/-- A file that can be read: there is none, or it holds an object with no null for a group. -/
def Readable (file : Option Json) : Prop :=
  ∀ js ∈ file, js.isObject ∧ Ordered js ∧ NoNullGroup js (.obj defaults)

/-- A write that leaves no group of settings short of its defaults. -/
def Spares (item : String × Json) : Prop :=
  ∀ tokens, pointer item.1 = .ok tokens → ∀ jsDefault, descend tokens (.obj defaults) = some jsDefault →
    Whole item.2 jsDefault

section Groups
variable {js jsDefault v : Json} {fields g : List (String × Json)}

theorem findKey_of_mem {x : String × Json} (hkeys : g.Pairwise (·.1 < ·.1)) (hx : x ∈ g) : findKey x.1 g = some x.2 := by
  induction g with
  | nil => cases hx
  | cons y g ih =>
    obtain ⟨hhead, hrest⟩ := List.pairwise_cons.mp hkeys
    obtain ⟨k, w⟩ := y
    rcases List.mem_cons.mp hx with rfl | hx
    · rw [findKey, if_pos rfl]
    · rw [findKey, if_neg (hhead x hx).ne, ih hrest hx]

/-- No default is missing, so none is put in. -/
theorem merged_of_whole (hwhole : Whole js jsDefault) (hjs : Ordered js) (hdefault : Ordered jsDefault) :
    merged js jsDefault = js := by
  induction hwhole with
  | value h => exact merged_of_not_objects fun hboth => h hboth.2
  | other h => exact merged_of_not_objects fun hboth => h hboth.1
  | @group fields g hfind _ ih =>
    obtain ⟨fields', hrun, hordered, hmembers⟩ := mergeDefaults_obj hdefault hjs
    rw [merged_obj, hrun]
    cases hjs with
    | obj hkeys hall =>
      cases hordered with
      | obj hkeys' =>
        refine congrArg Json.obj (fields_ext hkeys' hkeys fun sKey => ?_)
        rw [hmembers]
        cases hg : findKey sKey g with
        | none => exact mergedMember_none _
        | some d =>
          have hmem := mem_of_findKey hg
          obtain ⟨child, hchild⟩ := Option.isSome_iff_exists.mp (hfind _ hmem)
          have hd : Ordered d := by simpa only [hg, Option.getD_some] using hdefault.member sKey
          rw [hchild, mergedMember, ih _ hmem child hchild (hall _ (mem_of_findKey hchild)) hd]

theorem whole_refl (hdefault : Ordered jsDefault) : Whole jsDefault jsDefault := by
  induction hdefault with
  | @obj g hkeys hall ih =>
    refine .group (fun x hx => ?_) fun x hx child hchild => ?_
    · rw [findKey_of_mem hkeys hx]
      rfl
    · rw [findKey_of_mem hkeys hx] at hchild
      obtain rfl := Option.some.inj hchild
      exact ih x hx
  | _ => exact .value Bool.false_ne_true

theorem NoNullGroup.child {sKey : String} {child d : Json} (h : NoNullGroup (.obj fields) (.obj g))
    (hchild : findKey sKey fields = some child) (hd : findKey sKey g = some d) : NoNullGroup child d := by
  intro p hobject hnull
  apply h (sKey :: p)
  · rw [descend, Json.member, hd]
    exact hobject
  · rw [descend, Json.member, hchild]
    exact hnull

/-- After the merge no default is missing. -/
theorem whole_merged (hdefault : Ordered jsDefault) (hjs : Ordered js) (hnull : NoNullGroup js jsDefault) :
    Whole (merged js jsDefault) jsDefault := by
  induction hdefault generalizing js with
  | @obj g hkeys hall ih =>
    by_cases hobject : js.isObject
    · obtain ⟨fields, rfl⟩ := isObject_iff.mp hobject
      obtain ⟨fields', hrun, -, hmembers⟩ := mergeDefaults_obj (.obj hkeys hall) hjs
      rw [merged_obj, hrun]
      have hmember (x : String × Json) (hx : x ∈ g) :
          findKey x.1 fields' = mergedMember (findKey x.1 fields) (some x.2) := by
        rw [hmembers, findKey_of_mem hkeys hx]
      refine .group (fun x hx => ?_) fun x hx child hchild => ?_
      · rw [hmember x hx]
        cases findKey x.1 fields <;> rfl
      · rw [hmember x hx] at hchild
        cases hfind : findKey x.1 fields with
        | none =>
          rw [hfind] at hchild
          obtain rfl := Option.some.inj hchild
          exact whole_refl (hall x hx)
        | some old =>
          rw [hfind] at hchild
          obtain rfl := Option.some.inj hchild
          have hold : Ordered old := by simpa only [hfind, Option.getD_some] using hjs.member x.1
          exact ih x hx hold (hnull.child hfind (findKey_of_mem hkeys hx))
    · rw [merged_of_not_objects fun hboth => hobject hboth.1]
      refine .other hobject fun heq => hnull [] rfl ?_
      rw [heq]
      rfl
  | _ => exact .value Bool.false_ne_true

/-- A write into a whole document leaves it whole, if what is written is: the induction is
on the tokens. -/
theorem whole_assign {tokens : List String} (hdefault : Ordered jsDefault) (hjs : Whole js jsDefault)
    (hv : ∀ d, descend tokens jsDefault = some d → Whole v d) : Whole (assign v tokens js).2 jsDefault := by
  induction tokens generalizing js jsDefault with
  | nil => exact hv jsDefault rfl
  | cons sToken rest ih =>
    cases hjs with
    | value h => exact .value h
    | other h hnull =>
      cases js with
      | null => exact absurd rfl hnull
      | obj fields => exact absurd rfl h
      | arr elems =>
        cases hindex : elementFor sToken elems with
        | error e =>
          rw [assign_arr_error hindex]
          exact .other h hnull
        | ok i =>
          rw [assign_arr hindex]
          exact .other Bool.false_ne_true nofun
      | _ => exact .other h hnull
    | @group fields g hfind hbelow =>
      rw [assign_obj]
      refine .group (fun x hx => ?_) fun x hx child hchild => ?_
      · by_cases hkey : x.1 = sToken
        · rw [hkey, findKey_setKey_self]
          rfl
        · rw [findKey_setKey_ne hkey]
          exact hfind x hx
      · by_cases hkey : x.1 = sToken
        · obtain ⟨old, hold⟩ := Option.isSome_iff_exists.mp (hfind x hx)
          cases hdefault with
          | obj hkeys hall =>
            have hgroup := findKey_of_mem hkeys hx
            subst hkey
            rw [findKey_setKey_self, hold] at hchild
            obtain rfl := Option.some.inj hchild
            refine ih (hall x hx) (hbelow x hx old hold) fun d hd => hv d ?_
            rw [descend, Json.member, hgroup]
            exact hd
        · rw [findKey_setKey_ne hkey] at hchild
          exact hbelow x hx child hchild

end Groups

section Loads
variable {js : Json} {c : Config} {items : List (String × Json)}

theorem load_of_sound (h : Sound js) : load (some js) = (.ok (), { json := js, file := some js }) := by
  obtain ⟨fields, rfl⟩ := isObject_iff.mp h.object
  obtain ⟨fields', hrun, -, -⟩ := mergeDefaults_obj ordered_defaults h.ordered
  have hsame := merged_of_whole h.whole h.ordered ordered_defaults
  rw [merged_obj, hrun] at hsame
  rw [load, Option.getD_some, hrun]
  exact congrArg (fun js => (Except.ok (), ({ json := js, file := some (.obj fields) } : Config))) hsame

theorem readable_none : Readable none := by
  intro js hjs
  cases hjs

theorem load_of_readable {file : Option Json} (h : Readable file) :
    (load file).1 = .ok () ∧ Sound (load file).2.json := by
  have hcontent : ∃ fields, file.getD (.obj []) = .obj fields ∧ Ordered (.obj fields) ∧
      NoNullGroup (.obj fields) (.obj defaults) := by
    cases file with
    | none =>
      refine ⟨[], rfl, .obj List.Pairwise.nil (by simp), fun p _ hnull => ?_⟩
      cases p <;> cases hnull
    | some js =>
      obtain ⟨hobject, hordered, hnull⟩ := h js rfl
      obtain ⟨fields, rfl⟩ := isObject_iff.mp hobject
      exact ⟨fields, rfl, hordered, hnull⟩
  obtain ⟨fields, hfile, hordered, hnull⟩ := hcontent
  obtain ⟨fields', hrun, hordered', -⟩ := mergeDefaults_obj ordered_defaults hordered
  have hwhole := whole_merged ordered_defaults hordered hnull
  rw [merged_obj, hrun] at hwhole
  rw [load, hfile, hrun]
  exact ⟨rfl, rfl, hordered', hwhole⟩

theorem pointer_ne_nil {sPath : String} {tokens : List String} (h : pointer sPath = .ok tokens) : tokens ≠ [] := by
  rintro rfl
  rw [pointer, pointerTokens] at h
  cases hsplit : (dotted sPath).toList.splitOn '/' with
  | nil => exact List.splitOn_ne_nil _ _ hsplit
  | cons cs rest =>
    rw [hsplit, List.mapM_cons] at h
    cases hfirst : (unescape cs).map String.ofList with
    | error e =>
      rw [hfirst] at h
      cases h
    | ok sToken =>
      rw [hfirst] at h
      cases hrest : rest.mapM fun cs => (unescape cs).map String.ofList with
      | error e => simp [hrest, bind, Except.bind] at h
      | ok more => simp [hrest, bind, Except.bind, pure, Except.pure] at h

theorem isObject_assign {v : Json} {tokens : List String} (hne : tokens ≠ []) (h : js.isObject) :
    (assign v tokens js).2.isObject := by
  obtain ⟨fields, rfl⟩ := isObject_iff.mp h
  obtain ⟨sToken, rest, rfl⟩ := List.exists_cons_of_ne_nil hne
  rw [assign_obj]
  rfl

theorem Sound.write {sPath : String} {value : Json} (h : Sound c.json) (hvalue : Ordered value)
    (hspares : Spares (sPath, value)) : Sound (c.write sPath value).2.json := by
  rw [Config.write]
  cases hpointer : pointer sPath with
  | error e => exact h
  | ok tokens =>
    exact ⟨isObject_assign (pointer_ne_nil hpointer) h.object, ordered_assign hvalue h.ordered,
      whole_assign ordered_defaults h.whole (hspares tokens hpointer)⟩

theorem Sound.writeAll (h : Sound c.json) (hitems : ∀ x ∈ items, Ordered x.2 ∧ Spares x) :
    Sound (writeAll items c).2.json := by
  induction items generalizing c with
  | nil => exact h
  | cons x items ih =>
    obtain ⟨hvalue, hspares⟩ := hitems x List.mem_cons_self
    have hfirst := h.write hvalue hspares
    rw [Config.writeAll]
    rcases hwrite : c.write x.1 x.2 with ⟨e | ⟨⟩, c'⟩
    · rw [hwrite] at hfirst
      exact hfirst
    · rw [hwrite] at hfirst
      exact ih hfirst fun y hy => hitems y (List.mem_cons_of_mem _ hy)

/-- What the file holds is nothing to a write. -/
theorem writeAll_file (items : List (String × Json)) (c : Config) (file : Option Json) :
    writeAll items { c with file } = ((writeAll items c).1, { (writeAll items c).2 with file }) := by
  induction items generalizing c with
  | nil => rfl
  | cons x items ih =>
    have hfirst : Config.write x.1 x.2 { c with file } = ((c.write x.1 x.2).1, { (c.write x.1 x.2).2 with file }) := by
      simp only [Config.write]
      cases pointer x.1 <;> rfl
    rw [Config.writeAll, Config.writeAll, hfirst]
    rcases c.write x.1 x.2 with ⟨e | ⟨⟩, c'⟩
    · rfl
    · exact ih c'

end Loads

end Config

/-- The daemon may stop anywhere between the steps of its threads, and start again. -/
inductive ConfigEvent where
  | thread (e : ConfigStep)
  | restart

def ConfigEvent.isRestart : ConfigEvent → Bool
  | .thread _ => false
  | .restart => true

/-- A call brings in JSON values, which leave no group short of its defaults. -/
def ConfigEvent.Valid : ConfigEvent → Prop
  | .thread (.enter _ call) => ∀ x ∈ call.items, Ordered x.2 ∧ Config.Spares x
  | .thread (.mutate _) | .thread (.save _) | .restart => True

namespace SharedConfig

/-- The calls in progress are gone, and the document is what the file gives. -/
def restart (s : SharedConfig) : SharedConfig := { config := (Config.load s.config.file).2 }

def onEvent (s : SharedConfig) : ConfigEvent → SharedConfig
  | .thread e => (s.step e).1
  | .restart => s.restart

end SharedConfig

def runRestarts (file : Option Json) (es : List ConfigEvent) : SharedConfig :=
  run SharedConfig.onEvent { config := (Config.load file).2 } es

/-- What the configuration is for: a document with the copy that a restart goes back to.
There is no file, and nothing is merged. -/
structure SavedDocument where
  json : Json
  committed : Json := json
  calls : Thread → Option Phase := fun _ => none
  bFailed : Bool := false

namespace SavedDocument

def step (d : SavedDocument) : ConfigStep → SavedDocument
  | .enter t call =>
    match d.calls t with
    | none => { d with calls := Function.update d.calls t (some (.called call)) }
    | some _ => d
  | .mutate t =>
    match d.calls t with
    | some (.called call) =>
      match Config.writeAll call.items { json := d.json } with
      | (.ok (), c) => { d with json := c.json, calls := Function.update d.calls t (some (.mutated call)) }
      | (.error _, c) => { d with json := c.json, calls := Function.update d.calls t none, bFailed := true }
    | _ => d
  | .save t =>
    match d.calls t with
    | some (.mutated _) => { d with committed := d.json, calls := Function.update d.calls t none, bFailed := false }
    | _ => d

def onEvent (d : SavedDocument) : ConfigEvent → SavedDocument
  | .thread e => d.step e
  | .restart => { json := d.committed }

/-- No call is in progress, and none has thrown since the last save. -/
def Quiet (d : SavedDocument) : Prop := d.bFailed = false ∧ ∀ t, d.calls t = none

end SavedDocument

def runDocument (file : Option Json) (es : List ConfigEvent) : SavedDocument :=
  run SavedDocument.onEvent { json := (Config.load file).2.json } es

/-- The shared configuration and its file are the document and its copy. -/
structure Recovers (s : SharedConfig) (d : SavedDocument) : Prop where
  json : s.config.json = d.json
  calls : s.calls = d.calls
  loads : Config.load s.config.file = (.ok (), { json := d.committed, file := s.config.file })
  quiet : d.Quiet → s.restart = s

section Runs
variable {s : SharedConfig} {d : SavedDocument}

/-- What every step keeps: both copies are sound, and they differ only while a call is
on its way to its save, or after one that failed. -/
structure Commits (s : SharedConfig) (d : SavedDocument) : Prop where
  json : s.config.json = d.json
  calls : s.calls = d.calls
  loads : Config.load s.config.file = (.ok (), { json := d.committed, file := s.config.file })
  working : Config.Sound d.json
  committed : Config.Sound d.committed
  valid : ∀ t call, d.calls t = some (.called call) → ∀ x ∈ call.items, Ordered x.2 ∧ Config.Spares x
  saved : d.json = d.committed ∨ d.bFailed ∨ ∃ t call, d.calls t = some (.mutated call)

theorem Commits.recovers (h : Commits s d) : Recovers s d := by
  refine ⟨h.json, h.calls, h.loads, fun hquiet => ?_⟩
  obtain ⟨hfailed, hidle⟩ := hquiet
  have hsame : d.json = d.committed := by
    rcases h.saved with hsame | hfail | ⟨t, call, hcall⟩
    · exact hsame
    · rw [hfailed] at hfail
      cases hfail
    · rw [hidle t] at hcall
      cases hcall
  rw [SharedConfig.restart, h.loads, ← hsame, ← h.json]
  have hcalls : s.calls = fun _ => none := by
    rw [h.calls]
    funext t
    exact hidle t
  rw [← hcalls]

/-- The calls that wait for their mutation, when a thread goes on to its next phase. -/
theorem Commits.valid_update (h : Commits s d) (t : Thread) {phase : Option Phase}
    (hphase : ∀ call, phase = some (.called call) → ∀ x ∈ call.items, Ordered x.2 ∧ Config.Spares x) (t' : Thread)
    (call : ConfigCall) (hcall : Function.update d.calls t phase t' = some (.called call)) :
    ∀ x ∈ call.items, Ordered x.2 ∧ Config.Spares x := by
  by_cases ht : t' = t
  · subst ht
    rw [Function.update_self] at hcall
    exact hphase call hcall
  · rw [Function.update_of_ne ht] at hcall
    exact h.valid t' call hcall

theorem Commits.enter (h : Commits s d) (t : Thread) {call : ConfigCall}
    (hcall : ∀ x ∈ call.items, Ordered x.2 ∧ Config.Spares x) : Commits (s.step (.enter t call)).1 (d.step (.enter t call)) := by
  rw [SharedConfig.step, SavedDocument.step, h.calls]
  cases hidle : d.calls t with
  | some phase => exact h
  | none =>
    refine ⟨h.json, ?_, h.loads, h.working, h.committed, h.valid_update t ?_, ?_⟩
    · simp only [SharedConfig.setCall, h.calls]
    · rintro call' ⟨⟩
      exact hcall
    · refine h.saved.imp_right (Or.imp_right ?_)
      rintro ⟨t', call', hcall'⟩
      have ht : t' ≠ t := by
        rintro rfl
        rw [hidle] at hcall'
        cases hcall'
      exact ⟨t', call', (Function.update_of_ne ht ..).trans hcall'⟩

theorem Commits.mutate (h : Commits s d) (t : Thread) : Commits (s.step (.mutate t)).1 (d.step (.mutate t)) := by
  rw [SharedConfig.step, SavedDocument.step, h.calls]
  cases hphase : d.calls t with
  | none => exact h
  | some phase =>
    cases phase with
    | mutated call => exact h
    | called call =>
      have hwritten := Config.writeAll_file call.items { json := d.json } s.config.file
      have hsound : Config.Sound (Config.writeAll call.items { json := d.json }).2.json :=
        Config.Sound.writeAll (c := { json := d.json }) h.working (h.valid t call hphase)
      have hconfig : s.config = { json := d.json, file := s.config.file } := by rw [← h.json]
      simp only [SharedConfig.mutate]
      rw [hconfig, hwritten]
      rcases hwrite : Config.writeAll call.items { json := d.json } with ⟨e | ⟨⟩, c⟩
      · rw [hwrite] at hsound
        refine ⟨rfl, ?_, h.loads, hsound, h.committed, h.valid_update t (fun call' hcall' => by cases hcall'), Or.inr (Or.inl rfl)⟩
        simp only [SharedConfig.setCall, h.calls]
      · rw [hwrite] at hsound
        refine ⟨rfl, ?_, h.loads, hsound, h.committed, h.valid_update t (fun call' hcall' => by cases hcall'), Or.inr (Or.inr ⟨t, call, ?_⟩)⟩
        · simp only [SharedConfig.setCall, h.calls]
        · exact Function.update_self ..

theorem Commits.save (h : Commits s d) (t : Thread) : Commits (s.step (.save t)).1 (d.step (.save t)) := by
  rw [SharedConfig.step, SavedDocument.step, h.calls]
  cases hphase : d.calls t with
  | none => exact h
  | some phase =>
    cases phase with
    | called call => exact h
    | mutated call =>
      refine ⟨h.json, ?_, ?_, h.working, h.working, h.valid_update t (fun call' hcall' => by cases hcall'), Or.inl rfl⟩
      · simp only [SharedConfig.save, SharedConfig.setCall, h.calls]
      · simp only [SharedConfig.save, SharedConfig.setCall, Config.save, h.json]
        exact Config.load_of_sound h.working

theorem Commits.restart (h : Commits s d) : Commits s.restart (d.onEvent .restart) := by
  rw [SharedConfig.restart, h.loads]
  exact ⟨rfl, rfl, h.loads, h.committed, h.committed, (fun t call hcall => by cases hcall), Or.inl rfl⟩

theorem Commits.onEvent (h : Commits s d) {e : ConfigEvent} (he : e.Valid) : Commits (s.onEvent e) (d.onEvent e) := by
  cases e with
  | restart => exact h.restart
  | thread e =>
    cases e with
    | enter t call => exact h.enter t he
    | mutate t => exact h.mutate t
    | save t => exact h.save t

theorem commits_run {file : Option Json} (hfile : Config.Readable file) {es : List ConfigEvent} (hes : ∀ e ∈ es, e.Valid) :
    Commits (runRestarts file es) (runDocument file es) := by
  induction es using List.reverseRecOn with
  | nil =>
    obtain ⟨hok, hsound⟩ := Config.load_of_readable hfile
    refine ⟨rfl, rfl, ?_, hsound, hsound, ?_, Or.inl rfl⟩
    · exact Prod.ext hok rfl
    · intro t call hcall
      cases hcall
  | append_singleton es e ih =>
    rw [runRestarts, runDocument, run_snoc, run_snoc]
    exact (ih fun x hx => hes x (List.mem_append_left _ hx)).onEvent (hes e (by simp))

/-- The second change is not saved before the daemon stops. -/
def savedOnce : List ConfigEvent :=
  [.thread (.enter 0 (.setValue "ptp.domain" (.int 5))), .thread (.mutate 0), .thread (.save 0),
    .thread (.enter 1 (.setValue "web.port" (.int 81))), .thread (.mutate 1), .restart]

theorem savedOnce_valid : ∀ e ∈ savedOnce, e.Valid := by
  have hdomain : Config.Spares ("ptp.domain", .int 5) := by
    intro tokens htokens d hd
    obtain rfl : ["ptp", "domain"] = tokens := Except.ok.inj htokens
    obtain rfl : Json.int 0 = d := Option.some.inj hd
    exact .value Bool.false_ne_true
  have hport : Config.Spares ("web.port", .int 81) := by
    intro tokens htokens d hd
    obtain rfl : ["web", "port"] = tokens := Except.ok.inj htokens
    obtain rfl : Json.int 80 = d := Option.some.inj hd
    exact .value Bool.false_ne_true
  simp [savedOnce, ConfigEvent.Valid, ConfigCall.items, hdomain, hport, Ordered.int]

end Runs

end PiAudioNode
