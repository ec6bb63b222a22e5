import PiAudioNode.Lib.Pointer
import PiAudioNode.Nmos.Atomic

/-! Whether a configuration update that is answered with an error leaves the
configuration, in memory and in the file, as it was. -/
namespace PiAudioNode.Web
open Lib Lib.Json Lib.Act Nmos

/-- The document with some updates written, one after the other. -/
def merged (js : Json) (items : List (String × Json)) : Json :=
  items.foldl (fun js item => match Config.pointer item.1 with
    | .ok tokens => (assign item.2 tokens js).2
    | .error _ => js) js

/-- The configuration with some updates written and saved. -/
def updated (c : Config) (items : List (String × Json)) : Config := { c with json := merged c.json items }.save

def Writable (js : Json) (sKey : String) : Prop := ∃ tokens, Config.pointer sKey = .ok tokens ∧ Open tokens js

/-- The update says what the document has already. -/
def Restated (js : Json) (item : String × Json) : Prop :=
  ∃ tokens, Config.pointer item.1 = .ok tokens ∧ InPlace item.2 tokens js

/-- The key is no path, or the path ends at a value with nothing below it. -/
def Refused (js : Json) (sKey : String) : Prop := ∀ tokens, Config.pointer sKey = .ok tokens → Closed tokens js

/-- The sender part of a configuration is an object that is off, or has the types it is read as. -/
def SenderReadable (sys : System) (c : Config) : Prop :=
  ∃ members, c.json.at? "sender" = .ok (.obj members) ∧
    (findKey "enabled" members = none ∨ findKey "enabled" members = some (.bool false) ∨
      findKey "enabled" members = some (.bool true) ∧ Readable sys c members fun _ => False)

/-- Nothing but the live switches of the legs. -/
def OnlyLegToggle (jsChanged : Json) : Prop :=
  ¬ jsChanged.isEmpty ∧ (jsChanged.items.map Prod.fst).all (· ∈ legKeys)

/-- What the callback reads of the new configuration has the types it is read as. -/
structure Applicable (sys : System) (c : Config) (jsChanged : Json) : Prop where
  sender : ¬ OnlyLegToggle jsChanged →
    (jsChanged.items.map Prod.fst).any ("sender.".toList.isPrefixOf ·.toList) → SenderReadable sys c
  domain : ∀ js, ("ptp.domain", js) ∈ jsChanged.items → isInt js
  device : ∀ js, ("receiver.alsa_device", js) ∈ jsChanged.items → js.isString

/-- Every key can be written where its turn comes, and the result can be applied. -/
structure Accepted (sys : System) (c : Config) (jsUpdates : Json) : Prop where
  writable : ∀ pre item post, jsUpdates.items = pre ++ item :: post → Writable (merged c.json pre) item.1
  applicable : Applicable sys (updated c jsUpdates.items) jsUpdates

/-- Up to the key that is refused the update says what is there already, or all of it does
and the file holds it too. -/
def Harmless (c : Config) (items : List (String × Json)) : Prop :=
  (∃ pre item post, items = pre ++ item :: post ∧ (∀ x ∈ pre, Restated c.json x) ∧ Refused c.json item.1) ∨
    (∀ x ∈ items, Restated c.json x) ∧ c.file = some c.json

/-- The update succeeds, or writes nothing new before the error. -/
def Tolerated (e : Served) (s : Node) : Prop :=
  match e.request with
  | .config (.ok jsUpdates) => Accepted e.sys s.config jsUpdates ∨ Harmless s.config jsUpdates.items
  | _ => True

/-- An update that is answered with 400 leaves the configuration and its file. -/
def NoEffectAt (s : Node) (e : Served) : Prop :=
  ∀ body, e.request = .config body → status ((serve e).exec s).1 = 400 → (Nmos.step s e).config = s.config

section Writes
variable {c : Config} {items : List (String × Json)}

theorem write_writable {sKey : String} (h : Writable c.json sKey) (value : Json) :
    c.write sKey value = (.ok (), { c with json := merged c.json [(sKey, value)] }) := by
  obtain ⟨tokens, hpointer, hopen⟩ := h
  simp only [Config.write, merged, List.foldl_cons, List.foldl_nil, hpointer, assign_ok_iff.mpr hopen]

theorem merged_cons (js : Json) (item : String × Json) (rest : List (String × Json)) :
    merged js (item :: rest) = merged (merged js [item]) rest := by
  simp only [merged, List.foldl_cons, List.foldl_nil]

theorem writeAll_writable (h : ∀ pre item post, items = pre ++ item :: post → Writable (merged c.json pre) item.1) :
    Config.writeAll items c = (.ok (), { c with json := merged c.json items }) := by
  induction items generalizing c with
  | nil => rfl
  | cons item rest ih =>
    have hfirst := write_writable (h [] item rest rfl) item.2
    have hlater : ∀ pre other post, rest = pre ++ other :: post →
        Writable (merged (merged c.json [item]) pre) other.1 := by
      intro pre other post hsplit
      rw [← merged_cons]
      exact h (item :: pre) other post (by rw [hsplit, List.cons_append])
    have hjson (js : Json) : ({ c with json := js } : Config).json = js := rfl
    have hrest := ih (c := { c with json := merged c.json [item] }) (by rwa [hjson])
    have hall : Config.writeAll (item :: rest) c = Config.writeAll rest { c with json := merged c.json [item] } := by
      obtain ⟨sKey, value⟩ := item
      simp only [Config.writeAll, hfirst]
    rw [hall, hrest, hjson, merged_cons c.json item rest]

theorem write_restated {item : String × Json} (h : Restated c.json item) : c.write item.1 item.2 = (.ok (), c) := by
  obtain ⟨tokens, hpointer, hplace⟩ := h
  simp only [Config.write, hpointer, assign_inPlace hplace]

theorem write_refused {sKey : String} (h : Refused c.json sKey) (value : Json) :
    ∃ e, c.write sKey value = (.error e, c) := by
  cases hpointer : Config.pointer sKey with
  | error e => exact ⟨e, by simp only [Config.write, hpointer]⟩
  | ok tokens =>
    obtain ⟨e, he⟩ := assign_closed (h tokens hpointer) value
    exact ⟨e, by simp only [Config.write, hpointer, he]⟩

theorem writeAll_restated (h : ∀ x ∈ items, Restated c.json x) (rest : List (String × Json)) :
    Config.writeAll (items ++ rest) c = Config.writeAll rest c := by
  induction items with
  | nil => rfl
  | cons item items ih =>
    rw [List.forall_mem_cons] at h
    rw [List.cons_append, Config.writeAll, write_restated h.1]
    exact ih h.2

/-- An update that is harmless ends with the configuration it began with. -/
theorem update_harmless {jsUpdates : Json} (h : Harmless c jsUpdates.items) : (c.update jsUpdates).2 = c := by
  rw [Config.update]
  rcases h with ⟨pre, item, post, hsplit, hpre, hrefused⟩ | ⟨hall, hfile⟩
  · obtain ⟨e, he⟩ := write_refused hrefused item.2
    rw [hsplit, writeAll_restated hpre, Config.writeAll, he]
  · have hwrites := writeAll_restated hall []
    rw [List.append_nil] at hwrites
    rw [hwrites]
    exact congrArg (fun file => { c with file := file }) hfile.symm

end Writes

section Callback
variable {sys : System} {c : Config} {jsChanged : Json} {s : Node}

theorem senderSettings_readable (h : SenderReadable sys c) : ∃ x, senderSettings sys c = .ok x := by
  obtain ⟨members, hjs, hnone | hoff | ⟨hon, hread⟩⟩ := h
  · have hswitch : (Json.obj members).value getBool "enabled" false = .ok false := by
      rw [value, hnone]
      rfl
    exact ⟨none, bind_eq_ok.mpr ⟨_, hjs, bind_eq_ok.mpr ⟨_, hswitch, rfl⟩⟩⟩
  · exact senderSettings_ok hjs hoff fun h => absurd h Bool.false_ne_true
  · exact senderSettings_ok hjs hon fun _ => hread

/-- The callback only reads the configuration. -/
theorem applied_config (sys : System) (jsChanged : Json) (c : Config) :
    Frames (Carries fun s : Node => s.config = c) (applied sys jsChanged) := by
  have restart : Frames (Carries fun s : Node => s.config = c) (ofUpdate (Node.applySender sys)) := by
    refine Frames.ofUpdate fun s h => ?_
    rw [Node.applySender]
    split <;> exact h
  have item (x : String × Json) : Frames (Carries fun s : Node => s.config = c) (applyItem x) := by
    unfold applyItem
    split_ifs
    · exact (Frames.attempt _).bind fun _ => Frames.update fun _ h => h
    · exact (Frames.attempt _).bind fun _ => Frames.pure _
    · exact Frames.pure _
  simp only [applied]
  split_ifs
  · exact (Frames.update fun _ h => h).bind fun _ => Frames.update fun _ h => h
  · refine Frames.bind ?_ fun _ => Frames.forM item _
    unfold restartSender
    split_ifs
    · exact restart.bind fun _ => Frames.update fun _ h => h
    · exact Frames.pure _

/-- One changed setting whose value has its type. -/
theorem applyItem_ok {item : String × Json} (hdomain : item.1 = "ptp.domain" → isInt item.2)
    (hdevice : item.1 = "receiver.alsa_device" → item.2.isString) (s : Node) :
    ∃ s', (applyItem item).exec s = (.ok (), s') := by
  rw [applyItem]
  split_ifs with hkey hother
  · obtain ⟨nDomain, hn⟩ := getInt_ok (hdomain hkey)
    exact ⟨_, by rw [exec_bind_ok (by rw [exec_attempt, hn]), exec_modify]⟩
  · obtain ⟨sDevice, hs⟩ := getString_ok (hdevice hother)
    exact ⟨s, by rw [exec_bind_ok (by rw [exec_attempt, hs]), exec_pure]⟩
  · exact ⟨s, exec_pure _ _⟩

theorem forM_applyItem_ok : ∀ {items : List (String × Json)} {s : Node},
    (∀ js, ("ptp.domain", js) ∈ items → isInt js) → (∀ js, ("receiver.alsa_device", js) ∈ items → js.isString) →
      ∃ s', (items.forM applyItem).exec s = (.ok (), s')
  | [], s, _, _ => ⟨s, rfl⟩
  | (sKey, jsValue) :: items, s, hdomain, hdevice => by
    have hfirst : ∃ s', (applyItem (sKey, jsValue)).exec s = (.ok (), s') :=
      applyItem_ok (fun h => hdomain jsValue (by simp [show sKey = _ from h]))
        (fun h => hdevice jsValue (by simp [show sKey = _ from h])) s
    obtain ⟨s1, h1⟩ := hfirst
    obtain ⟨s2, h2⟩ := forM_applyItem_ok (s := s1) (fun js hjs => hdomain js (List.mem_cons_of_mem _ hjs))
      fun js hjs => hdevice js (List.mem_cons_of_mem _ hjs)
    exact ⟨s2, by rw [List.forM, exec_bind_ok h1, h2]⟩

/-- A configuration that can be applied is applied. -/
theorem applied_ok (h : Applicable sys s.config jsChanged) : ∃ s', (applied sys jsChanged).exec s = (.ok (), s') := by
  rw [applied]
  by_cases hlegs : OnlyLegToggle jsChanged <;> unfold OnlyLegToggle at hlegs
  · exact ⟨_, by rw [if_pos hlegs, exec_bind_ok (exec_modify _ _), exec_modify]⟩
  · rw [if_neg hlegs, restartSender]
    by_cases hsender : (jsChanged.items.map Prod.fst).any ("sender.".toList.isPrefixOf ·.toList)
    · obtain ⟨s1, h1⟩ := applySender_ok (senderSettings_readable (h.sender hlegs hsender))
      obtain ⟨s2, h2⟩ := forM_applyItem_ok (s := s1.bumpVersion) h.domain h.device
      refine ⟨s2, ?_⟩
      rw [if_pos hsender, exec_bind_ok (by rw [exec_bind_ok (by rw [exec_ofUpdate, h1]), exec_modify]), h2]
    · obtain ⟨s2, h2⟩ := forM_applyItem_ok (s := s) h.domain h.device
      exact ⟨s2, by rw [if_neg hsender, exec_bind_ok (exec_pure _ _), h2]⟩

end Callback

section Run
variable {sys : System} {s : Node} {jsUpdates : Json}

theorem postConfig_accepted (h : Accepted sys s.config jsUpdates) :
    ((postConfig sys (.ok jsUpdates)).exec s).1 = .ok () := by
  have hupdate : s.updateConfig jsUpdates = (.ok (), { s with config := updated s.config jsUpdates.items }) := by
    rw [Node.updateConfig, Config.update, writeAll_writable h.writable]
    rfl
  obtain ⟨s', hs'⟩ := applied_ok (s := { s with config := updated s.config jsUpdates.items }) h.applicable
  rw [postConfig, exec_bind_ok (by rw [exec_attempt]), exec_bind_ok (by rw [exec_ofUpdate, hupdate]), hs']

/-- Whatever the callback does, the configuration is what the update made it. -/
theorem postConfig_config (sys : System) (jsUpdates : Json) (s : Node) :
    ((postConfig sys (.ok jsUpdates)).exec s).2.config = (s.config.update jsUpdates).2 := by
  rw [postConfig, exec_bind_ok (by rw [exec_attempt])]
  cases hupdate : s.config.update jsUpdates with
  | mk result c =>
    cases result with
    | error e => rw [exec_bind_error (by rw [exec_ofUpdate, Node.updateConfig, hupdate])]
    | ok =>
      rw [exec_bind_ok (by rw [exec_ofUpdate, Node.updateConfig, hupdate])]
      exact applied_config sys jsUpdates c { s with config := c } rfl

theorem noEffectAt_of_tolerated {e : Served} (h : Tolerated e s) : NoEffectAt s e := by
  intro body hrequest herror
  obtain ⟨sys, request⟩ := e
  subst hrequest
  cases body with
  | error err => rfl
  | ok jsUpdates =>
    rcases h with haccepted | hharmless
    · have hok : ((serve ⟨sys, .config (.ok jsUpdates)⟩).exec s).1 = .ok () := postConfig_accepted haccepted
      rw [hok] at herror
      cases herror
    · exact (postConfig_config sys jsUpdates s).trans (update_harmless hharmless)

/-- In every run of the node, an update that is answered with 400 leaves the configuration
and its file, as long as no update writes something new and fails afterwards. -/
theorem noEffect_of_tolerated (sys : System) (config : Config) (es : List Served)
    (h : Admits (fun pre e => Tolerated e (run Nmos.step (boot sys config) pre)) es) :
    Admits (fun pre e => NoEffectAt (run Nmos.step (boot sys config) pre) e) es :=
  fun pre e post hsplit => noEffectAt_of_tolerated (h pre e post hsplit)

end Run

section Site

def setDomainTo (jsValue : Json) : Served := ⟨{}, .config (.ok (.obj [("ptp.domain", jsValue)]))⟩

/-- A domain that is no number is in the configuration and in the file when the callback
reads it. -/
theorem setDomainTo_text_has_effect : ¬ NoEffectAt (boot {} siteNode.config) (setDomainTo (.str "seven")) := by
  intro h
  have hkept := congrArg (Config.lookup · "ptp.domain") (h _ rfl rfl)
  have hbefore : (boot {} siteNode.config).config.lookup "ptp.domain" = some (.int 0) := rfl
  have hafter : (Nmos.step (boot {} siteNode.config) (setDomainTo (.str "seven"))).config.lookup "ptp.domain" =
      some (.str "seven") := rfl
  simp only [hbefore, hafter] at hkept
  cases hkept

/-- A key that is no pointer, after a domain that is a number. -/
def setTilde : Served := ⟨{}, .config (.ok (.obj [("device~label", .str "studio")]))⟩

theorem setDomainTo_tolerated : Tolerated (setDomainTo (.int 7)) (boot {} siteNode.config) := by
  refine Or.inl ⟨fun pre item post hsplit => ?_, ⟨fun _ h => ?_, fun js hjs => ?_, fun js hjs => ?_⟩⟩
  · cases pre with
    | nil =>
      obtain ⟨rfl, -⟩ := List.cons.inj hsplit
      exact ⟨["ptp", "domain"], rfl, (assign_ok_iff (v := .null)).mp rfl⟩
    | cons first pre => simp [items] at hsplit
  · cases h
  · obtain ⟨-, rfl⟩ := Prod.mk.inj (List.mem_singleton.mp hjs)
    rfl
  · simp [items] at hjs

theorem setTilde_tolerated (s : Node) : Tolerated setTilde s := by
  refine Or.inr (Or.inl ⟨[], _, [], rfl, by simp, fun tokens htokens => ?_⟩)
  cases htokens

theorem setDomainTo_setTilde_no_effect :
    Admits (fun pre e => NoEffectAt (run Nmos.step (boot {} siteNode.config) pre) e) [setDomainTo (.int 7), setTilde] :=
  noEffect_of_tolerated {} siteNode.config _
    (admits_cons.mpr ⟨setDomainTo_tolerated, admits_cons.mpr ⟨setTilde_tolerated _, admits_nil⟩⟩)

end Site

end PiAudioNode.Web
