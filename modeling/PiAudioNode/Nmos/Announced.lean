import PiAudioNode.Nmos.Registration
import PiAudioNode.Nmos.Resources
import PiAudioNode.Web.Update

/-! Whether every change of a resource is followed by a new version: what the
builders read, and what the events of the daemon change of it. -/
namespace PiAudioNode.Nmos
open Lib Lib.Json Lib.Act Rtp Web

/-- A resource as it is built with a version stamp. -/
def resource (site : Site) (sVersion : String) (node : Node) : Resource → Except JsonError Json
  | .node => .ok (buildSelf site sVersion node)
  | .device => .ok (buildDevice site sVersion node)
  | .source => .ok (buildSource site sVersion node)
  | .flow => .ok (buildFlow site sVersion node)
  | .sender => .ok (buildSender site sVersion node)
  | .receiver => buildReceiver site sVersion node

/-- What the daemon handles: a request, or what the PTP client receives and does by itself. -/
inductive DaemonEvent where
  | request (e : Served)
  | ptp (e : Ptp.ClockEvent)

def daemonStep (node : Node) : DaemonEvent → Node
  | .request e => step node e
  | .ptp e => { node with clock := (Ptp.clockStep node.clock e).1 }

/-- A resource that is built differently after the event, whatever its version stamp
says, comes with a new version of the node. -/
def AnnouncedAt (site : Site) (node : Node) (e : DaemonEvent) : Prop :=
  ∀ sVersion res, resource site sVersion (daemonStep node e) res ≠ resource site sVersion node res →
    node.nVersion < (daemonStep node e).nVersion

/-- The texts of the configuration that are displayed. -/
structure Labels where
  sDevice : String
  sDescription : String
  sSender : String

def labels (c : Config) : Labels := ⟨deviceLabel c, deviceDescription c, senderLabel c⟩

/-- The grandmaster that is followed, and whether the clock is locked to it. -/
def followed (c : Ptp.PtpClock) : Option (String × Bool) :=
  if Ptp.grandmasterId c.toPtpClient ≠ "" then some (Ptp.grandmasterId c.toPtpClient, c.bSynced) else none

/-- Everything the builders read of the node. -/
structure Displayed where
  labels : Labels
  followed : Option (String × Bool)
  bSending : Bool
  bReceiving : Bool
  senderId : Except JsonError Json

def displayed (node : Node) : Displayed :=
  ⟨labels node.config, followed node.clock, node.sender.bRun, node.receiver.bRun, receiverSenderId node⟩

theorem clock_congr {c c' : Ptp.PtpClock} (h : followed c' = followed c) : clock c' = clock c := by
  simp only [followed] at h
  simp only [clock]
  by_cases hgm : Ptp.grandmasterId c.toPtpClient = ""
  · rw [if_neg (not_not.mpr hgm)] at h
    have hgm' : Ptp.grandmasterId c'.toPtpClient = "" := by
      by_contra hne
      rw [if_pos hne] at h
      cases h
    rw [if_neg (not_not.mpr hgm), if_neg (not_not.mpr hgm')]
  · rw [if_pos hgm] at h
    have hgm' : Ptp.grandmasterId c'.toPtpClient ≠ "" := by
      intro heq
      rw [if_neg (not_not.mpr heq)] at h
      cases h
    rw [if_pos hgm'] at h
    obtain ⟨hid, hlock⟩ := Prod.mk.inj (Option.some.inj h)
    rw [if_pos hgm, if_pos hgm', hid, hlock]

/-- The builders read nothing else. -/
theorem resource_congr {node node' : Node} (h : displayed node' = displayed node) (site : Site) (sVersion : String)
    (res : Resource) : resource site sVersion node' res = resource site sVersion node res := by
  have hlabel : deviceLabel node'.config = deviceLabel node.config := congrArg (·.labels.sDevice) h
  have hdescription : deviceDescription node'.config = deviceDescription node.config :=
    congrArg (·.labels.sDescription) h
  have hsender : senderLabel node'.config = senderLabel node.config := congrArg (·.labels.sSender) h
  have hclock : clock node'.clock = clock node.clock := clock_congr (congrArg (·.followed) h)
  have hsending : node'.sender.bRun = node.sender.bRun := congrArg (·.bSending) h
  have hreceiving : node'.receiver.bRun = node.receiver.bRun := congrArg (·.bReceiving) h
  have hid : receiverSenderId node' = receiverSenderId node := congrArg (·.senderId) h
  cases res with
  | node => simp only [resource, buildSelf, hlabel, hdescription, hclock]
  | device => simp only [resource, buildDevice, hlabel]
  | source => simp only [resource, buildSource, hlabel]
  | flow => simp only [resource, buildFlow, hlabel]
  | sender => simp only [resource, buildSender, hsender, hsending]
  | receiver => simp only [resource, buildReceiver, hlabel, hreceiving, hid]

/-- The version only grows, and where it stays nothing that is displayed has changed. -/
structure Announces (s s' : Node) : Prop where
  le : s.nVersion ≤ s'.nVersion
  same : s'.nVersion = s.nVersion → displayed s' = displayed s

instance : Std.Refl Announces := ⟨fun _ => ⟨le_rfl, fun _ => rfl⟩⟩

instance : IsTrans Node Announces where
  trans _ _ _ h h' := ⟨h.le.trans h'.le, fun heq =>
    (h'.same (by have := h.le; have := h'.le; omega)).trans (h.same (by have := h.le; have := h'.le; omega))⟩

theorem announces_of_displayed {s s' : Node} (hversion : s'.nVersion = s.nVersion) (h : displayed s' = displayed s) :
    Announces s s' := ⟨hversion.ge, fun _ => h⟩

theorem announces_of_lt {s s' : Node} (h : s.nVersion < s'.nVersion) : Announces s s' :=
  ⟨h.le, fun heq => absurd heq h.ne'⟩

theorem announcedAt_of_announces {site : Site} {node : Node} {e : DaemonEvent}
    (h : Announces node (daemonStep node e)) : AnnouncedAt site node e := by
  intro sVersion res hdiffers
  refine lt_of_le_of_ne h.le fun heq => hdiffers ?_
  exact resource_congr (h.same heq.symm) site sVersion res

section Requests
variable {sys : System} {s : Node}

/-- A write below the sender leaves what is below the device. -/
theorem labels_setValue {sPath sName : String} (hpath : Config.pointer sPath = .ok ["sender", sName])
    (hname : IsName sName) (hne : sName ≠ "label") (value : Json) (c : Config) :
    labels (c.setValue sPath value).2 = labels c := by
  have hdevice : Config.pointer "device.label" = .ok ["device", "label"] := rfl
  have hdescription : Config.pointer "device.description" = .ok ["device", "description"] := rfl
  have hsender : Config.pointer "sender.label" = .ok ["sender", "label"] := rfl
  have hother (sOther : String) {sKey : String} (h : Config.pointer sOther = .ok ["device", sKey]) (sDefault : String) :
      (c.setValue sPath value).2.getValue getString sOther sDefault = c.getValue getString sOther sDefault := by
    rw [Config.getValue, Config.getValue, Config.lookup_setValue_group hpath h isName_sender (by decide) value c]
  have hown : (c.setValue sPath value).2.getValue getString "sender.label" "" =
      c.getValue getString "sender.label" "" := by
    rw [Config.getValue, Config.getValue, Config.lookup_setValue_ne hpath hsender isName_sender hname hne.symm value c]
  simp only [labels, deviceLabel, deviceDescription, senderLabel, hother _ hdevice, hother _ hdescription, hown]

/-- Another configuration with the same labels. -/
theorem announces_config {c : Config} (h : labels c = labels s.config) : Announces s { s with config := c } :=
  announces_of_displayed rfl (congrArg (fun l => { displayed s with labels := l }) h)

theorem announces_setConfig {sPath sName : String} (hpath : Config.pointer sPath = .ok ["sender", sName])
    (hname : IsName sName) (hne : sName ≠ "label") (value : Json) :
    Frames Announces (ofUpdate (Node.setConfig sPath value)) :=
  Frames.ofUpdate fun s => announces_config (labels_setValue hpath hname hne value s.config)

theorem announces_setLegEnabled (i : Nat) (bEnabled : Bool) :
    Frames Announces (modify (Node.setLegEnabled i bEnabled) : NodeAct Unit) :=
  Frames.update fun _ => announces_of_displayed rfl rfl

/-- The sender is applied and the version counted up, or neither. -/
theorem announces_restart (sys : System) : Frames Announces (do
    ofUpdate (Node.applySender sys)
    modify Node.bumpVersion : NodeAct Unit) := by
  intro s
  cases hsettings : senderSettings sys s.config with
  | error e =>
    have happly : s.applySender sys = (.error e, s) := by rw [Node.applySender, hsettings]
    rw [exec_bind_error (by rw [exec_ofUpdate, happly])]
    exact Std.Refl.refl s
  | ok x =>
    obtain ⟨s', happly, hversion⟩ : ∃ s', s.applySender sys = (.ok (), s') ∧ s'.nVersion = s.nVersion := by
      rw [Node.applySender, hsettings]
      cases x with
      | none => exact ⟨_, rfl, rfl⟩
      | some x => exact ⟨_, rfl, rfl⟩
    rw [exec_bind_ok (by rw [exec_ofUpdate, happly]), exec_modify]
    refine announces_of_lt ?_
    rw [Node.bumpVersion, hversion]
    exact Nat.lt_succ_self _

theorem announces_bump : Frames Announces (modify Node.bumpVersion : NodeAct Unit) :=
  Frames.update fun _ => announces_of_lt (Nat.lt_succ_self _)

/-- An activation of the sender announces whatever it changes, also where it fails. -/
theorem announces_activateFrom (sys : System) (staged : SenderDoc) : Frames Announces (activateFrom sys staged) := by
  have write (p : SenderParam) (value : Json) : Frames Announces (ofUpdate (Node.setConfig p.configKey value)) :=
    announces_setConfig (pointer_configKey p) (isName_setting p) (by cases p <;> decide) value
  have destination (p : SenderParam) (i : Nat) (hkey : destinationKey i = p.configKey) :
      Frames Announces (applyDestination staged.transportParams i) := by
    unfold applyDestination
    split
    · rw [hkey]
      exact write p _
    · exact Frames.pure _
  have port : Frames Announces (applyPort staged.transportParams) := by
    unfold applyPort
    split
    · split_ifs
      · exact (Frames.attempt _).bind fun nPort => write .port (.int nPort)
      · exact Frames.pure _
    · exact Frames.pure _
  have leg (p : SenderParam) (i : Nat) (hkey : legKey i = p.configKey) :
      Frames Announces (applyLeg staged.transportParams i) := by
    unfold applyLeg
    split
    · rw [hkey]
      exact (write p _).bind fun _ => announces_setLegEnabled i _
    · exact Frames.pure _
  have commit : Frames Announces (modify (commitSender sys) : NodeAct Unit) :=
    Frames.update fun _ => announces_of_displayed rfl rfl
  have enable (bEnable : Bool) : Frames Announces (ofUpdate (Node.setConfig "sender.enabled" (.bool bEnable))) :=
    have hname : IsName "enabled" := ⟨'e', _, rfl, by decide, by decide⟩
    announces_setConfig rfl hname (by decide) _
  exact (Frames.attempt _).bind fun bEnable => (destination .primary 0 rfl).bind fun _ =>
    (destination .secondary 1 rfl).bind fun _ => port.bind fun _ => (leg .leg1 0 rfl).bind fun _ =>
    (leg .leg2 1 rfl).bind fun _ => commit.bind fun _ =>
    ((enable bEnable).bind fun _ => announces_restart sys).bind fun _ => announces_bump

/-- The sender id that is displayed while a document is the active one. -/
def subscription (doc : ReceiverDoc) : Except JsonError Json :=
  doc.masterEnable.getBool.map fun bEnable => if bEnable then doc.senderId else .null

/-- Everything that is read of a document on the way to the receiver has its type. -/
def Completes (staged : ReceiverDoc) : Prop :=
  ∃ bEnable, staged.masterEnable = .bool bEnable ∧
    (∀ members ∈ staged.transportParams, ∀ js, findKey "interface_ip" members = some js → js.isString) ∧
    (bEnable → (∀ sSdp, findKey "data" staged.transportFile ≠ some (.str sSdp)) →
      ∀ members ∈ staged.transportParams, ManualReadable members)

/-- An activation of the receiver is refused at once, completes, or does not change the
subscription. -/
def CoversReceiver (s : Node) (jsPatch : Json) : Prop :=
  activates jsPatch = .ok true →
    ¬ (s.api.receiverStaged.stage jsPatch).masterEnable.isBoolean ∨
      Completes (s.api.receiverStaged.stage jsPatch) ∨
      subscription (s.api.receiverStaged.stage jsPatch) = receiverSenderId s

/-- An activation that is begun counts the version up, or fails with the document
committed. -/
theorem exec_activateReceiver_cases {bEnable : Bool} (henable : s.api.receiverStaged.masterEnable = .bool bEnable) :
    (∃ s', (activateReceiver sys).exec s = (.ok (), s') ∧ s.nVersion < s'.nVersion) ∨
      ∃ e, (activateReceiver sys).exec s = (.error e, (commitReceiver sys s).2) := by
  have henabled : s.api.receiverStaged.masterEnable.getBool = .ok bEnable := by rw [henable, getBool]
  cases hinterfaces : (resolveInterfaces sys.hostIps s.api.receiverStaged.transportParams).1 with
  | error e =>
    have hcommit : commitReceiver sys s = (.error e, (commitReceiver sys s).2) := Prod.ext hinterfaces rfl
    refine Or.inr ⟨e, ?_⟩
    rw [activateReceiver, exec_bind_ok (exec_get s), exec_bind_ok (by rw [exec_attempt, henabled]),
      exec_bind_error (by rw [exec_ofUpdate, hcommit])]
  | ok =>
    have hcommit : commitReceiver sys s = (.ok (), (commitReceiver sys s).2) := Prod.ext hinterfaces rfl
    cases hsession : receiverSession bEnable (commitReceiver sys s).2.api.receiverActive with
    | error e =>
      refine Or.inr ⟨e, ?_⟩
      rw [activateReceiver, exec_bind_ok (exec_get s), exec_bind_ok (by rw [exec_attempt, henabled]),
        exec_bind_ok (by rw [exec_ofUpdate, hcommit]), exec_bind_ok (exec_get _),
        exec_bind_error (by rw [exec_attempt, hsession])]
    | ok session =>
      refine Or.inl ⟨_, exec_activateReceiver henable hinterfaces hsession, ?_⟩
      have hcallback : (onReceiver sys bEnable session (commitReceiver sys s).2).nVersion = s.nVersion := by
        unfold onReceiver
        split <;> rfl
      rw [Node.bumpVersion, hcallback]
      exact Nat.lt_succ_self _

theorem announces_patchReceiver {jsPatch : Json} (h : CoversReceiver s jsPatch) :
    Announces s ((patchReceiver sys jsPatch).exec s).2 := by
  have hstage : Announces s (stageReceiver jsPatch s) := announces_of_displayed rfl rfl
  rw [exec_patchReceiver]
  cases hact : activates jsPatch with
  | error e => exact hstage
  | ok b =>
    cases b with
    | false => exact hstage
    | true =>
      by_cases hbool : (s.api.receiverStaged.stage jsPatch).masterEnable.isBoolean
      · obtain ⟨bEnable, henable⟩ : ∃ b, (s.api.receiverStaged.stage jsPatch).masterEnable = .bool b := by
          cases hjs : (s.api.receiverStaged.stage jsPatch).masterEnable with
          | bool b => exact ⟨b, rfl⟩
          | _ => simp [hjs, isBoolean] at hbool
        have hcases := @exec_activateReceiver_cases sys (stageReceiver jsPatch s) bEnable henable
        rcases hcases with ⟨s', hok, hlt⟩ | ⟨e, herror⟩
        · simp only [hok]
          exact announces_of_lt hlt
        · simp only [herror]
          rcases (h hact).resolve_left (not_not.mpr hbool) with ⟨b, hb, hinterfaces, hmanual⟩ | hsame
          · have hok : ((activateReceiver sys).exec (stageReceiver jsPatch s)).1 = .ok () :=
              activateReceiver_ok hb hinterfaces hmanual
            rw [herror] at hok
            cases hok
          · refine announces_of_displayed rfl ?_
            exact congrArg (fun id => { displayed s with senderId := id }) hsame
      · have hrefused : ((activateReceiver sys).exec (stageReceiver jsPatch s)).2 = stageReceiver jsPatch s :=
          exec_activateReceiver_refused hbool
        simp only [hrefused]
        exact hstage

end Requests

section Settings
variable {sys : System} {s : Node} {jsUpdates : Json}

def HasSenderKey (jsChanged : Json) : Prop :=
  (jsChanged.items.map Prod.fst).any ("sender.".toList.isPrefixOf ·.toList)

/-- The update is written, and its callback comes as far as the new version. -/
def Bumps (sys : System) (c : Config) (jsUpdates : Json) : Prop :=
  ∃ c', c.update jsUpdates = (.ok (), c') ∧
    (OnlyLegToggle jsUpdates ∨ HasSenderKey jsUpdates ∧ SenderReadable sys c')

/-- No grandmaster is followed, or the domain stays. -/
def SameDomain (c : Ptp.PtpClock) (items : List (String × Json)) : Prop :=
  followed c = none ∨ ∀ js nDomain, ("ptp.domain", js) ∈ items → js.getInt = .ok nDomain → nDomain = c.nDomain

/-- Nothing that is displayed is updated. -/
structure Quiet (s : Node) (jsUpdates : Json) : Prop where
  labels : labels (s.config.update jsUpdates).2 = labels s.config
  domain : (s.config.update jsUpdates).1 = .ok () → ¬ HasSenderKey jsUpdates → SameDomain s.clock jsUpdates.items

/-- A later item of an update does not take the version back. -/
theorem version_applyItem (n : Nat) (item : String × Json) :
    Frames (Carries fun s : Node => n < s.nVersion) (applyItem item) := by
  unfold applyItem
  split_ifs
  · exact (Frames.attempt _).bind fun _ => Frames.update fun _ h => h
  · exact (Frames.attempt _).bind fun _ => Frames.pure _
  · exact Frames.pure _

theorem followed_setDomain_none {c : Ptp.PtpClock} (h : followed c = none) (nDomain : Int) :
    followed (Ptp.setDomain c nDomain) = none := by
  rw [Ptp.setDomain]
  split_ifs
  · exact h
  · rfl

theorem setDomain_self (c : Ptp.PtpClock) : Ptp.setDomain c c.nDomain = c := if_pos rfl

/-- One item of an update that keeps the domain. -/
theorem applyItem_same {item : String × Json} {items : List (String × Json)} (h : SameDomain s.clock (item :: items)) :
    displayed ((applyItem item).exec s).2 = displayed s ∧ ((applyItem item).exec s).2.nVersion = s.nVersion ∧
      SameDomain ((applyItem item).exec s).2.clock items := by
  have htail : SameDomain s.clock items :=
    h.imp_right fun h js nDomain hmem => h js nDomain (List.mem_cons_of_mem _ hmem)
  rw [applyItem]
  split_ifs with hkey hother
  · cases hn : item.2.getInt with
    | error e =>
      rw [exec_bind_error (by rw [exec_attempt])]
      exact ⟨rfl, rfl, htail⟩
    | ok nDomain =>
      rw [exec_bind_ok (by rw [exec_attempt]), exec_modify]
      rcases h with hnone | hsame
      · have hafter := followed_setDomain_none hnone nDomain
        exact ⟨congrArg (fun f => { displayed s with followed := f }) (hafter.trans hnone.symm), rfl, Or.inl hafter⟩
      · obtain rfl := hsame item.2 nDomain (by simp [← hkey]) hn
        rw [Node.setDomain, setDomain_self]
        exact ⟨rfl, rfl, htail⟩
  · cases hs : item.2.getString with
    | error e =>
      rw [exec_bind_error (by rw [exec_attempt])]
      exact ⟨rfl, rfl, htail⟩
    | ok sDevice =>
      rw [exec_bind_ok (by rw [exec_attempt]), exec_pure]
      exact ⟨rfl, rfl, htail⟩
  · exact ⟨rfl, rfl, htail⟩

theorem announces_items : ∀ {items : List (String × Json)} {s : Node}, SameDomain s.clock items →
    Announces s ((items.forM applyItem).exec s).2
  | [], s, _ => Std.Refl.refl s
  | item :: items, s, h => by
    obtain ⟨hdisplayed, hversion, htail⟩ := applyItem_same h
    have hfirst := announces_of_displayed hversion hdisplayed
    rw [List.forM, exec_bind]
    cases hrun : (applyItem item).exec s with
    | mk result s' =>
      rw [hrun] at hfirst htail
      cases result with
      | error e => exact hfirst
      | ok => exact IsTrans.trans _ _ _ hfirst (announces_items htail)

/-- A callback that restarts the sender counts the version up first. -/
theorem version_applied (hlegs : ¬ OnlyLegToggle jsUpdates) (hsender : HasSenderKey jsUpdates)
    (hok : ∃ x, senderSettings sys s.config = .ok x) : s.nVersion < ((applied sys jsUpdates).exec s).2.nVersion := by
  unfold OnlyLegToggle at hlegs
  unfold HasSenderKey at hsender
  obtain ⟨s', happly, hversion⟩ : ∃ s', s.applySender sys = (.ok (), s') ∧ s'.nVersion = s.nVersion := by
    obtain ⟨x, hx⟩ := hok
    rw [Node.applySender, hx]
    cases x with
    | none => exact ⟨_, rfl, rfl⟩
    | some x => exact ⟨_, rfl, rfl⟩
  have hrestart : (restartSender sys (jsUpdates.items.map Prod.fst)).exec s = (.ok (), s'.bumpVersion) := by
    rw [restartSender, if_pos hsender, exec_bind_ok (by rw [exec_ofUpdate, happly]), exec_modify]
  rw [applied, if_neg hlegs, exec_bind_ok hrestart]
  refine Frames.forM (version_applyItem s.nVersion) jsUpdates.items s'.bumpVersion ?_
  rw [Node.bumpVersion, hversion]
  exact Nat.lt_succ_self _

theorem exec_applied_legs (h : OnlyLegToggle jsUpdates) :
    (applied sys jsUpdates).exec s = (.ok (), (applyLegSwitches s).bumpVersion) := by
  unfold OnlyLegToggle at h
  rw [applied, if_pos h, exec_bind_ok (exec_modify _ _), exec_modify]

/-- The callback of an update that keeps the domain, unless it restarts the sender. -/
theorem announces_applied (h : ¬ HasSenderKey jsUpdates → SameDomain s.clock jsUpdates.items) :
    Announces s ((applied sys jsUpdates).exec s).2 := by
  by_cases hlegs : OnlyLegToggle jsUpdates
  · rw [exec_applied_legs hlegs]
    exact announces_of_lt (Nat.lt_succ_self _)
  · by_cases hsender : HasSenderKey jsUpdates
    · cases hsettings : senderSettings sys s.config with
      | ok x => exact announces_of_lt (version_applied hlegs hsender ⟨x, hsettings⟩)
      | error e =>
        unfold OnlyLegToggle at hlegs
        unfold HasSenderKey at hsender
        have happly : s.applySender sys = (.error e, s) := by rw [Node.applySender, hsettings]
        have hrestart : (restartSender sys (jsUpdates.items.map Prod.fst)).exec s = (.error e, s) := by
          rw [restartSender, if_pos hsender, exec_bind_error (by rw [exec_ofUpdate, happly])]
        rw [applied, if_neg hlegs, exec_bind_error hrestart]
        exact Std.Refl.refl s
    · have hdomain := h hsender
      unfold OnlyLegToggle at hlegs
      unfold HasSenderKey at hsender
      rw [applied, if_neg hlegs, restartSender, if_neg hsender, exec_bind_ok (exec_pure _ _)]
      exact announces_items hdomain

theorem announces_postConfig (h : Bumps sys s.config jsUpdates ∨ Quiet s jsUpdates) :
    Announces s ((postConfig sys (.ok jsUpdates)).exec s).2 := by
  rw [postConfig, exec_bind_ok (by rw [exec_attempt])]
  rcases h with ⟨c', hupdate, hbumps⟩ | hquiet
  · rw [exec_bind_ok (by rw [exec_ofUpdate, Node.updateConfig, hupdate])]
    refine announces_of_lt ?_
    by_cases hlegs : OnlyLegToggle jsUpdates
    · rw [exec_applied_legs hlegs]
      exact Nat.lt_succ_self _
    · obtain ⟨hsender, hread⟩ := hbumps.resolve_left hlegs
      exact version_applied (s := { s with config := c' }) hlegs hsender (senderSettings_readable hread)
  · cases hupdate : s.config.update jsUpdates with
    | mk result c' =>
      have hlabels : labels c' = labels s.config := by
        have h := hquiet.labels
        rwa [hupdate] at h
      have hwritten : Announces s { s with config := c' } := announces_config hlabels
      cases result with
      | error e =>
        rw [exec_bind_error (by rw [exec_ofUpdate, Node.updateConfig, hupdate])]
        exact hwritten
      | ok =>
        rw [exec_bind_ok (by rw [exec_ofUpdate, Node.updateConfig, hupdate])]
        refine IsTrans.trans _ _ _ hwritten (announces_applied fun hsender => ?_)
        exact hquiet.domain (by rw [hupdate]) hsender

end Settings

section Run

/-- What comes with a new version, or changes nothing that is displayed. -/
def Covered (s : Node) : DaemonEvent → Prop
  | .ptp e => followed (Ptp.clockStep s.clock e).1 = followed s.clock
  | .request e =>
    match e.request with
    | .config (.ok jsUpdates) => Bumps e.sys s.config jsUpdates ∨ Quiet s jsUpdates
    | .patch .receiver (.ok jsPatch) => CoversReceiver s jsPatch
    | _ => True

theorem announces_of_covered {s : Node} {e : DaemonEvent} (h : Covered s e) : Announces s (daemonStep s e) := by
  cases e with
  | ptp e => exact announces_of_displayed rfl (congrArg (fun f => { displayed s with followed := f }) h)
  | request e =>
    obtain ⟨sys, request⟩ := e
    cases request with
    | config body =>
      cases body with
      | error err => exact Std.Refl.refl s
      | ok jsUpdates => exact announces_postConfig h
    | patch endpoint body =>
      cases body with
      | error err => exact Std.Refl.refl s
      | ok jsPatch =>
        cases endpoint with
        | receiver => exact announces_patchReceiver h
        | sender =>
          have hstage : Announces s (stageSender jsPatch s) := announces_of_displayed rfl rfl
          change Announces s ((patchSender sys jsPatch).exec s).2
          rw [exec_patchSender]
          cases hact : activates jsPatch with
          | error err => exact hstage
          | ok b =>
            cases b with
            | false => exact hstage
            | true => exact IsTrans.trans _ _ _ hstage (announces_activateFrom sys _ _)

/-- In every run of the daemon, from any state, every change of a resource comes with
a new version as long as each event is covered. -/
theorem announced_of_covered (site : Site) (s : Node) (es : List DaemonEvent)
    (h : Admits (fun pre e => Covered (run daemonStep s pre) e) es) :
    Admits (fun pre e => AnnouncedAt site (run daemonStep s pre) e) es :=
  fun pre e post hsplit => announcedAt_of_announces (announces_of_covered (h pre e post hsplit))

end Run

section Site

def rename : DaemonEvent := .request ⟨{}, .config (.ok (.obj [("device.label", .str "studio")]))⟩

/-- A new label of the device is displayed by all resources, and the version stays. -/
theorem rename_unannounced (site : Site) : (run daemonStep siteNode [rename]).nVersion = siteNode.nVersion ∧
    resource site "" (run daemonStep siteNode [rename]) .device ≠ resource site "" siteNode .device := by
  refine ⟨rfl, fun h => ?_⟩
  have hbefore : deviceLabel siteNode.config = "pi-audio-node" := rfl
  have hafter : deviceLabel (run daemonStep siteNode [rename]).config = "studio" := rfl
  have hlabel := congrArg (fun r : Except JsonError Json => r.toOption.bind (Json.member "label")) h
  simp only [resource, buildDevice, hbefore, hafter, Except.toOption, Option.bind_some, member, findKey] at hlabel
  simp at hlabel

theorem rename_not_announced : ¬ AnnouncedAt {} siteNode rename := by
  intro h
  obtain ⟨hversion, hdiffers⟩ := rename_unannounced {}
  exact absurd (h "" .device hdiffers) hversion.not_gt

def switchLeg : DaemonEvent := .request ⟨{}, .config (.ok (.obj [("sender.leg1_enabled", .bool false)]))⟩

def delayReq : DaemonEvent := .ptp (.sendDelayReq 5)

theorem switchLeg_delayReq_announced :
    Admits (fun pre e => AnnouncedAt {} (run daemonStep siteNode pre) e) [switchLeg, delayReq] := by
  refine announced_of_covered {} siteNode _ (admits_cons.mpr ⟨?_, admits_cons.mpr ⟨rfl, admits_nil⟩⟩)
  exact Or.inl ⟨_, rfl, Or.inl ⟨Bool.false_ne_true, rfl⟩⟩

end Site

end PiAudioNode.Nmos
