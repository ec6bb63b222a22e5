import PiAudioNode.Lib.Run
import PiAudioNode.Nmos.Connection

/-! Whether the active endpoint of the sender tells what the engine does. -/
namespace PiAudioNode.Nmos
open Lib Lib.Json Lib.Act Rtp

/-- A parameter set tells of its leg: enabled if and only if the engine sends on it,
and then with the address and the port its packets go to. -/
def Tells (s : RtpSender) (i : Nat) (members : Members) : Prop :=
  (findKey "rtp_enabled" members = some (.bool true) ↔ s.SendsOn i) ∧
    (s.SendsOn i → ∃ sAddress, findKey "destination_ip" members = some (.str sAddress) ∧
      inetPton sAddress = some s.vSockets[i]!.address ∧
      findKey "destination_port" members = some (.int s.vSockets[i]!.nPort.toNat))

/-- The active endpoint tells the truth about every leg. -/
def ActiveTrue (node : Node) : Prop :=
  ∀ i members, (senderActiveNow node).transportParams[i]? = some members → Tells node.sender i members

/-- The engine's sockets are those of its legs, the documents have two parameter sets. -/
structure Paired (node : Node) : Prop where
  opened : node.sender.Opened
  staged : node.api.senderStaged.transportParams.length = 2
  active : node.api.senderActive.transportParams.length = 2

section Invariant

theorem Paired.congr {s s' : Node} (h : Paired s) (hsender : s'.sender = s.sender) (hapi : s'.api = s.api) :
    Paired s' := by
  obtain ⟨hopened, hstaged, hactive⟩ := h
  exact ⟨by rwa [hsender], by rwa [hapi], by rwa [hapi]⟩

theorem paired_update {f : Node → Node} (hsender : ∀ s, (f s).sender = s.sender) (hapi : ∀ s, (f s).api = s.api) :
    Frames (Carries Paired) (modify f : NodeAct Unit) := Frames.update fun s h => h.congr (hsender s) (hapi s)

theorem paired_setConfig (sPath : String) (value : Json) :
    Frames (Carries Paired) (ofUpdate (Node.setConfig sPath value)) :=
  Frames.ofUpdate fun s h => h.congr (s.setConfig_sender sPath value) (s.setConfig_api sPath value)

theorem paired_setLegEnabled (i : Nat) (bEnabled : Bool) :
    Frames (Carries Paired) (modify (Node.setLegEnabled i bEnabled) : NodeAct Unit) :=
  Frames.update fun _ h => ⟨h.opened.setLegEnabled i bEnabled, h.staged, h.active⟩

theorem paired_applySender (sys : System) : Frames (Carries Paired) (ofUpdate (Node.applySender sys)) := by
  refine Frames.ofUpdate fun node h => ?_
  rw [Node.applySender]
  split
  · exact h
  · exact ⟨RtpSender.opened_stop _, h.staged, h.active⟩
  · refine ⟨?_, h.staged, h.active⟩
    exact RtpSender.opened_configure _ _ _ _ _ _ _

theorem paired_restart (sys : System) : Frames (Carries Paired) (do
    ofUpdate (Node.applySender sys)
    modify Node.bumpVersion : NodeAct Unit) :=
  (paired_applySender sys).bind fun _ => paired_update (fun _ => rfl) fun _ => rfl

theorem paired_applyItem (item : String × Json) : Frames (Carries Paired) (applyItem item) := by
  unfold applyItem
  split_ifs
  · exact (Frames.attempt _).bind fun nDomain => paired_update (f := Node.setDomain nDomain) (fun _ => rfl) fun _ => rfl
  · exact (Frames.attempt _).bind fun _ => Frames.pure _
  · exact Frames.pure _

theorem paired_postConfig (sys : System) (body : Except JsonError Json) :
    Frames (Carries Paired) (postConfig sys body) := by
  refine (Frames.attempt _).bind fun jsUpdates => (Frames.ofUpdate fun _ h => ?_).bind fun _ => ?_
  · exact h.congr rfl rfl
  · simp only [applied]
    split_ifs
    · refine (Frames.update fun _ h => ?_).bind fun _ => paired_update (fun _ => rfl) fun _ => rfl
      exact ⟨(h.opened.setLegEnabled 0 _).setLegEnabled 1 _, h.staged, h.active⟩
    · refine Frames.bind ?_ fun _ => Frames.forM paired_applyItem _
      unfold restartSender
      split_ifs
      · exact paired_restart sys
      · exact Frames.pure _

theorem paired_activateSender (sys : System) : Frames (Carries Paired) (activateSender sys) := by
  have destination (params : List Members) (i : Nat) : Frames (Carries Paired) (applyDestination params i) := by
    unfold applyDestination
    split
    · exact paired_setConfig _ _
    · exact Frames.pure _
  have port (params : List Members) : Frames (Carries Paired) (applyPort params) := by
    unfold applyPort
    split
    · split_ifs
      · exact (Frames.attempt _).bind fun _ => paired_setConfig _ _
      · exact Frames.pure _
    · exact Frames.pure _
  have leg (params : List Members) (i : Nat) : Frames (Carries Paired) (applyLeg params i) := by
    unfold applyLeg
    split
    · exact (paired_setConfig _ _).bind fun _ => paired_setLegEnabled i _
    · exact Frames.pure _
  have commit : Frames (Carries Paired) (modify (commitSender sys) : NodeAct Unit) :=
    Frames.update fun _ h => ⟨h.opened, h.staged, by simpa [commitSender] using h.staged⟩
  refine Frames.get.bind fun _ => (Frames.attempt _).bind fun bEnable => (destination _ 0).bind fun _ =>
    (destination _ 1).bind fun _ => (port _).bind fun _ => (leg _ 0).bind fun _ => (leg _ 1).bind fun _ =>
    commit.bind fun _ => ?_
  exact ((paired_setConfig _ _).bind fun _ => paired_restart sys).bind
    fun _ => paired_update (fun _ => rfl) fun _ => rfl

theorem paired_activateReceiver (sys : System) : Frames (Carries Paired) (activateReceiver sys) := by
  have callback (bEnable : Bool) (session : Option SdpSession) (node : Node) :
      (onReceiver sys bEnable session node).sender = node.sender ∧
        (onReceiver sys bEnable session node).api = node.api := by
    unfold onReceiver
    split <;> exact ⟨rfl, rfl⟩
  refine Frames.get.bind fun _ => (Frames.attempt _).bind fun bEnable => (Frames.ofUpdate fun _ h => ?_).bind fun _ =>
    Frames.get.bind fun _ => (Frames.attempt _).bind fun session => ?_
  · exact ⟨h.opened, h.staged, h.active⟩
  · have hcall := paired_update (f := onReceiver sys bEnable session) (fun s => (callback _ _ s).1)
      fun s => (callback _ _ s).2
    exact hcall.bind fun _ => paired_update (fun _ => rfl) fun _ => rfl

theorem paired_handlePatch (sys : System) (endpoint : Endpoint) (body : Except JsonError Json) :
    Frames (Carries Paired) (handlePatch sys endpoint body) := by
  refine (Frames.attempt _).bind fun jsPatch => ?_
  cases endpoint with
  | sender =>
    refine (Frames.update fun s h => ?_).bind fun _ => (Frames.attempt _).bind fun bActivate => ?_
    · exact ⟨h.opened, (length_mergeParams _ _).trans h.staged, h.active⟩
    · split_ifs
      · exact paired_activateSender sys
      · exact Frames.pure _
  | receiver =>
    refine (Frames.update fun s h => ?_).bind fun _ => (Frames.attempt _).bind fun bActivate => ?_
    · exact ⟨h.opened, h.staged, h.active⟩
    · split_ifs
      · exact paired_activateReceiver sys
      · exact Frames.pure _

theorem paired_step (node : Node) (e : Served) (h : Paired node) : Paired (step node e) := by
  rw [step, serve]
  cases e.request with
  | config body => exact paired_postConfig e.sys body node h
  | patch endpoint body => exact paired_handlePatch e.sys endpoint body node h

theorem paired_boot (sys : System) (config : Config) : Paired (boot sys config) :=
  paired_applySender sys (.fresh config) ⟨fun hrun => absurd hrun Bool.false_ne_true, rfl, rfl⟩

theorem paired_run (sys : System) (config : Config) (es : List Served) : Paired (run step (boot sys config) es) :=
  invariant (I := Paired) (paired_boot sys config) paired_step es

end Invariant

/-- The engine has a leg for every parameter set while it runs, and sends only to
addresses it could read. -/
structure Shown (s : RtpSender) : Prop where
  bothLegs : s.bRun → 2 ≤ s.vLegs.length
  address : ∀ i, s.SendsOn i → ∃ leg, s.vLegs[i]? = some leg ∧ (inetPton leg.sMulticast).isSome

section Endpoint
variable {node : Node} {i : Nat} {leg : SenderLeg}

theorem sendsOn_iff (h : node.sender.Opened) (hrun : node.sender.bRun) (hleg : node.sender.vLegs[i]? = some leg) :
    node.sender.SendsOn i ↔ node.sender.legEnabled i := by
  have hlt : i < node.sender.vSockets.length := by
    rw [h hrun, List.length_map]
    exact (List.getElem?_eq_some_iff.mp hleg).1
  exact ⟨fun hs => hs.2.2, fun henabled => ⟨hrun, hlt, henabled⟩⟩

theorem sendsOn_leg (h : node.sender.Opened) (hs : node.sender.SendsOn i) :
    i < 2 ∧ ∃ leg, node.sender.vLegs[i]? = some leg ∧
      node.sender.vSockets[i]! = RtpSender.destination node.sender.nPort leg := by
  have hlt : i < node.sender.vLegs.length := by
    have := hs.2.1
    rwa [h hs.1, List.length_map] at this
  refine ⟨?_, _, List.getElem?_eq_getElem hlt, ?_⟩
  · by_contra hge
    have henabled := hs.2.2
    rw [RtpSender.legEnabled, Vector.getElem?_eq_none (by omega)] at henabled
    cases henabled
  · rw [h hs.1, getElem!_pos _ _ (by simpa using hlt), List.getElem_map]

theorem showParams_running (hrun : node.sender.bRun) (hleg : node.sender.vLegs[i]? = some leg) (members : Members) :
    findKey "rtp_enabled" (showParams node i members) = some (.bool (node.sender.legEnabled i)) ∧
      findKey "destination_ip" (showParams node i members) = some (.str leg.sMulticast) ∧
      findKey "destination_port" (showParams node i members) = some (.int node.sender.nPort.toNat) := by
  simp only [showParams, hrun, if_true, hleg]
  refine ⟨findKey_setKey_self .., ?_, ?_⟩
  · rw [findKey_setKey_ne (by decide), findKey_setKey_ne (by decide), findKey_setKey_self]
  · rw [findKey_setKey_ne (by decide), findKey_setKey_self]

/-- A parameter set without a leg shows whether the engine runs. -/
theorem showParams_idle (hleg : node.sender.bRun → node.sender.vLegs[i]? = none) (members : Members) :
    findKey "rtp_enabled" (showParams node i members) = some (.bool node.sender.bRun) := by
  have hnone : (if node.sender.bRun then node.sender.vLegs[i]? else none) = none := by
    split_ifs with hrun
    · exact hleg hrun
    · rfl
  simp only [showParams, hnone]
  exact findKey_setKey_self ..

theorem tells_of_shown (h : node.sender.Opened) (hshown : Shown node.sender) (hi : i < 2) (members : Members) :
    Tells node.sender i (showParams node i members) := by
  by_cases hrun : node.sender.bRun
  · have hlt : i < node.sender.vLegs.length := lt_of_lt_of_le hi (hshown.bothLegs hrun)
    obtain ⟨henabled, hip, hport⟩ := showParams_running hrun (List.getElem?_eq_getElem hlt) members
    refine ⟨?_, fun hs => ?_⟩
    · rw [sendsOn_iff h hrun (List.getElem?_eq_getElem hlt), henabled]
      simp
    · obtain ⟨-, leg, hleg, hsocket⟩ := sendsOn_leg h hs
      obtain ⟨leg', hleg', haddress⟩ := hshown.address i hs
      obtain rfl := Option.some.inj (hleg.symm.trans hleg')
      obtain rfl : leg = node.sender.vLegs[i] := by simpa [List.getElem?_eq_getElem hlt] using hleg.symm
      obtain ⟨address, haddress⟩ := Option.isSome_iff_exists.mp haddress
      refine ⟨_, hip, ?_, ?_⟩
      · simp [hsocket, RtpSender.destination, haddress]
      · rw [hport, hsocket]
        rfl
  · have hidle := showParams_idle (i := i) (fun hr => absurd hr hrun) members
    refine ⟨?_, fun hs => absurd hs.1 hrun⟩
    rw [hidle]
    exact ⟨fun he => absurd (by simpa using he) hrun, fun hs => absurd hs.1 hrun⟩

/-- What the endpoint shows of a parameter set. -/
theorem senderActiveNow_getElem (h : Paired node) (hi : i < 2) : ∃ members,
    (senderActiveNow node).transportParams[i]? = some (showParams node i members) := by
  have hlt : i < node.api.senderActive.transportParams.length := by
    rw [h.active]
    exact hi
  exact ⟨node.api.senderActive.transportParams[i], by simp [senderActiveNow, List.getElem?_eq_getElem hlt]⟩

theorem activeTrue_iff (h : Paired node) : ActiveTrue node ↔ Shown node.sender := by
  constructor
  · intro htrue
    refine ⟨fun hrun => ?_, fun i hs => ?_⟩
    · by_contra hone
      have hnone : node.sender.vLegs[1]? = none := List.getElem?_eq_none (by omega)
      obtain ⟨members, hmembers⟩ := senderActiveNow_getElem h (show 1 < 2 by omega)
      have hsends := (htrue 1 _ hmembers).1.mp (by rw [showParams_idle (fun _ => hnone), hrun])
      obtain ⟨-, leg, hleg, -⟩ := sendsOn_leg h.opened hsends
      rw [hnone] at hleg
      cases hleg
    · obtain ⟨hi, leg, hleg, -⟩ := sendsOn_leg h.opened hs
      obtain ⟨members, hmembers⟩ := senderActiveNow_getElem h hi
      obtain ⟨sAddress, hip, haddress, -⟩ := (htrue i _ hmembers).2 hs
      rw [(showParams_running hs.1 hleg members).2.1] at hip
      obtain rfl := Json.str.inj (Option.some.inj hip)
      exact ⟨leg, hleg, Option.isSome_iff_exists.mpr ⟨_, haddress⟩⟩
  · intro hshown i members hmembers
    have hi : i < 2 := by
      have hlt := (List.getElem?_eq_some_iff.mp hmembers).1
      simpa [senderActiveNow, h.active] using hlt
    obtain ⟨m, hm⟩ := senderActiveNow_getElem h hi
    obtain rfl := Option.some.inj (hmembers.symm.trans hm)
    exact tells_of_shown h.opened hshown hi m

end Endpoint

/-- After any requests, the active endpoint tells the truth exactly while a running
engine has both legs and sends to addresses it could read. -/
theorem activeTrue_iff_shown (sys : System) (config : Config) (es : List Served) :
    ActiveTrue (run step (boot sys config) es) ↔ Shown (run step (boot sys config) es).sender :=
  activeTrue_iff (paired_run sys config es)

section Site

/-- A node on one network that sends from the start. -/
def oneLegNode : Node := boot {} (Config.load (some (.obj [
  ("network", .obj [("interface_secondary", .str "")]), ("sender", .obj [("enabled", .bool true)])]))).2

theorem oneLegNode_shows_second : ¬ ActiveTrue oneLegNode := by
  intro h
  have hset : (findKey "rtp_enabled" ((senderActiveNow oneLegNode).transportParams[1]?.getD [])) = some (.bool true) :=
    rfl
  have hsends := (h 1 _ rfl).1.mp hset
  exact absurd hsends (by decide +kernel)

end Site

end PiAudioNode.Nmos
