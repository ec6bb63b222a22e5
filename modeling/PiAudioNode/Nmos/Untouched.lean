import PiAudioNode.Lib.Run
import PiAudioNode.Nmos.Connection

/-! What an activation of the sender leaves alone: the settings whose transport
parameter no controller has sent. -/
namespace PiAudioNode.Nmos
open Lib Lib.Json Lib.Act Rtp

/-- The transport parameters that reach the configuration. -/
inductive SenderParam where
  | primary
  | secondary
  | port
  | leg1
  | leg2
  deriving DecidableEq

namespace SenderParam

/-- The parameter set it is in. -/
def index : SenderParam → Nat
  | .primary => 0
  | .secondary => 1
  | .port => 0
  | .leg1 => 0
  | .leg2 => 1

def key : SenderParam → String
  | .primary => "destination_ip"
  | .secondary => "destination_ip"
  | .port => "destination_port"
  | .leg1 => "rtp_enabled"
  | .leg2 => "rtp_enabled"

/-- The name of the sender setting it is written to. -/
def setting : SenderParam → String
  | .primary => "multicast_primary"
  | .secondary => "multicast_secondary"
  | .port => "port"
  | .leg1 => "leg1_enabled"
  | .leg2 => "leg2_enabled"

def configKey : SenderParam → String
  | .primary => "sender.multicast_primary"
  | .secondary => "sender.multicast_secondary"
  | .port => "sender.port"
  | .leg1 => "sender.leg1_enabled"
  | .leg2 => "sender.leg2_enabled"

/-- What the staged document starts with. -/
def staged : SenderParam → Json
  | .primary => .null
  | .secondary => .null
  | .port => .int 5004
  | .leg1 => .bool true
  | .leg2 => .bool true

/-- The leg whose live switch goes with it. -/
def leg? : SenderParam → Option Nat
  | .leg1 => some 0
  | .leg2 => some 1
  | _ => none

end SenderParam

/-- The patch has the parameter, with whatever value. -/
def Patch.Contains (e : Patch) (p : SenderParam) : Prop :=
  ∃ jsPatch js, e.body = .ok jsPatch ∧ (patchedParams jsPatch)[p.index]? = some js ∧ p.key ∈ js.items.map Prod.fst

/-- The switch the configuration has for a leg. -/
def configuredSwitch (c : Config) (i : Nat) : Bool := c.getValue getBool (legKey i) true

/-- The setting of a parameter is as before, its live switch too unless it has taken
the configured value. -/
structure Kept (p : SenderParam) (s s' : Node) : Prop where
  setting : s'.config.lookup p.configKey = s.config.lookup p.configKey
  switch : ∀ i, p.leg? = some i →
    s'.sender.legEnabled i = s.sender.legEnabled i ∨ s'.sender.legEnabled i = configuredSwitch s.config i

/-- Patches that leave every setting alone whose parameter they do not have. -/
def LeavesUnpatched (node : Node) (es : List Patch) : Prop :=
  ∀ p, (∀ e ∈ es, ¬ e.Contains p) → Kept p node (run (Patch.step .sender) node es)

section Frame
variable {p : SenderParam} {s s' : Node}

theorem pointer_configKey (p : SenderParam) : Config.pointer p.configKey = .ok ["sender", p.setting] := by
  cases p <;> rfl

theorem isName_sender : IsName "sender" := ⟨'s', _, rfl, by decide, by decide⟩

theorem legKey_of_leg? {i : Nat} (h : p.leg? = some i) : legKey i = p.configKey := by
  cases p <;> simp_all [SenderParam.leg?] <;> subst h <;> rfl

theorem configuredSwitch_congr (h : s'.config.lookup p.configKey = s.config.lookup p.configKey) {i : Nat}
    (hi : p.leg? = some i) : configuredSwitch s'.config i = configuredSwitch s.config i := by
  rw [configuredSwitch, configuredSwitch, Config.getValue, Config.getValue, legKey_of_leg? hi, h]

theorem Kept.refl (p : SenderParam) (s : Node) : Kept p s s := ⟨rfl, fun _ _ => Or.inl rfl⟩

theorem Kept.trans {s'' : Node} (h : Kept p s s') (h' : Kept p s' s'') : Kept p s s'' := by
  refine ⟨h'.setting.trans h.setting, fun i hi => ?_⟩
  rcases h'.switch i hi with hsame | hconf
  · rw [hsame]
    exact h.switch i hi
  · rw [hconf, configuredSwitch_congr h.setting hi]
    exact Or.inr rfl

/-- An unpatched parameter that an activation writes has its staged default already. -/
def Harmless (p : SenderParam) (s : Node) : Prop := p.staged = .null ∨ s.config.lookup p.configKey = some p.staged

/-- Kept, where nothing but the staged default could be written. -/
def Stays (p : SenderParam) (s s' : Node) : Prop := Harmless p s → Kept p s s'

theorem Kept.harmless (h : Kept p s s') (hs : Harmless p s) : Harmless p s' := by
  rw [Harmless, h.setting]
  exact hs

instance : Std.Refl (Stays p) := ⟨fun s _ => Kept.refl p s⟩

instance : IsTrans Node (Stays p) :=
  ⟨fun _ _ _ h h' hs => (h hs).trans (h' ((h hs).harmless hs))⟩

theorem kept_of_sender_eq (hconfig : s'.config = s.config) (hsender : s'.sender = s.sender) : Kept p s s' :=
  ⟨by rw [hconfig], fun i _ => Or.inl (by rw [hsender])⟩

theorem frames_update {f : Node → Node} (hconfig : ∀ s, (f s).config = s.config)
    (hsender : ∀ s, (f s).sender = s.sender) : Frames (Stays p) (modify f : NodeAct Unit) :=
  Frames.update fun s _ => kept_of_sender_eq (hconfig s) (hsender s)

theorem kept_setConfig_ne {sPath sName : String} (hpath : Config.pointer sPath = .ok ["sender", sName])
    (hname : IsName sName) (hne : p.setting ≠ sName) (value : Json) (s : Node) :
    Kept p s (s.setConfig sPath value).2 := by
  refine ⟨?_, fun _ _ => Or.inl (by rw [Node.setConfig_sender])⟩
  rw [Node.setConfig_config]
  exact Config.lookup_setValue_ne hpath (pointer_configKey p) isName_sender hname hne value s.config

theorem isName_setting (p : SenderParam) : IsName p.setting := by
  cases p <;> exact ⟨_, _, rfl, by decide, by decide⟩

theorem stays_setConfig {q : SenderParam} {value : Json} (h : p = q → value = p.staged ∧ value ≠ .null) (s : Node) :
    Stays p s (s.setConfig q.configKey value).2 := by
  intro hs
  by_cases hpq : p = q
  · obtain ⟨rfl, hnull⟩ := h hpq
    subst hpq
    have hlookup := hs.resolve_left hnull
    refine ⟨?_, fun _ _ => Or.inl (by rw [Node.setConfig_sender])⟩
    rw [Node.setConfig_config, (Config.setValue_present hlookup p.staged).2, hlookup]
  · refine kept_setConfig_ne (pointer_configKey q) (isName_setting q) ?_ value s
    cases p <;> cases q <;> first | exact absurd rfl hpq | decide

theorem frames_applyDestination {params : List Members} {q : SenderParam} {i : Nat}
    (hkey : destinationKey i = q.configKey) (hset : p = q → param params i "destination_ip" = some .null) :
    Frames (Stays p) (applyDestination params i) := by
  unfold applyDestination
  split
  · next text hparam =>
    rw [hkey]
    refine Frames.ofUpdate (stays_setConfig fun hpq => ?_)
    rw [hset hpq] at hparam
    cases hparam
  · exact Frames.pure _

theorem frames_applyPort {params : List Members}
    (hset : p = .port → param params 0 "destination_port" = some (.int 5004)) :
    Frames (Stays p) (applyPort params) := by
  unfold applyPort
  split
  · next js hparam =>
    split_ifs
    · have hint (hpq : p = .port) : js.getInt = .ok 5004 := by
        rw [hset hpq] at hparam
        obtain rfl := Option.some.inj hparam
        rfl
      intro s
      cases hget : js.getInt with
      | error e => exact Std.Refl.refl s
      | ok nPort =>
        refine stays_setConfig (q := .port) (fun hpq => ?_) s
        subst hpq
        obtain rfl := Except.ok.inj (hget.symm.trans (hint rfl))
        exact ⟨rfl, by simp⟩
    · exact Frames.pure _
  · exact Frames.pure _

theorem frames_applyLeg {params : List Members} {q : SenderParam} {i : Nat} (hleg : q.leg? = some i)
    (hset : p = q → param params i "rtp_enabled" = some (.bool true)) : Frames (Stays p) (applyLeg params i) := by
  unfold applyLeg
  split
  · next b hparam =>
    have htrue (hpq : p = q) : b = true := by
      rw [hset hpq] at hparam
      exact (Json.bool.inj (Option.some.inj hparam)).symm
    rw [legKey_of_leg? hleg]
    refine (Frames.ofUpdate (stays_setConfig fun hpq => ?_)).bind fun _ =>
      Frames.update fun s hs => ⟨rfl, fun j hj => ?_⟩
    · subst hpq
      rw [htrue rfl]
      cases p <;> simp_all [SenderParam.leg?, SenderParam.staged]
    · simp only [Node.setLegEnabled, RtpSender.legEnabled_setLegEnabled]
      split_ifs with hi
      · have hpq : p = q := by
          cases p <;> cases q <;> simp_all [SenderParam.leg?] <;> omega
        subst hpq
        have hconf : configuredSwitch s.config j = true := by
          have hlookup : s.config.lookup p.configKey = some (.bool true) := by
            cases p <;> simp_all [SenderParam.leg?, SenderParam.staged, Harmless]
          rw [configuredSwitch, Config.getValue, legKey_of_leg? hj, hlookup]
          rfl
        rw [htrue rfl, hconf]
        exact Or.inr rfl
      · exact Or.inl rfl
  · exact Frames.pure _

/-- The legs take the switches the configuration has for them. -/
theorem configuredLegs_bEnabled {c : Config} {js : Json} {vInterfaces : List String} {vLegs : List SenderLeg}
    (hjs : c.json.at? "sender" = .ok js) (h : configuredLegs js vInterfaces = .ok vLegs) {i : Nat} {leg : SenderLeg}
    (hleg : vLegs[i]? = some leg) : leg.bEnabled = configuredSwitch c i := by
  have enabled {sInterface sKey sDefault : String} {k : Nat} {x : SenderLeg} {sName : String}
      (hpath : Config.pointer (legKey k) = .ok ["sender", sName])
      (hx : configuredLeg js sInterface sKey sDefault sName = .ok x) : x.bEnabled = configuredSwitch c k := by
    obtain ⟨sMulticast, -, hx⟩ := bind_eq_ok.mp hx
    obtain ⟨b, hb, hx⟩ := bind_eq_ok.mp hx
    obtain rfl := Except.ok.inj hx
    exact (Config.getValue_eq_of_value hjs hpath hb).symm
  obtain ⟨leg1, h1, h⟩ := bind_eq_ok.mp h
  cases hsecond : vInterfaces[1]? with
  | none =>
    rw [hsecond] at h
    obtain rfl := Except.ok.inj h
    cases i with
    | zero =>
      obtain rfl := Option.some.inj hleg
      exact enabled rfl h1
    | succ i => simp at hleg
  | some sInterface =>
    rw [hsecond] at h
    obtain ⟨leg2, h2, h⟩ := bind_eq_ok.mp h
    obtain rfl := Except.ok.inj h
    match i, hleg with
    | 0, hleg =>
      obtain rfl := Option.some.inj hleg
      exact enabled rfl h1
    | 1, hleg =>
      obtain rfl := Option.some.inj hleg
      exact enabled rfl h2

theorem senderSettings_bEnabled {sys : System} {c : Config} {x : SenderSettings}
    (h : senderSettings sys c = .ok (some x)) {i : Nat} {leg : SenderLeg} (hleg : x.vLegs[i]? = some leg) :
    leg.bEnabled = configuredSwitch c i := by
  obtain ⟨js, hjs, h⟩ := bind_eq_ok.mp h
  obtain ⟨bEnabled, -, h⟩ := bind_eq_ok.mp h
  split_ifs at h
  · obtain ⟨vLegs, hlegs, h⟩ := bind_eq_ok.mp h
    obtain ⟨nPort, -, h⟩ := bind_eq_ok.mp h
    obtain ⟨nPayloadType, -, h⟩ := bind_eq_ok.mp h
    obtain ⟨nPacketTimeUs, -, h⟩ := bind_eq_ok.mp h
    obtain ⟨pSource, -, h⟩ := bind_eq_ok.mp h
    obtain rfl := Option.some.inj (Except.ok.inj h)
    exact configuredLegs_bEnabled hjs hlegs hleg
  · cases h

theorem kept_applySender (sys : System) (s : Node) : Kept p s (s.applySender sys).2 := by
  rw [Node.applySender]
  split
  · exact Kept.refl p s
  · exact ⟨rfl, fun i _ => Or.inl rfl⟩
  · next x hx =>
    refine ⟨rfl, fun i _ => ?_⟩
    rcases RtpSender.configure_legEnabled sys.toSenderSystem x.vLegs x.nPort x.nPayloadType x.nPacketTimeUs
      (some x.pSource) s.sender i with hsame | ⟨leg, hleg, hswitch⟩
    · exact Or.inl hsame
    · exact Or.inr (hswitch.trans (senderSettings_bEnabled hx hleg))

theorem frames_onSender (sys : System) (bEnable : Bool) : Frames (Stays p) (onSender sys bEnable) := by
  refine (Frames.ofUpdate fun s _ => ?_).bind fun _ => (Frames.ofUpdate fun s _ => kept_applySender sys s).bind fun _ =>
    frames_update (fun _ => rfl) fun _ => rfl
  have hpath : Config.pointer "sender.enabled" = .ok ["sender", "enabled"] := rfl
  refine kept_setConfig_ne hpath ⟨'e', _, rfl, by decide, by decide⟩ ?_ _ s
  cases p <;> decide

/-- An activation from a document that has the default of the parameter. -/
theorem frames_activateFrom (sys : System) {staged : SenderDoc}
    (hset : param staged.transportParams p.index p.key = some p.staged) :
    Frames (Stays p) (activateFrom sys staged) := by
  refine (Frames.attempt _).bind fun bEnable => ?_
  refine (frames_applyDestination (q := .primary) rfl fun hpq => by subst hpq; exact hset).bind fun _ => ?_
  refine (frames_applyDestination (q := .secondary) rfl fun hpq => by subst hpq; exact hset).bind fun _ => ?_
  refine (frames_applyPort fun hpq => by subst hpq; exact hset).bind fun _ => ?_
  refine (frames_applyLeg (q := .leg1) rfl fun hpq => by subst hpq; exact hset).bind fun _ => ?_
  refine (frames_applyLeg (q := .leg2) rfl fun hpq => by subst hpq; exact hset).bind fun _ => ?_
  refine (frames_update (f := commitSender sys) (fun _ => rfl) fun _ => rfl).bind fun _ => ?_
  exact (frames_onSender sys bEnable).bind fun _ => frames_update (fun _ => rfl) fun _ => rfl

end Frame

section Run
variable {p : SenderParam}

/-- The parameter sets of the staged document are as before. -/
def SameParams (s s' : Node) : Prop := s'.api.senderStaged.transportParams = s.api.senderStaged.transportParams

instance : Std.Refl SameParams := ⟨fun _ => rfl⟩

instance : IsTrans Node SameParams := ⟨fun _ _ _ h h' => h'.trans h⟩

theorem sameParams_setConfig (sPath : String) (value : Json) :
    Frames SameParams (ofUpdate (Node.setConfig sPath value)) :=
  Frames.ofUpdate fun s => by rw [SameParams, Node.setConfig_api]

theorem sameParams_applySender (sys : System) : Frames SameParams (ofUpdate (Node.applySender sys)) := by
  refine Frames.ofUpdate fun s => ?_
  rw [Node.applySender]
  split <;> rfl

theorem sameParams_activateFrom (sys : System) (staged : SenderDoc) : Frames SameParams (activateFrom sys staged) := by
  have destination (i : Nat) : Frames SameParams (applyDestination staged.transportParams i) := by
    unfold applyDestination
    split
    · exact sameParams_setConfig _ _
    · exact Frames.pure _
  have port : Frames SameParams (applyPort staged.transportParams) := by
    unfold applyPort
    split
    · split_ifs
      · exact (Frames.attempt _).bind fun _ => sameParams_setConfig _ _
      · exact Frames.pure _
    · exact Frames.pure _
  have leg (i : Nat) : Frames SameParams (applyLeg staged.transportParams i) := by
    unfold applyLeg
    split
    · exact (sameParams_setConfig _ _).bind fun _ => Frames.update fun _ => rfl
    · exact Frames.pure _
  have callback (bEnable : Bool) : Frames SameParams (onSender sys bEnable) :=
    (sameParams_setConfig _ _).bind fun _ => (sameParams_applySender sys).bind fun _ => Frames.update fun _ => rfl
  refine (Frames.attempt _).bind fun bEnable => (destination 0).bind fun _ => (destination 1).bind fun _ =>
    port.bind fun _ => (leg 0).bind fun _ => (leg 1).bind fun _ => ?_
  have commit : Frames SameParams (modify (commitSender sys) : NodeAct Unit) := Frames.update fun _ => rfl
  exact commit.bind fun _ => (callback bEnable).bind fun _ => Frames.update fun _ => rfl

theorem param_mergeParams {sKey : String} : ∀ {i : Nat} {params : List Members} {jss : List Json},
    (∀ js, jss[i]? = some js → sKey ∉ js.items.map Prod.fst) →
      param (mergeParams params jss) i sKey = param params i sKey
  | i, [], jss, _ => by cases jss <;> rfl
  | i, staged :: rest, [], _ => rfl
  | 0, staged :: rest, js :: jss, h => findKey_mergeItems (h js rfl) staged
  | i + 1, staged :: rest, js :: jss, h => (param_mergeParams h : param (mergeParams rest jss) i sKey = param rest i sKey)

/-- The patch comes as far as the first write of an activation. -/
def Patch.Applies (e : Patch) (node : Node) : Prop :=
  ∃ jsPatch, e.body = .ok jsPatch ∧ activates jsPatch = .ok true ∧
    (node.api.senderStaged.stage jsPatch).masterEnable.isBoolean

/-- One patch without the parameter. -/
theorem kept_step {s : Node} {e : Patch} (hnot : ¬ e.Contains p)
    (hset : param s.api.senderStaged.transportParams p.index p.key = some p.staged)
    (h : e.Applies s → Harmless p s) :
    Kept p s (Patch.step .sender s e) ∧
      param (Patch.step .sender s e).api.senderStaged.transportParams p.index p.key = some p.staged := by
  rw [Patch.step, handlePatch]
  cases hbody : e.body with
  | error err => exact ⟨Kept.refl p s, hset⟩
  | ok jsPatch =>
    have hstage : param (s.api.senderStaged.stage jsPatch).transportParams p.index p.key = some p.staged := by
      rw [← hset]
      exact param_mergeParams fun js hjs hkey => hnot ⟨jsPatch, js, hbody, hjs, hkey⟩
    have hkept : Kept p s (stageSender jsPatch s) := kept_of_sender_eq rfl rfl
    rw [exec_bind_ok (exec_attempt ..), exec_patchSender]
    cases hact : activates jsPatch with
    | error err => exact ⟨hkept, hstage⟩
    | ok b =>
      cases b with
      | false => exact ⟨hkept, hstage⟩
      | true =>
        refine ⟨?_, (congrArg (param · p.index p.key) (sameParams_activateFrom ..)).trans hstage⟩
        by_cases hbool : (s.api.senderStaged.stage jsPatch).masterEnable.isBoolean
        · have hs := h ⟨jsPatch, hbody, hact, hbool⟩
          exact hkept.trans (frames_activateFrom e.sys hstage _ (hkept.harmless hs))
        · rw [exec_activateFrom_refused hbool]
          exact hkept

/-- What holds of the parameters not patched so far. -/
def Unpatched (node : Node) (pre : List Patch) (s : Node) : Prop :=
  ∀ p, (∀ f ∈ pre, ¬ f.Contains p) →
    Kept p node s ∧ param s.api.senderStaged.transportParams p.index p.key = some p.staged

/-- Patches leave alone every setting whose parameter they do not have, if whenever
one of them is applied the settings not patched so far have the staged defaults. -/
theorem leavesUnpatched_of_harmless (node : Node) (es : List Patch) (hstart : node.api = {})
    (h : Admits (fun pre e => e.Applies (run (Patch.step .sender) node pre) →
      ∀ p, (∀ f ∈ pre ++ [e], ¬ f.Contains p) → Harmless p node) es) :
    LeavesUnpatched node es := by
  have hrun : Unpatched node es (run (Patch.step .sender) node es) := by
    refine history_invariant ?_ ?_ es h
    · intro p _
      exact ⟨Kept.refl p node, by rw [hstart]; cases p <;> rfl⟩
    · intro pre e hok ih p hp
      obtain ⟨hkept, hset⟩ := ih p fun f hf => hp f (List.mem_append_left _ hf)
      have hstep := kept_step (hp e (by simp)) hset fun happlies => hkept.harmless (hok happlies p hp)
      exact ⟨hkept.trans hstep.1, hstep.2⟩
  intro p hp
  exact (hrun p hp).1

end Run

section Site

/-- A node that sends to a port of its own, on its first leg alone. -/
def siteNode : Node :=
  .fresh (Config.load (some (.obj [("sender", .obj [("leg2_enabled", .bool false), ("port", .int 6004)])]))).2

def activateNow : String × Json := ("activation", .obj [("mode", .str "activate_immediate")])

/-- A controller switches the sender on and asks for nothing else. -/
def switchOn : Patch := ⟨{}, .ok (.obj [activateNow, ("master_enable", .bool true)])⟩

theorem switchOn_overwrites : ¬ LeavesUnpatched siteNode [switchOn] := by
  intro h
  have hkept := h .port fun e he => by
    obtain rfl := List.mem_singleton.mp he
    rintro ⟨jsPatch, js, hbody, hjs, -⟩
    obtain rfl := Except.ok.inj hbody
    cases hjs
  have hbefore : siteNode.config.lookup SenderParam.port.configKey = some (.int 6004) := rfl
  have hafter :
      (run (Patch.step .sender) siteNode [switchOn]).config.lookup SenderParam.port.configKey = some (.int 5004) := rfl
  have hsame := hkept.setting
  rw [hbefore, hafter] at hsame
  simp at hsame

/-- The same with the port and the second switch in the patch. -/
def switchOnHere : Patch :=
  ⟨{}, .ok (.obj [activateNow, ("master_enable", .bool true), ("transport_params", .arr [
    .obj [("destination_port", .int 6004)], .obj [("rtp_enabled", .bool false)]])])⟩

theorem switchOnHere_leavesUnpatched : LeavesUnpatched siteNode [switchOnHere] := by
  refine leavesUnpatched_of_harmless siteNode [switchOnHere] rfl ?_
  intro pre e post hsplit _ p hp
  have hmem : switchOnHere ∈ pre ++ [e] := by
    have hone : pre = [] ∧ e = switchOnHere := by
      cases pre with
      | nil => exact ⟨rfl, (List.cons.inj hsplit).1.symm⟩
      | cons f pre => simpa using (List.cons.inj hsplit).2
    simp [hone]
  cases p with
  | primary => exact Or.inl rfl
  | secondary => exact Or.inl rfl
  | leg1 => exact Or.inr rfl
  | port => exact absurd ⟨_, _, rfl, rfl, by decide⟩ (hp switchOnHere hmem)
  | leg2 => exact absurd ⟨_, _, rfl, rfl, by decide⟩ (hp switchOnHere hmem)

end Site

end PiAudioNode.Nmos
