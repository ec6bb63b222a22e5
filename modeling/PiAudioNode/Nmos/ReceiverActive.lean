import PiAudioNode.Lib.Run
import PiAudioNode.Nmos.Connection

/-! Whether the active endpoint of the receiver describes the session the engine
was handed. -/
namespace PiAudioNode.Nmos
open Lib Lib.Json Lib.Act Rtp

def isOn (members : Members) : Bool :=
  match findKey "rtp_enabled" members with
  | some (.bool b) => b
  | _ => false

def MatchesLeg (members : Members) (leg : SdpLeg) : Prop :=
  findKey "multicast_ip" members = some (.str leg.sMulticast) ∧
    findKey "destination_port" members = some (.int leg.nPort.toNat)

/-- The parameter sets that are on are the legs of the session, one for one and in order. -/
def Describes (params : List Members) (session : SdpSession) : Prop :=
  List.Forall₂ MatchesLeg (params.filter isOn) session.vLegs

/-- The source a patch names last: the data of a transport file, or parameter sets. -/
inductive Latest where
  | file (js : Json)
  | params

def patchedData (jsPatch : Json) : Option Json := findKey "data" (mergeItems [] (.obj (patchedFile jsPatch)))

def Patch.latest (e : Patch) (before : Option Latest) : Option Latest :=
  match e.body with
  | .error _ => before
  | .ok jsPatch =>
    match patchedData jsPatch with
    | some js => some (.file js)
    | none => if ((jsPatch.member "transport_params").bind elements).isSome then some .params else before

/-- The source that patches named most recently. -/
def latest (es : List Patch) : Option Latest := es.foldl (fun before e => e.latest before) none

/-- The session is the one of the most recent source. -/
def UsesLatest (es : List Patch) (staged : ReceiverDoc) (session : SdpSession) : Prop :=
  match latest es with
  | some (.file (.str sSdp)) => parseSdp sSdp = some session
  | _ => Describes staged.transportParams session

/-- The patch activates the receiver from this document and hands a session to the engine. -/
structure Hands (s : Node) (e : Patch) (staged : ReceiverDoc) (session : SdpSession) : Prop where
  patched : ∃ jsPatch, e.body = .ok jsPatch ∧ activates jsPatch = .ok true ∧ s.api.receiverStaged.stage jsPatch = staged
  enabled : staged.masterEnable = .bool true
  interfaces : (resolveInterfaces e.sys.hostIps staged.transportParams).1 = .ok ()
  handed : receiverSession true
    { staged with transportParams := (resolveInterfaces e.sys.hostIps staged.transportParams).2 } = .ok (some session)

/-- After every activation that hands a session on, the active endpoint describes it,
and it is the session of the most recent source. -/
def ActiveDescribes (node : Node) (es : List Patch) : Prop :=
  Admits (fun pre e => ∀ staged session, Hands (run (Patch.step .receiver) node pre) e staged session →
    Describes (Patch.step .receiver (run (Patch.step .receiver) node pre) e).api.receiverActive.transportParams session ∧
      UsesLatest (pre ++ [e]) staged session) es

/-- An address and a port the engine can use. -/
def Complete (members : Members) : Prop :=
  (∃ sMulticast, findKey "multicast_ip" members = some (.str sMulticast)) ∧
    ∃ nPort : BitVec 16, findKey "destination_port" members = some (.int nPort.toNat)

/-- Where the transport file holds text, the parameter sets already have what it
describes; otherwise those that are on are complete. -/
def Accurate (staged : ReceiverDoc) : Prop :=
  match findKey "data" staged.transportFile with
  | some (.str sSdp) => ∀ session, parseSdp sSdp = some session → Describes staged.transportParams session
  | _ => ∀ members ∈ staged.transportParams, isOn members → Complete members

section Parameters
variable {params params' : List Members} {members members' : Members}

/-- Two parameter sets that differ in nothing but the interface. -/
def SameButInterface (members members' : Members) : Prop :=
  ∀ sKey, sKey ≠ "interface_ip" → findKey sKey members' = findKey sKey members

theorem resolveInterfaces_same : ∀ (vIps : List String) (params : List Members),
    List.Forall₂ SameButInterface params (resolveInterfaces vIps params).2
  | _, [] => .nil
  | vIps, members :: rest => by
    rw [resolveInterfaces]
    split
    · exact List.forall₂_same.mpr fun _ _ _ _ => rfl
    · next sIp _ =>
      refine .cons ?_ (resolveInterfaces_same vIps.tail rest)
      cases vIps with
      | nil => exact fun _ _ => rfl
      | cons sHost vIps =>
        by_cases hauto : sIp = "auto"
        · intro sKey hne
          simp only [hauto, if_true]
          exact findKey_setKey_ne hne _ _
        · intro sKey _
          simp only [hauto, if_false]

theorem SameButInterface.isOn (h : SameButInterface members members') : isOn members' = isOn members := by
  rw [Nmos.isOn, Nmos.isOn, h _ (by decide)]

theorem SameButInterface.matchesLeg (h : SameButInterface members members') (leg : SdpLeg) :
    MatchesLeg members' leg ↔ MatchesLeg members leg := by
  rw [MatchesLeg, MatchesLeg, h _ (by decide), h _ (by decide)]

theorem SameButInterface.manualLeg (h : SameButInterface members members') :
    manualLeg members' = manualLeg members := by
  simp only [Nmos.manualLeg, value, h "rtp_enabled" (by decide), h "multicast_ip" (by decide),
    h "destination_port" (by decide)]

theorem describes_congr (h : List.Forall₂ SameButInterface params params') (session : SdpSession) :
    Describes params' session ↔ Describes params session := by
  rw [Describes, Describes]
  generalize session.vLegs = legs
  induction h generalizing legs with
  | nil => rfl
  | cons hsame hrest ih =>
    rw [List.filter_cons, List.filter_cons, hsame.isOn]
    split_ifs
    · cases legs with
      | nil => simp
      | cons leg legs => rw [List.forall₂_cons, List.forall₂_cons, hsame.matchesLeg, ih]
    · exact ih legs

theorem manualSession_congr (h : List.Forall₂ SameButInterface params params') :
    manualSession params' = manualSession params := by
  have hlegs : params'.mapM manualLeg = params.mapM manualLeg := by
    induction h with
    | nil => rfl
    | cons hsame hrest ih => rw [List.mapM_cons, List.mapM_cons, hsame.manualLeg, ih]
  rw [manualSession, manualSession, hlegs]

/-- What a parameter set with a switch stands for. -/
theorem manualLeg_cases {leg : Option SdpLeg} (hswitch : (findKey "rtp_enabled" members).isSome)
    (h : manualLeg members = .ok leg) :
    (isOn members = false ∧ leg = none) ∨
      (isOn members = true ∧ leg = none ∧ ∀ s, findKey "multicast_ip" members ≠ some (.str s)) ∨
      ∃ x, isOn members = true ∧ leg = some x ∧ findKey "multicast_ip" members = some (.str x.sMulticast) ∧
        (MatchesLeg members x ↔ Complete members) := by
  obtain ⟨b, hb, h⟩ := bind_eq_ok.mp h
  have hon : isOn members = b := by
    obtain ⟨js, hjs⟩ := Option.isSome_iff_exists.mp hswitch
    have hget : js.getBool = .ok b := by simpa [value, hjs] using hb
    cases js <;> simp_all [getBool, isOn]
  cases b with
  | false =>
    obtain rfl := Except.ok.inj h
    exact Or.inl ⟨hon, rfl⟩
  | true =>
    cases hip : findKey "multicast_ip" members with
    | none =>
      simp only [hip, if_true] at h
      obtain rfl := Except.ok.inj h
      exact Or.inr (Or.inl ⟨hon, rfl, by simp⟩)
    | some js =>
      cases js with
      | str sMulticast =>
        simp only [hip, if_true] at h
        obtain ⟨nPort, hport, h⟩ := bind_eq_ok.mp h
        obtain rfl := Except.ok.inj h
        refine Or.inr (Or.inr ⟨_, hon, rfl, rfl, ?_⟩)
        constructor
        · rintro ⟨-, hmatch⟩
          exact ⟨⟨_, hip⟩, _, hmatch⟩
        · rintro ⟨-, n, hn⟩
          refine ⟨hip, ?_⟩
          have hget : nPort = n.toNat := by
            have hvalue : (Json.int n.toNat).getInt = .ok nPort := by simpa [value, hn] using hport
            obtain rfl := Except.ok.inj hvalue
            have := n.isLt
            exact Int.bmod_eq_of_le (by omega) (by omega)
          rw [hn, hget]
          simp
      | _ =>
        simp only [hip, if_true] at h
        obtain rfl := Except.ok.inj h
        exact Or.inr (Or.inl ⟨hon, rfl, by simp⟩)

theorem length_manualLegs : ∀ {params : List Members} {legs : List (Option SdpLeg)},
    params.mapM manualLeg = .ok legs → (∀ members ∈ params, (findKey "rtp_enabled" members).isSome) →
      legs.reduceOption.length ≤ (params.filter isOn).length
  | [], legs, h, _ => by
    obtain rfl := Except.ok.inj h
    exact le_rfl
  | members :: params, legs, h, hswitch => by
    rw [List.mapM_cons] at h
    obtain ⟨leg, hleg, h⟩ := bind_eq_ok.mp h
    obtain ⟨rest, hrest, h⟩ := bind_eq_ok.mp h
    obtain rfl := Except.ok.inj h
    have ih := length_manualLegs hrest fun m hm => hswitch m (List.mem_cons_of_mem _ hm)
    rcases manualLeg_cases (hswitch members List.mem_cons_self) hleg with
      ⟨hoff, rfl⟩ | ⟨hon, rfl, -⟩ | ⟨x, hon, rfl, -⟩
    · simpa [hoff] using ih
    · simp only [List.filter_cons, hon, if_true, List.reduceOption_cons_of_none, List.length_cons]
      omega
    · simpa [hon] using ih

/-- Parameters describe the session built from them if and only if those that are on are complete. -/
theorem manual_describes : ∀ {params : List Members} {legs : List (Option SdpLeg)},
    params.mapM manualLeg = .ok legs → (∀ members ∈ params, (findKey "rtp_enabled" members).isSome) →
      (List.Forall₂ MatchesLeg (params.filter isOn) legs.reduceOption ↔
        ∀ members ∈ params, isOn members → Complete members)
  | [], legs, h, _ => by
    obtain rfl := Except.ok.inj h
    simp
  | members :: params, legs, h, hswitch => by
    rw [List.mapM_cons] at h
    obtain ⟨leg, hleg, h⟩ := bind_eq_ok.mp h
    obtain ⟨rest, hrest, h⟩ := bind_eq_ok.mp h
    obtain rfl := Except.ok.inj h
    have hswitch' : ∀ m ∈ params, (findKey "rtp_enabled" m).isSome := fun m hm => hswitch m (List.mem_cons_of_mem _ hm)
    have ih := manual_describes hrest hswitch'
    rw [List.forall_mem_cons]
    rcases manualLeg_cases (hswitch members List.mem_cons_self) hleg with
      ⟨hoff, rfl⟩ | ⟨hon, rfl, hnot⟩ | ⟨x, hon, rfl, -, hx⟩
    · simpa [hoff] using ih
    · have hlen := length_manualLegs hrest hswitch'
      constructor
      · intro hall
        have := hall.length_eq
        simp only [List.filter_cons, hon, if_true, List.reduceOption_cons_of_none, List.length_cons] at this
        omega
      · rintro ⟨hcomplete, -⟩
        obtain ⟨⟨s, hs⟩, -⟩ := hcomplete hon
        exact absurd hs (hnot s)
    · simp only [List.filter_cons, hon, if_true, List.reduceOption_cons_of_some, List.forall₂_cons, ih, hx, true_imp_iff]

end Parameters

section Run
variable {s : Node} {e : Patch} {staged : ReceiverDoc} {session : SdpSession}

/-- What the active document is after a session was handed on. -/
theorem step_of_hands (h : Hands s e staged session) :
    (Patch.step .receiver s e).api.receiverActive.transportParams =
      (resolveInterfaces e.sys.hostIps staged.transportParams).2 := by
  obtain ⟨⟨jsPatch, hbody, hact, rfl⟩, henabled, hinterfaces, hsession⟩ := h
  have hexec := exec_activateReceiver (s := stageReceiver jsPatch s) henabled hinterfaces hsession
  rw [Patch.step, handlePatch, hbody, exec_bind_ok (exec_attempt ..), exec_patchReceiver, hact, hexec]
  exact congrArg (fun api => api.receiverActive.transportParams) (api_onReceiver ..)

/-- The parameters and the file of the staged document are as before. -/
def SameSources (s s' : Node) : Prop :=
  s'.api.receiverStaged.transportParams = s.api.receiverStaged.transportParams ∧
    s'.api.receiverStaged.transportFile = s.api.receiverStaged.transportFile

instance : Std.Refl SameSources := ⟨fun _ => ⟨rfl, rfl⟩⟩

instance : IsTrans Node SameSources := ⟨fun _ _ _ h h' => ⟨h'.1.trans h.1, h'.2.trans h.2⟩⟩

theorem sameSources_activateReceiver (sys : System) : Frames SameSources (activateReceiver sys) := by
  refine Frames.get.bind fun _ => (Frames.attempt _).bind fun bEnable => ?_
  refine (Frames.ofUpdate fun _ => ⟨rfl, rfl⟩).bind fun _ => ?_
  refine Frames.get.bind fun _ => (Frames.attempt _).bind fun session => ?_
  refine (Frames.update fun s => ?_).bind fun _ => Frames.update fun _ => ⟨rfl, rfl⟩
  rw [SameSources, api_onReceiver]
  exact ⟨rfl, rfl⟩

theorem step_sources {jsPatch : Json} (hbody : e.body = .ok jsPatch) :
    SameSources (stageReceiver jsPatch s) (Patch.step .receiver s e) := by
  rw [Patch.step, handlePatch, hbody, exec_bind_ok (exec_attempt ..), exec_patchReceiver]
  cases activates jsPatch with
  | error err => exact ⟨rfl, rfl⟩
  | ok b =>
    cases b with
    | false => exact ⟨rfl, rfl⟩
    | true => exact sameSources_activateReceiver e.sys _

theorem switch_mergeParams : ∀ {params : List Members} (jss : List Json),
    (∀ members ∈ params, (findKey "rtp_enabled" members).isSome) →
      ∀ members ∈ mergeParams params jss, (findKey "rtp_enabled" members).isSome
  | [], jss, _ => by cases jss <;> simp [mergeParams]
  | members :: params, [], h => h
  | members :: params, js :: jss, h => by
    rw [List.forall_mem_cons] at h
    rw [mergeParams, List.forall_mem_cons, findKey_mergeItems_or, Option.isSome_or, h.1, Bool.or_true]
    exact ⟨rfl, switch_mergeParams jss h.2⟩

/-- Every parameter set keeps its switch, and data patched most recently is staged. -/
structure Tracked (es : List Patch) (s : Node) : Prop where
  switch : ∀ members ∈ s.api.receiverStaged.transportParams, (findKey "rtp_enabled" members).isSome
  data : ∀ js, latest es = some (.file js) → findKey "data" s.api.receiverStaged.transportFile = some js

theorem latest_snoc (es : List Patch) (e : Patch) : latest (es ++ [e]) = e.latest (latest es) := List.foldl_concat ..

theorem Tracked.step {es : List Patch} (h : Tracked es s) (e : Patch) :
    Tracked (es ++ [e]) (Patch.step .receiver s e) := by
  cases hbody : e.body with
  | error err =>
    have hsame : Patch.step .receiver s e = s := by
      rw [Patch.step, handlePatch, hbody]
      rfl
    rw [hsame]
    refine ⟨h.switch, fun js hjs => h.data js ?_⟩
    rw [latest_snoc, Patch.latest, hbody] at hjs
    exact hjs
  | ok jsPatch =>
    obtain ⟨hparams, hfile⟩ := step_sources (s := s) hbody
    refine ⟨?_, fun js hjs => ?_⟩
    · rw [hparams]
      exact switch_mergeParams _ h.switch
    · have hmerge : findKey "data" (Patch.step .receiver s e).api.receiverStaged.transportFile =
          (patchedData jsPatch).or (findKey "data" s.api.receiverStaged.transportFile) := by
        rw [hfile]
        exact findKey_mergeItems_or ..
      rw [latest_snoc, Patch.latest, hbody] at hjs
      rw [hmerge]
      cases hdata : patchedData jsPatch with
      | some js' =>
        simp only [hdata, Option.some.injEq, Latest.file.injEq] at hjs
        rw [hjs, Option.some_or]
      | none =>
        simp only [hdata] at hjs
        split_ifs at hjs
        · cases hjs
        · rw [Option.none_or]
          exact h.data js hjs

theorem tracked_run {node : Node} (hstart : node.api = {}) (es : List Patch) :
    Tracked es (run (Patch.step .receiver) node es) := by
  induction es using List.reverseRecOn with
  | nil =>
    refine ⟨?_, by rintro js ⟨⟩⟩
    rw [run_nil, hstart]
    decide
  | append_singleton es e ih =>
    rw [run_snoc]
    exact ih.step e

theorem manual_legs {params : List Members} (h : manualSession params = .ok (some session)) :
    ∃ legs, params.mapM manualLeg = .ok legs ∧ session.vLegs = legs.reduceOption := by
  obtain ⟨legs, hlegs, h⟩ := bind_eq_ok.mp h
  simp only at h
  split_ifs at h with hempty
  · cases h
  · obtain rfl := Option.some.inj (Except.ok.inj h)
    exact ⟨legs, hlegs, rfl⟩

/-- One activation: the endpoint describes the session, which is that of the most
recent source, if and only if the staged document was accurate. -/
theorem describes_iff_accurate {es : List Patch} (htracked : Tracked (es ++ [e]) (Patch.step .receiver s e))
    (h : Hands s e staged session) :
    (Describes (Patch.step .receiver s e).api.receiverActive.transportParams session ∧
      UsesLatest (es ++ [e]) staged session) ↔ Accurate staged := by
  have hsame := resolveInterfaces_same e.sys.hostIps staged.transportParams
  rw [step_of_hands h, describes_congr hsame]
  obtain ⟨⟨jsPatch, hbody, -, rfl⟩, -, -, hsession⟩ := h
  obtain ⟨hparams, hfile⟩ := step_sources (s := s) hbody
  generalize hlast : s.api.receiverStaged.stage jsPatch = staged at *
  have hfile : (Patch.step .receiver s e).api.receiverStaged.transportFile = staged.transportFile := by
    rw [hfile, ← hlast]
    rfl
  have hparams : (Patch.step .receiver s e).api.receiverStaged.transportParams = staged.transportParams := by
    rw [hparams, ← hlast]
    rfl
  by_cases htext : ∃ sSdp, findKey "data" staged.transportFile = some (.str sSdp)
  · obtain ⟨sSdp, hdata⟩ := htext
    have hparse : parseSdp sSdp = some session := by
      simpa [receiverSession, hdata] using hsession
    have haccurate : Accurate staged ↔ Describes staged.transportParams session := by
      simp [Accurate, hdata, hparse]
    rw [haccurate]
    refine ⟨fun hboth => hboth.1, fun hdescribes => ⟨hdescribes, ?_⟩⟩
    unfold UsesLatest
    split
    · next sLatest hlatest =>
      have hstaged := htracked.data _ hlatest
      rw [hfile, hdata] at hstaged
      obtain rfl := Json.str.inj (Option.some.inj hstaged)
      exact hparse
    · exact hdescribes
  · have hmanual : manualSession staged.transportParams = .ok (some session) := by
      rw [← manualSession_congr hsame]
      rw [receiverSession, if_pos rfl] at hsession
      split at hsession
      · next sSdp hdata => exact absurd ⟨sSdp, hdata⟩ htext
      · exact hsession
    obtain ⟨legs, hlegs, hsessionLegs⟩ := manual_legs hmanual
    have hdescribes : Describes staged.transportParams session ↔
        ∀ members ∈ staged.transportParams, isOn members → Complete members := by
      rw [Describes, hsessionLegs]
      exact manual_describes hlegs (hparams ▸ htracked.switch)
    have haccurate : Accurate staged ↔ Describes staged.transportParams session := by
      rw [hdescribes]
      unfold Accurate
      split
      · next sSdp hdata => exact absurd ⟨sSdp, hdata⟩ htext
      · rfl
    rw [haccurate]
    refine ⟨fun hboth => hboth.1, fun hd => ⟨hd, ?_⟩⟩
    unfold UsesLatest
    split
    · next sLatest hlatest =>
      have hstaged := htracked.data _ hlatest
      rw [hfile] at hstaged
      exact absurd ⟨sLatest, hstaged⟩ htext
    · exact hd

/-- In every run, the active endpoint describes each session handed on if and only if
each was handed on from an accurate document. -/
theorem activeDescribes_iff (node : Node) (hstart : node.api = {}) (es : List Patch) :
    ActiveDescribes node es ↔
      Admits (fun pre e => ∀ staged session, Hands (run (Patch.step .receiver) node pre) e staged session →
        Accurate staged) es := by
  have each (pre : List Patch) (e : Patch) (staged : ReceiverDoc) (session : SdpSession)
      (h : Hands (run (Patch.step .receiver) node pre) e staged session) :=
    describes_iff_accurate ((tracked_run hstart pre).step e) h
  constructor
  · intro hdescribes pre e post hsplit staged session h
    exact (each pre e staged session h).mp (hdescribes pre e post hsplit staged session h)
  · intro haccurate pre e post hsplit staged session h
    exact (each pre e staged session h).mpr (haccurate pre e post hsplit staged session h)

end Run

section Site

def freshNode : Node := .fresh (Config.load none).2

/-- A controller hands over a stream as a transport file. -/
def connectFile : Patch := ⟨{}, .ok (.obj [
  ("activation", .obj [("mode", .str "activate_immediate")]),
  ("master_enable", .bool true),
  ("transport_file", .obj [("data", .str "v=0\nm=audio 5010 RTP/AVP 97\nc=IN IP4 239.1.2.3/32\n"),
    ("type", .str "application/sdp")])])⟩

theorem connectFile_not_described : ¬ ActiveDescribes freshNode [connectFile] := by
  intro h
  have hands : Hands freshNode connectFile _ _ := ⟨⟨_, rfl, rfl, rfl⟩, rfl, rfl, rfl⟩
  have hlen := (h [] connectFile [] rfl _ _ hands).1.length_eq
  exact absurd hlen (by decide)

/-- The same stream as transport parameters, on the first network alone. -/
def connectParams : Patch := ⟨{}, .ok (.obj [
  ("activation", .obj [("mode", .str "activate_immediate")]),
  ("master_enable", .bool true),
  ("transport_params", .arr [
    .obj [("destination_port", .int 5010), ("multicast_ip", .str "239.1.2.3")],
    .obj [("rtp_enabled", .bool false)]])])⟩

theorem connectParams_described : ActiveDescribes freshNode [connectParams] := by
  rw [activeDescribes_iff freshNode rfl]
  intro pre e post hsplit staged session h
  obtain ⟨rfl, rfl⟩ : pre = [] ∧ e = connectParams := by
    cases pre with
    | nil => exact ⟨rfl, (List.cons.inj hsplit).1.symm⟩
    | cons f pre => simpa using (List.cons.inj hsplit).2
  obtain ⟨⟨jsPatch, hbody, -, rfl⟩, -⟩ := h
  obtain rfl := Except.ok.inj hbody
  have hsecond : ¬ isOn [("destination_port", .int 5004), ("interface_ip", .str "auto"), ("multicast_ip", .null),
      ("rtp_enabled", .bool false), ("source_ip", .null)] := by decide
  intro members hmem hon
  rcases List.mem_cons.mp hmem with rfl | hmem
  · exact ⟨⟨_, rfl⟩, 5010, rfl⟩
  · obtain rfl := List.mem_singleton.mp hmem
    exact absurd hon hsecond

end Site

end PiAudioNode.Nmos
