import PiAudioNode.Nmos.ReceiverActive

/-! Whether the sender the receiver reports it is connected to is the one whose
session its engine runs on. -/
namespace PiAudioNode.Nmos
open Lib Lib.Json Lib.Act Rtp

/-- What the web interface or a controller asks of the receiver. Connecting to a
sender comes with the answer to the request for its manifest. -/
inductive Action where
  | nmosConnect (jsBody : Json) (manifest : Option String × Int)
  | receiverConnect (jsBody : Json)
  | receiverDisconnect
  | patch (body : Except JsonError Json)

def activateImmediate : String × Json := ("activation", .obj [("mode", .str "activate_immediate")])

def sdpFile (sSdp : String) : String × Json :=
  ("transport_file", .obj [("data", .str sSdp), ("type", .str "application/sdp")])

/-- The patch for a sender of the registry, if its manifest can be used. -/
def nmosConnect (jsBody : Json) (manifest : Option String × Int) : Except JsonError (Option Json) := do
  let sSenderId ← jsBody.value getString "sender_id" ""
  let sManifest ← jsBody.value getString "manifest_href" ""
  match manifest with
  | (some sSdp, nStatus) =>
    if "http://".toList <+: sManifest.toList ∧ nStatus = 200 ∧ "m=audio".toList <:+: sSdp.toList then
      return some (.obj [activateImmediate, ("master_enable", .bool true), ("sender_id", .str sSenderId), sdpFile sSdp])
    else return none
  | _ => return none

def receiverConnect (jsBody : Json) : Except JsonError Json := do
  let sSdp ← jsBody.value getString "sdp" ""
  return .obj [activateImmediate, ("master_enable", .bool true), sdpFile sSdp]

def receiverDisconnect : Json := .obj [activateImmediate, ("master_enable", .bool false), ("sender_id", .null)]

/-- The body an action is sent on with, if it comes as far as that. -/
def Action.request : Action → Option (Except JsonError Json)
  | .nmosConnect jsBody manifest => (Nmos.nmosConnect jsBody manifest).toOption.join.map .ok
  | .receiverConnect jsBody => (Nmos.receiverConnect jsBody).toOption.map .ok
  | .receiverDisconnect => some (.ok Nmos.receiverDisconnect)
  | .patch body => some body

/-- An action, and what the system answers while it is served. -/
structure Asked where
  sys : System
  action : Action

def Asked.step (node : Node) (e : Asked) : Node :=
  match e.action.request with
  | some body => Patch.step .receiver node ⟨e.sys, body⟩
  | none => node

/-- The action activates the receiver with this patch, from this document. -/
structure Asked.Activates (e : Asked) (s : Node) (jsPatch : Json) (staged : ReceiverDoc) : Prop where
  request : e.action.request = some (.ok jsPatch)
  immediate : activates jsPatch = .ok true
  document : s.api.receiverStaged.stage jsPatch = staged
  boolean : staged.masterEnable.isBoolean

/-- The patch itself has the session: as the text of a transport file, or as parameter
sets where the staged file holds no text. -/
def Brings (jsPatch : Json) (staged : ReceiverDoc) (session : SdpSession) : Prop :=
  (∃ sSdp, patchedData jsPatch = some (.str sSdp) ∧ parseSdp sSdp = some session) ∨
    ((jsPatch.member "transport_params").bind elements).isSome ∧
      (∀ sSdp, findKey "data" staged.transportFile ≠ some (.str sSdp)) ∧
      manualSession staged.transportParams = .ok (some session)

/-- One of the activations had both the sender and the session. -/
def Supplied (node : Node) (es : List Asked) (jsSenderId : Json) (session : SdpSession) : Prop :=
  ∃ pre e post jsPatch staged, es = pre ++ e :: post ∧ e.Activates (run Asked.step node pre) jsPatch staged ∧
    jsPatch.member "sender_id" = some jsSenderId ∧ Brings jsPatch staged session

def RunsOn (r : RxEngine) (session : SdpSession) : Prop := r.bRun ∧ r.config.session = session

/-- A reported sender is one whose session the engine runs on. -/
def ReportsReal (node : Node) (es : List Asked) : Prop :=
  ∀ js, receiverSenderId (run Asked.step node es) = .ok js → js ≠ .null →
    ∃ session, Supplied node es js session ∧ RunsOn (run Asked.step node es).receiver session

/-- The reported sender after one more action: a real one, and none after a disconnect,
after a pasted session, and after an activation from a text that is no session. -/
structure Truthful (node : Node) (es : List Asked) (e : Asked) : Prop where
  real : ReportsReal node (es ++ [e])
  disconnected : e.action = .receiverDisconnect → receiverSenderId (run Asked.step node (es ++ [e])) = .ok .null
  pasted : ∀ jsBody, e.action = .receiverConnect jsBody → e.action.request.isSome →
    receiverSenderId (run Asked.step node (es ++ [e])) = .ok .null
  unparsed : ∀ jsPatch staged sSdp, e.Activates (run Asked.step node es) jsPatch staged →
    findKey "data" staged.transportFile = some (.str sSdp) → parseSdp sSdp = none →
      receiverSenderId (run Asked.step node (es ++ [e])) = .ok .null

/-- What an enabled document asks for: a session, none, or a value that cannot be read. -/
def handed (sys : System) (staged : ReceiverDoc) : Except JsonError (Option SdpSession) :=
  match resolveInterfaces sys.hostIps staged.transportParams with
  | (.error e, _) => .error e
  | (.ok (), params) => receiverSession true { staged with transportParams := params }

/-- The engine can open a socket for every leg it has room for. -/
def Takes (sys : System) (session : SdpSession) : Prop :=
  session.vLegs ≠ [] ∧ ∀ i < (session.vLegs.take 2).length, sys.rxOpens i

/-- Where the document cannot be read, its text is no other than a session, and the
engine already runs on one supplied with the sender. -/
structure StaysReal (node : Node) (es : List Asked) (e : Asked) (staged : ReceiverDoc) : Prop where
  text : ∀ sSdp, findKey "data" staged.transportFile = some (.str sSdp) → parseSdp sSdp ≠ none
  runs : ∃ session, Supplied node (es ++ [e]) staged.senderId session ∧ RunsOn (run Asked.step node es).receiver session

/-- An enabled activation with a sender staged is not that of a pasted session, and what
it asks for can be opened and was supplied together with the sender. -/
def Tolerates (node : Node) (es : List Asked) (e : Asked) : Prop :=
  ∀ jsPatch staged, e.Activates (run Asked.step node es) jsPatch staged → staged.masterEnable = .bool true →
    staged.senderId ≠ .null → (∀ jsBody, e.action ≠ .receiverConnect jsBody) ∧
      match handed e.sys staged with
      | .ok (some session) => Takes e.sys session ∧ Supplied node (es ++ [e]) staged.senderId session
      | .ok none => False
      | .error _ => StaysReal node es e staged

section Engine
variable {sys : System} {s : Node} {bEnable : Bool}

theorem openLegs_opens (bOpens : Nat → Bool) (vInterfaces : List String) : ∀ (nLeg : Nat) (legs : List SdpLeg)
    (r : RxEngine), (RxEngine.openLegs bOpens vInterfaces nLeg legs r).1 = true ↔ ∀ i < legs.length, bOpens (nLeg + i)
  | nLeg, [], r => by simp [RxEngine.openLegs]
  | nLeg, leg :: rest, r => by
    rw [RxEngine.openLegs]
    have hsplit : (∀ i < (leg :: rest).length, bOpens (nLeg + i)) ↔
        bOpens nLeg ∧ ∀ i < rest.length, bOpens (nLeg + 1 + i) := by
      constructor
      · intro h
        refine ⟨h 0 (by simp), fun i hi => ?_⟩
        have := h (i + 1) (by simpa using hi)
        rwa [show nLeg + (i + 1) = nLeg + 1 + i by omega] at this
      · rintro ⟨hfirst, hrest⟩ i hi
        cases i with
        | zero => exact hfirst
        | succ i =>
          rw [show nLeg + (i + 1) = nLeg + 1 + i by omega]
          exact hrest i (by simpa using hi)
    rw [hsplit]
    split_ifs with hopen
    · rw [openLegs_opens bOpens vInterfaces (nLeg + 1) rest, hopen, eq_self, true_and]
    · simp [hopen]

theorem openLegs_kept (bOpens : Nat → Bool) (vInterfaces : List String) : ∀ (nLeg : Nat) (legs : List SdpLeg)
    (r : RxEngine), (RxEngine.openLegs bOpens vInterfaces nLeg legs r).2.bRun = r.bRun ∧
      (RxEngine.openLegs bOpens vInterfaces nLeg legs r).2.config = r.config
  | nLeg, [], r => ⟨rfl, rfl⟩
  | nLeg, leg :: rest, r => by
    rw [RxEngine.openLegs]
    split_ifs
    · exact openLegs_kept bOpens vInterfaces (nLeg + 1) rest _
    · exact ⟨rfl, rfl⟩

theorem interfaces_ne_nil (c : Config) : interfaces c ≠ [] := by
  rw [interfaces]
  split_ifs <;> simp

theorem runsOn_configure (bOpens : Nat → Bool) {session other : SdpSession} {vInterfaces : List String}
    (hinterfaces : vInterfaces ≠ []) (nPlayoutDelayMs : Int) (r : RxEngine) :
    RunsOn (RxEngine.configure bOpens session vInterfaces nPlayoutDelayMs r).2 other ↔
      session = other ∧ session.vLegs ≠ [] ∧ ∀ i < (session.vLegs.take 2).length, bOpens i := by
  rw [RunsOn, RxEngine.configure]
  by_cases hlegs : session.vLegs = []
  · simp [hlegs, RxEngine.stop]
  · rw [if_neg (by simp [hlegs, hinterfaces])]
    generalize hstart : { r.stop with config := .ofSession session nPlayoutDelayMs } = start
    have hstopped : start.bRun = false ∧ start.config.session = session := by
      rw [← hstart]
      exact ⟨rfl, rfl⟩
    have hopens := openLegs_opens bOpens vInterfaces 0 (session.vLegs.take 2) start
    have hkept := openLegs_kept bOpens vInterfaces 0 (session.vLegs.take 2) start
    simp only [Nat.zero_add] at hopens
    rw [← hopens]
    dsimp only
    split_ifs with hopen
    · simp [hkept.2, hstopped.2, hlegs, hopen]
    · simp [hkept.1, hstopped.1, hopen]

/-- The engine runs on what it is handed, if it can take it. -/
theorem runsOn_onReceiver (session : Option SdpSession) (other : SdpSession) :
    RunsOn (onReceiver sys true session s).receiver other ↔ session = some other ∧ Takes sys other := by
  cases session with
  | none => simp [RunsOn, onReceiver, RxEngine.stop]
  | some session =>
    rw [onReceiver, runsOn_configure _ (interfaces_ne_nil s.config), Option.some.injEq, Takes]
    refine and_congr_right fun hsame => ?_
    rw [hsame]

/-- The engine after an enabled activation. -/
def engineAfter (sys : System) (s : Node) : Except JsonError (Option SdpSession) → RxEngine
  | .ok session => (onReceiver sys true session s).receiver
  | .error _ => s.receiver

theorem runsOn_engineAfter (session : Option SdpSession) (other : SdpSession) :
    RunsOn (engineAfter sys s (.ok session)) other ↔ session = some other ∧ Takes sys other :=
  runsOn_onReceiver session other

theorem receiver_onReceiver (s' s : Node) (hconfig : s'.config = s.config) (hreceiver : s'.receiver = s.receiver)
    (session : Option SdpSession) :
    (onReceiver sys true session s').receiver = (onReceiver sys true session s).receiver := by
  cases session with
  | none => simp only [onReceiver, hreceiver]
  | some session => simp only [onReceiver, hconfig, hreceiver]

theorem receiverSenderId_congr {s' : Node} (hactive : s'.api.receiverActive = s.api.receiverActive) :
    receiverSenderId s' = receiverSenderId s := by
  rw [receiverSenderId, receiverSenderId, hactive]

theorem receiverSenderId_commit (henable : s.api.receiverStaged.masterEnable = .bool bEnable) :
    receiverSenderId (commitReceiver sys s).2 = .ok (if bEnable then s.api.receiverStaged.senderId else .null) := by
  have hactive : (commitReceiver sys s).2.api.receiverActive.masterEnable = .bool bEnable := henable
  rw [receiverSenderId, hactive]
  rfl

/-- What an activation leaves behind, whether or not it comes as far as the engine. -/
theorem activateReceiver_state (sys : System) (henable : s.api.receiverStaged.masterEnable = .bool bEnable) :
    receiverSenderId ((activateReceiver sys).exec s).2 =
        .ok (if bEnable then s.api.receiverStaged.senderId else .null) ∧
      (bEnable → ((activateReceiver sys).exec s).2.receiver = engineAfter sys s (handed sys s.api.receiverStaged)) := by
  have henabled : s.api.receiverStaged.masterEnable.getBool = .ok bEnable := by rw [henable, getBool]
  rw [activateReceiver, exec_bind_ok (exec_get s), exec_bind_ok (by rw [exec_attempt, henabled])]
  cases hres : (resolveInterfaces sys.hostIps s.api.receiverStaged.transportParams).1 with
  | error e =>
    have hcommit : commitReceiver sys s = (.error e, (commitReceiver sys s).2) := Prod.ext hres rfl
    have hhanded : handed sys s.api.receiverStaged = .error e := by
      rw [handed]
      split
      · next hpair =>
        rw [hpair] at hres
        exact congrArg _ (Except.error.inj hres)
      · next hpair =>
        rw [hpair] at hres
        cases hres
    rw [exec_bind_error (by rw [exec_ofUpdate, hcommit]), hhanded]
    exact ⟨receiverSenderId_commit henable, fun _ => rfl⟩
  | ok =>
    have hcommit : commitReceiver sys s = (.ok (), (commitReceiver sys s).2) := Prod.ext hres rfl
    rw [exec_bind_ok (by rw [exec_ofUpdate, hcommit]), exec_bind_ok (exec_get _)]
    have hhanded :
        handed sys s.api.receiverStaged = receiverSession true (commitReceiver sys s).2.api.receiverActive := by
      rw [handed]
      split
      · next hpair =>
        rw [hpair] at hres
        cases hres
      · next params hpair =>
        have hparams : (commitReceiver sys s).2.api.receiverActive.transportParams = params := congrArg Prod.snd hpair
        rw [receiverSession, receiverSession, hparams]
        rfl
    cases hsession : receiverSession bEnable (commitReceiver sys s).2.api.receiverActive with
    | error e =>
      rw [exec_bind_error (exec_attempt _ _)]
      refine ⟨receiverSenderId_commit henable, fun hb => ?_⟩
      rw [hhanded, ← hb, hsession]
      rfl
    | ok session =>
      rw [exec_bind_ok (exec_attempt _ _), exec_bind_ok (exec_modify _ _), exec_modify]
      refine ⟨?_, fun hb => ?_⟩
      · rw [← receiverSenderId_commit henable]
        refine receiverSenderId_congr ?_
        exact congrArg ConnectionApi.receiverActive (api_onReceiver ..)
      · subst hb
        have hengine : (onReceiver sys true session (commitReceiver sys s).2).receiver =
            (onReceiver sys true session s).receiver := receiver_onReceiver (commitReceiver sys s).2 s rfl rfl session
        rw [hhanded, hsession]
        exact hengine

end Engine

section Run
variable {node s : Node} {es : List Asked} {e : Asked} {jsPatch : Json} {staged : ReceiverDoc} {bEnable : Bool}

theorem step_of_activates (h : e.Activates s jsPatch staged) (henable : staged.masterEnable = .bool bEnable) :
    receiverSenderId (Asked.step s e) = .ok (if bEnable then staged.senderId else .null) ∧
      (bEnable → (Asked.step s e).receiver = engineAfter e.sys s (handed e.sys staged)) := by
  obtain ⟨hrequest, himmediate, rfl, -⟩ := h
  have hstep : Asked.step s e = ((activateReceiver e.sys).exec (stageReceiver jsPatch s)).2 := by
    rw [Asked.step, hrequest]
    dsimp only
    rw [Patch.step, handlePatch, exec_bind_ok (exec_attempt ..), exec_patchReceiver, himmediate]
  rw [hstep]
  obtain ⟨hid, hengine⟩ := activateReceiver_state (s := stageReceiver jsPatch s) e.sys henable
  refine ⟨hid, fun hb => (hengine hb).trans ?_⟩
  cases hhanded : handed e.sys (s.api.receiverStaged.stage jsPatch) with
  | error err =>
    have hsame : handed e.sys (stageReceiver jsPatch s).api.receiverStaged = .error err := hhanded
    rw [hsame]
    rfl
  | ok session =>
    have hsame : handed e.sys (stageReceiver jsPatch s).api.receiverStaged = .ok session := hhanded
    have hengine : (onReceiver e.sys true session (stageReceiver jsPatch s)).receiver =
        (onReceiver e.sys true session s).receiver := receiver_onReceiver (stageReceiver jsPatch s) s rfl rfl session
    rw [hsame]
    exact hengine

/-- Without an activation the connection and the engine are as before. -/
theorem step_of_not_activates (h : ∀ jsPatch staged, ¬ e.Activates s jsPatch staged) :
    (Asked.step s e).api.receiverActive = s.api.receiverActive ∧ (Asked.step s e).receiver = s.receiver := by
  rw [Asked.step]
  cases hrequest : e.action.request with
  | none => exact ⟨rfl, rfl⟩
  | some body =>
    cases body with
    | error err => exact ⟨rfl, rfl⟩
    | ok jsPatch =>
      dsimp only
      rw [Patch.step, handlePatch, exec_bind_ok (exec_attempt ..), exec_patchReceiver]
      cases hact : activates jsPatch with
      | error err => exact ⟨rfl, rfl⟩
      | ok b =>
        cases b with
        | false => exact ⟨rfl, rfl⟩
        | true =>
          have hbool : ¬ (s.api.receiverStaged.stage jsPatch).masterEnable.isBoolean :=
            fun hbool => h jsPatch _ ⟨hrequest, hact, rfl, hbool⟩
          have hrefused : ((activateReceiver e.sys).exec (stageReceiver jsPatch s)).2 = stageReceiver jsPatch s :=
            exec_activateReceiver_refused hbool
          rw [hrefused]
          exact ⟨rfl, rfl⟩

theorem Supplied.snoc {jsSenderId : Json} {session : SdpSession} (h : Supplied node es jsSenderId session) (e : Asked) :
    Supplied node (es ++ [e]) jsSenderId session := by
  obtain ⟨pre, f, post, jsPatch, staged, rfl, hrest⟩ := h
  exact ⟨pre, f, post ++ [e], jsPatch, staged, by simp, hrest⟩

/-- A disconnect goes through and switches the receiver off. -/
theorem receiverSenderId_disconnect (h : e.action = .receiverDisconnect) :
    receiverSenderId (Asked.step s e) = .ok .null := by
  have hactivates : e.Activates s Nmos.receiverDisconnect (s.api.receiverStaged.stage Nmos.receiverDisconnect) :=
    ⟨by rw [h]; rfl, rfl, rfl, rfl⟩
  have henable : (s.api.receiverStaged.stage Nmos.receiverDisconnect).masterEnable = .bool false := rfl
  exact (step_of_activates hactivates henable).1

theorem activates_connect {jsBody : Json} (h : e.action = .receiverConnect jsBody) (hsent : e.action.request.isSome) :
    ∃ jsPatch staged, e.Activates s jsPatch staged ∧ staged.masterEnable = .bool true ∧
      staged.senderId = s.api.receiverStaged.senderId := by
  rw [h, Action.request] at hsent
  cases hconnect : Nmos.receiverConnect jsBody with
  | error err =>
    rw [hconnect] at hsent
    cases hsent
  | ok jsPatch =>
    obtain ⟨sSdp, -, hpatch⟩ := bind_eq_ok.mp hconnect
    obtain rfl := Except.ok.inj hpatch
    refine ⟨_, _, ⟨by rw [h, Action.request, hconnect]; rfl, rfl, rfl, rfl⟩, rfl, rfl⟩

theorem truthful_of_null (h : receiverSenderId (run Asked.step node (es ++ [e])) = .ok .null) : Truthful node es e := by
  refine ⟨fun js hjs hne => ?_, fun _ => h, fun _ _ _ => h, fun _ _ _ _ _ _ => h⟩
  exact absurd (Except.ok.inj (h.symm.trans hjs)).symm hne

/-- Text that is staged decides what is handed on. -/
theorem handed_text {sys : System} {sSdp : String} {session : Option SdpSession}
    (hdata : findKey "data" staged.transportFile = some (.str sSdp)) (h : handed sys staged = .ok session) :
    parseSdp sSdp = session := by
  rw [handed] at h
  split at h
  · cases h
  · rw [receiverSession, if_pos rfl] at h
    simp only [hdata] at h
    exact Except.ok.inj h

theorem Asked.Activates.unique {jsOther : Json} {other : ReceiverDoc} (h : e.Activates s jsPatch staged)
    (hother : e.Activates s jsOther other) : staged = other := by
  have hsame := h.request.symm.trans hother.request
  obtain rfl := Except.ok.inj (Option.some.inj hsame)
  exact h.document.symm.trans hother.document

theorem tolerates_of_truthful (h : Truthful node es e) : Tolerates node es e := by
  have hrun : run Asked.step node (es ++ [e]) = Asked.step (run Asked.step node es) e := run_snoc ..
  intro jsPatch staged hactivates henable hid
  obtain ⟨hreport, hengine⟩ := step_of_activates hactivates henable
  have hreport : receiverSenderId (run Asked.step node (es ++ [e])) = .ok staged.senderId := by
    rw [hrun]
    exact hreport
  have hnull (hnone : receiverSenderId (run Asked.step node (es ++ [e])) = .ok .null) : False :=
    hid (Except.ok.inj (hreport.symm.trans hnone))
  obtain ⟨session, hsupplied, hruns⟩ := h.real _ hreport hid
  rw [hrun, hengine rfl] at hruns
  refine ⟨fun jsBody hconnect => hnull (h.pasted jsBody hconnect ?_), ?_⟩
  · rw [hactivates.request]
    rfl
  · cases hhanded : handed e.sys staged with
    | error err =>
      rw [hhanded] at hruns
      refine ⟨fun sSdp hdata hparse => ?_, session, hsupplied, hruns⟩
      exact hnull (h.unparsed _ _ _ hactivates hdata hparse)
    | ok other =>
      rw [hhanded, runsOn_engineAfter] at hruns
      obtain ⟨rfl, htakes⟩ := hruns
      exact ⟨htakes, hsupplied⟩

/-- An activation that subscribes is truthful if it is tolerated. -/
theorem truthful_of_subscribed (htolerates : Tolerates node es e)
    (hactivates : e.Activates (run Asked.step node es) jsPatch staged) (henable : staged.masterEnable = .bool true)
    (hid : staged.senderId ≠ .null) : Truthful node es e := by
  have hrun : run Asked.step node (es ++ [e]) = Asked.step (run Asked.step node es) e := run_snoc ..
  obtain ⟨hreport, hengine⟩ := step_of_activates hactivates henable
  rw [← hrun] at hreport hengine
  obtain ⟨hconnect, hbacked⟩ := htolerates jsPatch staged hactivates henable hid
  refine ⟨fun js hjs _ => ?_, fun hdisconnect => hrun ▸ receiverSenderId_disconnect hdisconnect,
    fun jsBody hjs => absurd hjs (hconnect jsBody), fun jsOther other sSdp hother hdata hparse => ?_⟩
  · obtain rfl := Except.ok.inj (hreport.symm.trans hjs)
    rw [hengine rfl]
    cases hhanded : handed e.sys staged with
    | error err =>
      rw [hhanded] at hbacked
      exact hbacked.runs
    | ok session =>
      rw [hhanded] at hbacked
      cases session with
      | none => exact hbacked.elim
      | some session => exact ⟨session, hbacked.2, (runsOn_engineAfter ..).mpr ⟨rfl, hbacked.1⟩⟩
  · obtain rfl := hactivates.unique hother
    cases hhanded : handed e.sys staged with
    | error err =>
      rw [hhanded] at hbacked
      exact absurd hparse (hbacked.text sSdp hdata)
    | ok session =>
      rw [hhanded] at hbacked
      have hnone := (handed_text hdata hhanded).symm.trans hparse
      subst hnone
      exact hbacked.elim

/-- An action that activates nothing leaves what was reported. -/
theorem truthful_of_not_activates (h : ReportsReal node es)
    (hnone : ∀ jsPatch staged, ¬ e.Activates (run Asked.step node es) jsPatch staged) : Truthful node es e := by
  have hrun : run Asked.step node (es ++ [e]) = Asked.step (run Asked.step node es) e := run_snoc ..
  obtain ⟨hactive, hreceiver⟩ := step_of_not_activates hnone
  rw [← hrun] at hactive hreceiver
  refine ⟨fun js hjs hne => ?_, fun hdisconnect => hrun ▸ receiverSenderId_disconnect hdisconnect,
    fun jsBody hconnect hsent => ?_, fun jsPatch staged _ hact _ _ => absurd hact (hnone jsPatch staged)⟩
  · obtain ⟨session, hsupplied, hruns⟩ := h js ((receiverSenderId_congr hactive).symm.trans hjs) hne
    exact ⟨session, hsupplied.snoc e, by rw [hreceiver]; exact hruns⟩
  · obtain ⟨jsPatch, staged, hact, -⟩ := activates_connect hconnect hsent
    exact absurd hact (hnone jsPatch staged)

/-- One action after which everything reported so far was real. -/
theorem truthful_iff_tolerates (h : ReportsReal node es) : Truthful node es e ↔ Tolerates node es e := by
  refine ⟨tolerates_of_truthful, fun htolerates => ?_⟩
  by_cases hactivates : ∃ jsPatch staged, e.Activates (run Asked.step node es) jsPatch staged
  · obtain ⟨jsPatch, staged, hactivates⟩ := hactivates
    obtain ⟨bEnable, henable⟩ : ∃ bEnable, staged.masterEnable = .bool bEnable := by
      have hbool := hactivates.boolean
      cases hm : staged.masterEnable <;> first | exact ⟨_, rfl⟩ | simp [hm, isBoolean] at hbool
    by_cases hsubscribed : bEnable ∧ staged.senderId ≠ .null
    · obtain ⟨rfl, hid⟩ := hsubscribed
      exact truthful_of_subscribed htolerates hactivates henable hid
    · have hreport := (step_of_activates hactivates henable).1
      refine truthful_of_null ?_
      rw [run_snoc, hreport]
      split_ifs with hb
      · exact congrArg Except.ok (not_not.mp fun hid => hsubscribed ⟨hb, hid⟩)
      · rfl
  · exact truthful_of_not_activates h fun jsPatch staged hact => hactivates ⟨jsPatch, staged, hact⟩

theorem reportsReal_of_truthful (hstart : node.api = {}) (h : Admits (Truthful node) es) : ReportsReal node es := by
  rcases List.eq_nil_or_concat es with rfl | ⟨pre, e, rfl⟩
  · intro js hjs hne
    have hnone : receiverSenderId (run Asked.step node []) = .ok .null := by
      rw [run_nil, receiverSenderId, hstart]
      rfl
    exact absurd (Except.ok.inj (hnone.symm.trans hjs)).symm hne
  · rw [List.concat_eq_append] at h ⊢
    exact h.last.real

/-- In every run of actions on the receiver, what is reported is true after each of
them if and only if each is tolerated. -/
theorem truthful_iff (node : Node) (hstart : node.api = {}) (es : List Asked) :
    Admits (Truthful node) es ↔ Admits (Tolerates node) es :=
  admits_congr (fun _ _ h => truthful_iff_tolerates (reportsReal_of_truthful hstart h)) es

end Run

section Site

def sdpText : String := "v=0\nm=audio 5010 RTP/AVP 97\nc=IN IP4 239.1.2.3/32\n"

/-- Connected to a sender of the registry. -/
def connectSender : Asked := ⟨{}, .nmosConnect
  (.obj [("manifest_href", .str "http://10.0.0.7/sdp"), ("sender_id", .str "sender-7")]) (some sdpText, 200)⟩

/-- A session pasted into the web page. -/
def pasteSession : Asked :=
  ⟨{}, .receiverConnect (.obj [("sdp", .str "v=0\nm=audio 5010 RTP/AVP 97\nc=IN IP4 239.9.9.9/32\n")])⟩

/-- The pasted session is reported under the sender of the connection before it. -/
theorem pasteSession_not_truthful : ¬ Admits (Truthful freshNode) [connectSender, pasteSession] := by
  intro h
  have htruth : Truthful freshNode [connectSender] pasteSession := h [connectSender] pasteSession [] rfl
  have hnull := htruth.pasted _ rfl rfl
  have hreport : receiverSenderId (run Asked.step freshNode [connectSender, pasteSession]) = .ok (.str "sender-7") := rfl
  cases hreport.symm.trans hnull

/-- Connecting and disconnecting is reported as it is. -/
theorem connectSender_truthful : Admits (Truthful freshNode) [connectSender, ⟨{}, .receiverDisconnect⟩] := by
  rw [truthful_iff freshNode rfl]
  refine admits_cons.mpr ⟨?_, admits_cons.mpr ⟨?_, admits_nil⟩⟩
  · intro jsPatch staged hactivates _ _
    have hconnect : connectSender.Activates (run Asked.step freshNode []) _ _ := ⟨rfl, rfl, rfl, rfl⟩
    obtain rfl := hconnect.unique hactivates
    refine ⟨by rintro jsBody ⟨⟩, ⟨by decide, fun i _ => rfl⟩, ?_⟩
    exact ⟨[], connectSender, [], _, _, rfl, hconnect, rfl, Or.inl ⟨sdpText, rfl, rfl⟩⟩
  · intro jsPatch staged hactivates henable _
    have hswitch := congrArg ReceiverDoc.masterEnable hactivates.document
    obtain rfl : receiverDisconnect = jsPatch := Except.ok.inj (Option.some.inj hactivates.request)
    rw [henable] at hswitch
    cases hswitch

end Site

end PiAudioNode.Nmos
