import PiAudioNode.Nmos.ReceiverActive

/-! The interface on which the engine joins what a parameter set asks for. The session
keeps only the sets that are on, and the engine counts the legs of the session. -/
namespace PiAudioNode.Nmos
open Lib Lib.Json Lib.Act Rtp

/-- The leg that a parameter set stands for, where it is on and has an address. -/
def legOf (members : Members) : Option SdpLeg := (manualLeg members).toOption.join

/-- How many sets before this one stand for a leg. -/
def placeOf (params : List Members) (i : Nat) : Nat := (params.take i).countP fun members => (legOf members).isSome

/-- The leg of every parameter set is joined on the interface at the place of the set. -/
def StaysOnInterface (params : List Members) (vInterfaces : List String) (r : RxEngine) : Prop :=
  ∀ i members leg, params[i]? = some members → legOf members = some leg →
    ∃ sInterface, vInterfaces[i]? = some sInterface ∧
      r.aLegs[placeOf params i]? = some ⟨sInterface, leg.sMulticast, true⟩

/-- The set at a place stands for a leg. -/
def StandsAt (params : List Members) (i : Nat) : Prop := ∃ members leg, params[i]? = some members ∧ legOf members = some leg

/-- Where legs and parameter sets are counted alike, or the interfaces are the same. -/
structure KeepsPlace (params : List Members) (sFirst sSecond : String) (bOpens : Nat → Bool) : Prop where
  two : ∀ i, StandsAt params i → i < 2
  first : StandsAt params 0 ∨ StandsAt params 1 → bOpens 0
  second : StandsAt params 0 → StandsAt params 1 → bOpens 1
  paired : StandsAt params 1 → sFirst = sSecond ∨ StandsAt params 0 ∧ sSecond ≠ ""

section Place
variable {params params' : List Members} {members : Members} {leg : SdpLeg} {i : Nat}

/-- The session has the legs of the sets in their order. -/
theorem vLegs_eq {session : SdpSession} (h : manualSession params = .ok (some session)) :
    session.vLegs = params.filterMap legOf := by
  obtain ⟨legs, hlegs, hsession⟩ := manual_legs h
  rw [hsession]
  clear h hsession
  induction params generalizing legs with
  | nil =>
    obtain rfl := Except.ok.inj hlegs
    rfl
  | cons members params ih =>
    rw [List.mapM_cons] at hlegs
    obtain ⟨leg, hleg, hlegs⟩ := bind_eq_ok.mp hlegs
    obtain ⟨rest, hrest, hlegs⟩ := bind_eq_ok.mp hlegs
    obtain rfl := Except.ok.inj hlegs
    have hof : legOf members = leg := by rw [legOf, hleg]; rfl
    cases leg with
    | none => rw [List.reduceOption_cons_of_none, List.filterMap_cons_none hof, ih rest hrest]
    | some leg => rw [List.reduceOption_cons_of_some, List.filterMap_cons_some hof, ih rest hrest]

/-- A set's leg is found at the place of the set. -/
theorem getElem?_filterMap_placeOf (hmembers : params[i]? = some members) (hleg : legOf members = some leg) :
    (params.filterMap legOf)[placeOf params i]? = some leg := by
  induction params generalizing i with
  | nil => cases hmembers
  | cons first params ih =>
    cases i with
    | zero =>
      obtain rfl := Option.some.inj hmembers
      rw [List.filterMap_cons_some hleg]
      rfl
    | succ i =>
      have hrest := ih hmembers
      cases hfirst : legOf first with
      | none =>
        rw [List.filterMap_cons_none hfirst, placeOf, List.take_succ_cons, List.countP_cons_of_neg (by simp [hfirst])]
        exact hrest
      | some other =>
        rw [List.filterMap_cons_some hfirst, placeOf, List.take_succ_cons, List.countP_cons_of_pos (by simp [hfirst])]
        exact hrest

theorem standsAt_zero_iff : StandsAt (members :: params) 0 ↔ (legOf members).isSome := by
  constructor
  · rintro ⟨_, leg, hmembers, hleg⟩
    obtain rfl := Option.some.inj hmembers
    rw [hleg]
    rfl
  · intro h
    obtain ⟨leg, hleg⟩ := Option.isSome_iff_exists.mp h
    exact ⟨members, leg, rfl, hleg⟩

theorem placeOf_one_of_standsAt (h : StandsAt params 0) : placeOf params 1 = 1 := by
  cases params with
  | nil =>
    obtain ⟨_, _, hmembers, -⟩ := h
    cases hmembers
  | cons members params => rw [placeOf, List.take_one, List.head?_cons, Option.toList_some,
      List.countP_singleton, if_pos (standsAt_zero_iff.mp h)]

theorem placeOf_one_of_not_standsAt (h : ¬ StandsAt params 0) : placeOf params 1 = 0 := by
  cases params with
  | nil => rfl
  | cons members params => rw [placeOf, List.take_one, List.head?_cons, Option.toList_some,
      List.countP_singleton, if_neg (fun hsome => h (standsAt_zero_iff.mpr hsome))]

variable {session : SdpSession} {vInterfaces : List String} {bOpens : Nat → Bool} {r : RxEngine} {nPlayoutDelayMs : Int}

/-- A set's leg is joined where the sockets up to its place open, and on the interface
of that place. -/
theorem joined_iff (hbuilt : manualSession params = .ok (some session)) (hinterfaces : vInterfaces ≠ [])
    (hmembers : params[i]? = some members) (hleg : legOf members = some leg) (hplace : placeOf params i < 2)
    (sInterface : String) :
    (r.configure bOpens session vInterfaces nPlayoutDelayMs).2.aLegs[placeOf params i]? =
        some ⟨sInterface, leg.sMulticast, true⟩ ↔
      (∀ j ≤ placeOf params i, bOpens j) ∧ RxEngine.interfaceOf vInterfaces (placeOf params i) = sInterface := by
  have hfound : session.vLegs[placeOf params i]? = some leg := by
    rw [vLegs_eq hbuilt, getElem?_filterMap_placeOf hmembers hleg]
  rw [RxEngine.configure_leg hfound hplace hinterfaces]
  split_ifs with hbefore
  · rw [Option.some.injEq, RxLeg.mk.injEq]
    constructor
    · rintro ⟨hinterface, -, hopen⟩
      refine ⟨fun j hj => ?_, hinterface⟩
      rcases Nat.lt_or_eq_of_le hj with hlt | rfl
      · exact hbefore j hlt
      · exact hopen
    · rintro ⟨hopen, hinterface⟩
      exact ⟨hinterface, rfl, hopen _ le_rfl⟩
  · constructor
    · intro hold
      exact absurd (RxEngine.not_open_stop r _ hold) (by simp)
    · rintro ⟨hopen, -⟩
      exact absurd (fun j hj => hopen j (Nat.le_of_lt hj)) hbefore

end Place

/-- For all parameters that a session is built from: their legs stay on the interfaces
of the sets if and only if no set that is on follows one that is not, or the interfaces
are the same, and the sockets open. -/
theorem staysOnInterface_iff (vIps : List String) (params : List Members) (session : SdpSession)
    (hbuilt : manualSession (resolveInterfaces vIps params).2 = .ok (some session)) (sFirst sSecond : String)
    (bOpens : Nat → Bool) (nPlayoutDelayMs : Int) (r : RxEngine) :
    StaysOnInterface params [sFirst, sSecond] (r.configure bOpens session [sFirst, sSecond] nPlayoutDelayMs).2 ↔
      KeepsPlace params sFirst sSecond bOpens := by
  rw [manualSession_congr (resolveInterfaces_same vIps params)] at hbuilt
  have hinterfaces : [sFirst, sSecond] ≠ [] := List.cons_ne_nil _ _
  have hzero : RxEngine.interfaceOf [sFirst, sSecond] 0 = sFirst := by
    simp only [RxEngine.interfaceOf, List.getElem?_cons_zero, List.headD_cons, ite_self]
  have hone : RxEngine.interfaceOf [sFirst, sSecond] 1 = sSecond ↔ sFirst = sSecond ∨ sSecond ≠ "" := by
    simp only [RxEngine.interfaceOf, List.getElem?_cons_succ, List.getElem?_cons_zero, List.headD_cons]
    split_ifs with hempty
    · exact ⟨Or.inl, fun h => h.resolve_right (not_not_intro hempty)⟩
    · exact ⟨fun _ => Or.inr hempty, fun _ => rfl⟩
  constructor
  · intro hstays
    have at_zero (h : StandsAt params 0) : bOpens 0 := by
      obtain ⟨members, leg, hmembers, hleg⟩ := h
      obtain ⟨sInterface, -, hjoined⟩ := hstays 0 members leg hmembers hleg
      exact ((joined_iff hbuilt hinterfaces hmembers hleg Nat.zero_lt_two sInterface).mp hjoined).1 0 le_rfl
    have at_one (h : StandsAt params 1) (hplace : placeOf params 1 < 2) :
        (∀ j ≤ placeOf params 1, bOpens j) ∧ RxEngine.interfaceOf [sFirst, sSecond] (placeOf params 1) = sSecond := by
      obtain ⟨members, leg, hmembers, hleg⟩ := h
      obtain ⟨sInterface, hinterface, hjoined⟩ := hstays 1 members leg hmembers hleg
      obtain rfl : sSecond = sInterface := Option.some.inj hinterface
      exact (joined_iff hbuilt hinterfaces hmembers hleg hplace sSecond).mp hjoined
    constructor
    · rintro i ⟨members, leg, hmembers, hleg⟩
      obtain ⟨sInterface, hinterface, -⟩ := hstays i members leg hmembers hleg
      exact (List.getElem?_eq_some_iff.mp hinterface).1
    · rintro (h | h)
      · exact at_zero h
      · by_cases h₀ : StandsAt params 0
        · exact at_zero h₀
        · have hplace := placeOf_one_of_not_standsAt h₀
          exact (at_one h (by omega)).1 0 (Nat.zero_le _)
    · intro h₀ h
      have hplace := placeOf_one_of_standsAt h₀
      exact (at_one h (by omega)).1 1 hplace.ge
    · intro h
      by_cases h₀ : StandsAt params 0
      · have hplace := placeOf_one_of_standsAt h₀
        have hsame := (at_one h (by omega)).2
        rw [hplace, hone] at hsame
        exact hsame.imp_right fun hne => ⟨h₀, hne⟩
      · have hplace := placeOf_one_of_not_standsAt h₀
        have hsame := (at_one h (by omega)).2
        rw [hplace, hzero] at hsame
        exact Or.inl hsame
  · intro hkeeps i members leg hmembers hleg
    have hstands : StandsAt params i := ⟨members, leg, hmembers, hleg⟩
    have hi : i < 2 := hkeeps.two i hstands
    obtain rfl | rfl : i = 0 ∨ i = 1 := by omega
    · refine ⟨sFirst, rfl, (joined_iff hbuilt hinterfaces hmembers hleg Nat.zero_lt_two sFirst).mpr ⟨?_, hzero⟩⟩
      intro j hj
      obtain rfl : j = 0 := Nat.le_zero.mp hj
      exact hkeeps.first (Or.inl hstands)
    · by_cases h₀ : StandsAt params 0
      · have hplace := placeOf_one_of_standsAt h₀
        refine ⟨sSecond, rfl, (joined_iff hbuilt hinterfaces hmembers hleg (by omega) sSecond).mpr ⟨?_, ?_⟩⟩
        · intro j hj
          obtain rfl | rfl : j = 0 ∨ j = 1 := by omega
          · exact hkeeps.first (Or.inl h₀)
          · exact hkeeps.second h₀ hstands
        · rw [hplace, hone]
          exact (hkeeps.paired hstands).imp_right And.right
      · have hplace := placeOf_one_of_not_standsAt h₀
        refine ⟨sSecond, rfl, (joined_iff hbuilt hinterfaces hmembers hleg (by omega) sSecond).mpr ⟨?_, ?_⟩⟩
        · intro j hj
          obtain rfl : j = 0 := by omega
          exact hkeeps.first (Or.inr hstands)
        · rw [hplace, hzero]
          exact (hkeeps.paired hstands).resolve_right fun h => h₀ h.1

/-- An activation without a transport file hands the engine the session of its parameters. -/
theorem receiver_activateReceiver {sys : System} {s : Node} {session : SdpSession}
    (henable : s.api.receiverStaged.masterEnable = .bool true)
    (hfile : ∀ sSdp, findKey "data" s.api.receiverStaged.transportFile ≠ some (.str sSdp))
    (hinterfaces : (resolveInterfaces sys.hostIps s.api.receiverStaged.transportParams).1 = .ok ())
    (hbuilt : manualSession (resolveInterfaces sys.hostIps s.api.receiverStaged.transportParams).2 = .ok (some session)) :
    ((activateReceiver sys).exec s).2.receiver =
      (s.receiver.configure sys.rxOpens session (interfaces s.config)
        (s.config.getValue getInt "receiver.playout_delay_ms" 20)).2 := by
  have hsession : receiverSession true (commitReceiver sys s).2.api.receiverActive = .ok (some session) := by
    rw [receiverSession, if_pos rfl]
    split
    · next sSdp hdata => exact absurd hdata (hfile sSdp)
    · exact hbuilt
  rw [exec_activateReceiver henable hinterfaces hsession]
  rfl

section TwoSets

/-- Two parameter sets with an address each, switched on or off. -/
def twoSets (bFirst bSecond : Bool) : List Members :=
  [[("destination_port", .int 5004), ("interface_ip", .str "auto"), ("multicast_ip", .str "239.1.1.1"),
      ("rtp_enabled", .bool bFirst), ("source_ip", .null)],
    [("destination_port", .int 5004), ("interface_ip", .str "auto"), ("multicast_ip", .str "239.1.1.2"),
      ("rtp_enabled", .bool bSecond), ("source_ip", .null)]]

def bothLegs : SdpSession :=
  { sName := "is-05 parameters", vLegs := [{ sMulticast := "239.1.1.1", nPort := 5004 }, { sMulticast := "239.1.1.2", nPort := 5004 }] }

def secondLeg : SdpSession := { sName := "is-05 parameters", vLegs := [{ sMulticast := "239.1.1.2", nPort := 5004 }] }

theorem staysOnInterface_iff_both :
    StaysOnInterface (twoSets true true) ["eth0", "eth1"] (RxEngine.configure (fun _ => true) bothLegs ["eth0", "eth1"] 20 {}).2 ↔
      KeepsPlace (twoSets true true) "eth0" "eth1" fun _ => true :=
  staysOnInterface_iff [] (twoSets true true) bothLegs rfl "eth0" "eth1" (fun _ => true) 20 {}

/-- Only the second set is on, and its group is joined on the first interface. -/
theorem not_staysOnInterface_second : ¬ ∀ (vIps : List String) (params : List Members) (session : SdpSession),
    manualSession (resolveInterfaces vIps params).2 = .ok (some session) →
    ∀ (sFirst sSecond : String) (bOpens : Nat → Bool) (nPlayoutDelayMs : Int) (r : RxEngine), (∀ k, bOpens k) →
      StaysOnInterface params [sFirst, sSecond] (r.configure bOpens session [sFirst, sSecond] nPlayoutDelayMs).2 := by
  intro hclaim
  have hstays := hclaim [] (twoSets false true) secondLeg rfl "eth0" "eth1" (fun _ => true) 20 {} fun _ => rfl
  obtain ⟨sInterface, hinterface, hjoined⟩ := hstays 1 _ { sMulticast := "239.1.1.2", nPort := 5004 } rfl rfl
  obtain rfl : "eth1" = sInterface := Option.some.inj hinterface
  have hleg := congrArg (Option.map RxLeg.sInterface) hjoined
  exact absurd hleg (by decide +kernel)

end TwoSets

end PiAudioNode.Nmos
