import PiAudioNode.Rtp.Advertised
import PiAudioNode.Rtp.Control

/-! What a start that fails leaves of an engine: its sockets, its threads, and what its
status and its description go on to show. -/
namespace PiAudioNode.Rtp
open Lib

/-- What a status shows of an engine: whether it runs, and its legs by interface and group. -/
structure EngineReport where
  bRunning : Bool
  vLegs : List (String × String)

/-- The report is that of a stopped engine, without a leg to one of these groups. -/
structure EngineReport.ShowsStopped (report : EngineReport) (vRejected : List String) : Prop where
  stopped : report.bRunning = false
  without : ∀ leg ∈ report.vLegs, leg.2 ∉ vRejected

/-- A call that fails early and otherwise leaves something behind whenever it fails. -/
theorem failed_iff {bStarted : Bool} {Left early Clean : Prop} (hearly : early → bStarted = false ∧ (Left ↔ Clean))
    (hlate : ¬ early → ¬ Left) : (bStarted = false → Left) ↔ bStarted = true ∨ early ∧ Clean := by
  by_cases h : early
  · obtain ⟨hfailed, hclean⟩ := hearly h
    simp [hfailed, hclean, h]
  · constructor
    · intro hleft
      cases bStarted with
      | true => exact Or.inl rfl
      | false => exact absurd (hleft rfl) (hlate h)
    · rintro (hstarted | ⟨habs, -⟩) hfailed
      · rw [hstarted] at hfailed
        cases hfailed
      · exact absurd habs h

namespace RxEngine

def nLegCount (r : RxEngine) : Nat := min r.config.session.vLegs.length 2

def report (r : RxEngine) : EngineReport where
  bRunning := r.bRun
  vLegs := (r.aLegs.toList.take r.nLegCount).map fun leg => (leg.sInterface, leg.sMulticast)

/-- Nothing is left of a session that could not be started. -/
structure LeftStopped (session : SdpSession) (r : RxEngine) : Prop where
  closed : ∀ leg ∈ r.aLegs.toList, leg.bOpen = false
  idle : r.bRun = false
  report : r.report.ShowsStopped (session.vLegs.map SdpLeg.sMulticast)

variable {bOpens : Nat → Bool} {session : SdpSession} {vInterfaces : List String} {nPlayoutDelayMs : Int} {r : RxEngine}

theorem report_stop : r.stop.report = ⟨false, r.report.vLegs⟩ := by
  rw [report, stop, report]
  simp only [Vector.toList_map, List.map_take, List.map_map]
  rfl

theorem leftStopped_stop_iff : r.stop.LeftStopped session ↔
    ∀ leg ∈ r.report.vLegs, leg.2 ∉ session.vLegs.map SdpLeg.sMulticast := by
  constructor
  · intro h
    have hreport := h.report.without
    rwa [report_stop] at hreport
  · intro hwithout
    refine ⟨fun leg hleg => ?_, rfl, ?_⟩
    · obtain ⟨k, hk⟩ := List.mem_iff_getElem?.mp hleg
      exact not_open_stop r k (by simpa using hk)
    · rw [report_stop]
      exact ⟨rfl, hwithout⟩

theorem configure_fst : (configure bOpens session vInterfaces nPlayoutDelayMs r).1 = true ↔
    (session.vLegs ≠ [] ∧ vInterfaces ≠ []) ∧ ∀ k < min session.vLegs.length 2, bOpens k := by
  by_cases hnone : session.vLegs = [] ∨ vInterfaces = []
  · rw [configure, if_pos hnone]
    exact ⟨fun h => absurd h Bool.false_ne_true, fun h => (hnone.elim h.1.1 h.1.2).elim⟩
  · have hopens := @openLegs_fst bOpens vInterfaces 0 (session.vLegs.take 2)
      { r.stop with config := .ofSession session nPlayoutDelayMs }
    simp only [List.length_take, Nat.zero_add, min_comm 2] at hopens
    rw [configure, if_neg hnone, ← hopens]
    simp only
    split_ifs with hopen
    · exact ⟨fun _ => ⟨not_or.mp hnone, hopen⟩, fun _ => rfl⟩
    · exact ⟨fun h => absurd h hopen, fun h => h.2⟩

theorem nLegCount_configure (h : ¬ (session.vLegs = [] ∨ vInterfaces = [])) :
    (configure bOpens session vInterfaces nPlayoutDelayMs r).2.nLegCount = min session.vLegs.length 2 := by
  have hkept := @openLegs_kept bOpens vInterfaces 0 (session.vLegs.take 2)
    { r.stop with config := .ofSession session nPlayoutDelayMs }
  rw [configure, if_neg h, nLegCount]
  simp only
  split_ifs
  · rw [hkept.2]
    rfl
  · rw [hkept.2]
    rfl

/-- Once the settings are taken over, the status shows the first leg of the session. -/
theorem mem_report_configure {leg : SdpLeg} (hleg : session.vLegs[0]? = some leg) (hinterfaces : vInterfaces ≠ []) :
    (interfaceOf vInterfaces 0, leg.sMulticast) ∈
      (configure bOpens session vInterfaces nPlayoutDelayMs r).2.report.vLegs := by
  have hlegs : session.vLegs ≠ [] := fun hnil => by rw [hnil] at hleg; cases hleg
  have hcount := @nLegCount_configure bOpens session vInterfaces nPlayoutDelayMs r (not_or.mpr ⟨hlegs, hinterfaces⟩)
  have hfirst := @configure_leg bOpens vInterfaces session 0 leg hleg Nat.zero_lt_two hinterfaces nPlayoutDelayMs r
  rw [if_pos fun j hj => absurd hj (Nat.not_lt_zero j)] at hfirst
  have hpos := List.length_pos_iff.mpr hlegs
  rw [report, hcount, List.mem_map]
  refine ⟨⟨interfaceOf vInterfaces 0, leg.sMulticast, bOpens 0⟩, List.mem_iff_getElem?.mpr ⟨0, ?_⟩, rfl⟩
  rw [List.getElem?_take_of_lt (by omega)]
  simpa using hfirst

/-- A start that fails leaves the engine stopped exactly where it fails before it takes
the settings over, and the status did not show a group of theirs before. -/
theorem configure_failed_iff :
    ((configure bOpens session vInterfaces nPlayoutDelayMs r).1 = false →
        (configure bOpens session vInterfaces nPlayoutDelayMs r).2.LeftStopped session) ↔
      ((session.vLegs ≠ [] ∧ vInterfaces ≠ []) ∧ ∀ k < min session.vLegs.length 2, bOpens k) ∨
        (session.vLegs = [] ∨ vInterfaces = []) ∧
          ∀ leg ∈ r.report.vLegs, leg.2 ∉ session.vLegs.map SdpLeg.sMulticast := by
  rw [← @configure_fst bOpens session vInterfaces nPlayoutDelayMs r]
  apply failed_iff
  · intro hnone
    rw [configure, if_pos hnone]
    exact ⟨rfl, leftStopped_stop_iff⟩
  · intro hboth h
    obtain ⟨hlegs, hinterfaces⟩ := not_or.mp hboth
    obtain ⟨leg, rest, hcons⟩ := List.exists_cons_of_ne_nil hlegs
    apply h.report.without _ (mem_report_configure (by rw [hcons]; rfl) hinterfaces)
    rw [hcons]
    exact List.mem_cons_self

end RxEngine

namespace RtpSender

def report (s : RtpSender) : EngineReport where
  bRunning := s.bRun
  vLegs := s.vLegs.map fun leg => (leg.sInterface, leg.sMulticast)

/-- Nothing is left of legs that could not be started, the description included. -/
structure LeftStopped (config : Config) (c : Ptp.PtpClock) (vLegs : List SenderLeg) (s : RtpSender) : Prop where
  closed : s.vSockets = []
  idle : s.bRun = false
  report : s.report.ShowsStopped (vLegs.map SenderLeg.sMulticast)
  described : ∀ leg ∈ (s.describeSession config c).vLegs, leg.sMulticast ∉ vLegs.map SenderLeg.sMulticast

variable {sys : SenderSystem} {vLegs : List SenderLeg} {nPort : BitVec 16} {nPayloadType nPacketTimeUs : Int}
  {pSource : Option Audio.Source} {s : RtpSender} {config : Config} {c : Ptp.PtpClock}

/-- The description has legs of the status only. -/
theorem described_mem_report {leg : SdpLeg} (h : leg ∈ (s.describeSession config c).vLegs) :
    ∃ shown ∈ s.report.vLegs, shown.2 = leg.sMulticast := by
  obtain ⟨nLeg, hmem, rfl⟩ := List.mem_map.mp h
  have hlt : nLeg < s.vLegs.length := List.mem_range.mp (List.mem_filter.mp hmem).1
  refine ⟨(s.vLegs[nLeg].sInterface, s.vLegs[nLeg].sMulticast),
    List.mem_map.mpr ⟨s.vLegs[nLeg], List.getElem_mem hlt, rfl⟩, ?_⟩
  rw [describeLeg, List.getElem?_eq_getElem hlt]
  rfl

theorem leftStopped_stop_iff : s.stop.LeftStopped config c vLegs ↔
    ∀ leg ∈ s.report.vLegs, leg.2 ∉ vLegs.map SenderLeg.sMulticast := by
  constructor
  · intro h
    exact h.report.without
  · intro hwithout
    refine ⟨rfl, rfl, ⟨rfl, hwithout⟩, fun leg hleg => ?_⟩
    obtain ⟨shown, hshown, hsame⟩ := described_mem_report hleg
    rw [← hsame]
    exact hwithout shown hshown

theorem openLegs_fst (vLegs : List SenderLeg) (s : RtpSender) : (openLegs sys vLegs s).1 = true ↔
    ∀ k < vLegs.length, sys.legSocket (s.vSockets.length + k) = .opened := by
  induction vLegs generalizing s with
  | nil => simp [openLegs]
  | cons leg rest ih =>
    rw [openLegs, List.length_cons, Nat.forall_lt_succ_left]
    split
    next hopened =>
      rw [ih]
      simp only [setLegEnabled, List.length_append, List.length_singleton, Nat.add_zero, hopened, true_and, Nat.add_assoc,
        Nat.add_comm 1]
    next hrefused => exact ⟨fun h => absurd h Bool.false_ne_true, fun h => absurd h.1 hrefused⟩

/-- Once the settings are taken over, the status shows every leg of them. -/
theorem report_configure {source : Audio.Source} (hlegs : vLegs ≠ []) :
    (configure sys vLegs nPort nPayloadType nPacketTimeUs (some source) s).2.report.vLegs =
      vLegs.map fun leg => (leg.sInterface, leg.sMulticast) := by
  obtain ⟨leg, rest, rfl⟩ := List.exists_cons_of_ne_nil hlegs
  have hkept := fun s => (openLegs_fields sys (leg :: rest) s).1
  simp only [configure, report]
  split_ifs
  · exact congrArg _ (hkept _)
  · exact congrArg _ (hkept _)

theorem configure_fst : (configure sys vLegs nPort nPayloadType nPacketTimeUs pSource s).1 = true ↔
    (vLegs ≠ [] ∧ pSource ≠ none) ∧ ∀ k < vLegs.length, sys.legSocket k = .opened := by
  cases vLegs with
  | nil => exact ⟨fun h => absurd h Bool.false_ne_true, fun h => absurd rfl h.1.1⟩
  | cons leg rest =>
    cases pSource with
    | none => exact ⟨fun h => absurd h Bool.false_ne_true, fun h => absurd rfl h.1.2⟩
    | some source =>
      have hopens := @openLegs_fst sys (leg :: rest) { s.stop with
        vLegs := leg :: rest, nPort := nPort, nPayloadType := nPayloadType
        nPacketTimeUs := max 125 nPacketTimeUs
        pSource := some source
        sSourceName := source.describe
        vSourceIps := [] }
      simp only [stop, List.length_nil, Nat.zero_add] at hopens
      rw [configure, ← hopens]
      simp only
      split_ifs with hopen
      · exact ⟨fun _ => ⟨⟨List.cons_ne_nil _ _, Option.some_ne_none _⟩, hopen⟩, fun _ => rfl⟩
      · exact ⟨fun h => absurd h hopen, fun h => h.2⟩

/-- A start that fails leaves the engine stopped exactly where it fails before it takes
the settings over, and the status did not show a group of theirs before. -/
theorem configure_failed_iff :
    ((configure sys vLegs nPort nPayloadType nPacketTimeUs pSource s).1 = false →
        (configure sys vLegs nPort nPayloadType nPacketTimeUs pSource s).2.LeftStopped config c vLegs) ↔
      ((vLegs ≠ [] ∧ pSource ≠ none) ∧ ∀ k < vLegs.length, sys.legSocket k = .opened) ∨
        (vLegs = [] ∨ pSource = none) ∧ ∀ leg ∈ s.report.vLegs, leg.2 ∉ vLegs.map SenderLeg.sMulticast := by
  rw [← @configure_fst sys vLegs nPort nPayloadType nPacketTimeUs pSource s]
  apply failed_iff
  · intro hnone
    have hstop : configure sys vLegs nPort nPayloadType nPacketTimeUs pSource s = (false, s.stop) := by
      rcases hnone with rfl | rfl
      · rfl
      · cases vLegs <;> rfl
    rw [hstop]
    exact ⟨rfl, leftStopped_stop_iff⟩
  · intro hboth h
    obtain ⟨hlegs, hsource⟩ := not_or.mp hboth
    obtain ⟨source, rfl⟩ := Option.ne_none_iff_exists'.mp hsource
    have hwithout := h.report.without
    rw [report_configure hlegs] at hwithout
    obtain ⟨leg, rest, rfl⟩ := List.exists_cons_of_ne_nil hlegs
    exact hwithout (leg.sInterface, leg.sMulticast) List.mem_cons_self List.mem_cons_self

end RtpSender

/-- Both engines, whatever they are given and however the socket calls end. -/
theorem failed_start_iff (bOpens : Nat → Bool) (session : SdpSession) (vInterfaces : List String) (nPlayoutDelayMs : Int)
    (r : RxEngine) (sys : SenderSystem) (vLegs : List SenderLeg) (nPort : BitVec 16) (nPayloadType nPacketTimeUs : Int)
    (pSource : Option Audio.Source) (s : RtpSender) (config : Config) (c : Ptp.PtpClock) :
    (((r.configure bOpens session vInterfaces nPlayoutDelayMs).1 = false →
          (r.configure bOpens session vInterfaces nPlayoutDelayMs).2.LeftStopped session) ↔
        ((session.vLegs ≠ [] ∧ vInterfaces ≠ []) ∧ ∀ k < min session.vLegs.length 2, bOpens k) ∨
          (session.vLegs = [] ∨ vInterfaces = []) ∧
            ∀ leg ∈ r.report.vLegs, leg.2 ∉ session.vLegs.map SdpLeg.sMulticast) ∧
    (((s.configure sys vLegs nPort nPayloadType nPacketTimeUs pSource).1 = false →
          (s.configure sys vLegs nPort nPayloadType nPacketTimeUs pSource).2.LeftStopped config c vLegs) ↔
        ((vLegs ≠ [] ∧ pSource ≠ none) ∧ ∀ k < vLegs.length, sys.legSocket k = .opened) ∨
          (vLegs = [] ∨ pSource = none) ∧ ∀ leg ∈ s.report.vLegs, leg.2 ∉ vLegs.map SenderLeg.sMulticast) :=
  ⟨RxEngine.configure_failed_iff, RtpSender.configure_failed_iff⟩

/-- The second of two sockets cannot be opened, and the first stays open. -/
theorem failed_start_open : ¬ ∀ bOpens session vInterfaces nPlayoutDelayMs (r : RxEngine),
    (r.configure bOpens session vInterfaces nPlayoutDelayMs).1 = false →
      (r.configure bOpens session vInterfaces nPlayoutDelayMs).2.LeftStopped session := by
  intro hclaim
  have hleft := hclaim (· = 0) { vLegs := [{ sMulticast := "239.1.1.1" }, { sMulticast := "239.1.1.2" }] }
    ["eth0", "eth1"] 20 {} (by decide)
  exact absurd (hleft.closed ⟨"eth0", "239.1.1.1", true⟩ (by decide +kernel)) (by decide)

end PiAudioNode.Rtp
