import PiAudioNode.Lib.Hold
import PiAudioNode.Nmos.Monitor

/-! The reporting delay: a less healthy status shows once it has persisted, a healthier
one at once, and degrees of unhealthiness that alternate never do. -/
namespace PiAudioNode.Nmos
open Lib

def domainAfter (s : Is12Server) (ops : List Is12Operation) (nOid : Int) (nDomain : Domain) : McDomain :=
  ((s.runOperations ops).1.monitorOf nOid).aDomains nDomain

def DomainCall.report (c : DomainCall) : Int × Instant := (c.nStatus, c.now)

/-- The status that is held back, since when. -/
def McDomain.held (domain : McDomain) : Option (Int × Instant) :=
  if domain.nPendingStatus = -1 then none else some (domain.nPendingStatus, domain.pendingSince)

section Reported
variable {domain : McDomain} {c : DomainCall}

theorem reported_entered (h : ¬ domain.Worsens c.nStatus) : domain.reported c = domain.entered c := if_neg h

/-- A worse status is held back until its delay is over. -/
theorem reported_worse (h : domain.Worsens c.nStatus) :
    domain.reported c = domain.pending c ∧ (domain.pending c).held = hold domain.held c.report ∧
        (∀ held, domain.held = some held → held.1 = c.nStatus → c.now < held.2 + statusReportingDelay) ∨
      domain.reported c = domain.entered c ∧
        ∃ held, domain.held = some held ∧ held.1 = c.nStatus ∧ held.2 + statusReportingDelay ≤ c.now := by
  have hworse := h.1
  unfold McDomain.reported
  rw [if_pos h]
  by_cases hsame : domain.nPendingStatus = c.nStatus
  · have hheld : domain.held = some (c.nStatus, domain.pendingSince) := by
      rw [McDomain.held, hsame, if_neg (by omega)]
    have hpending : domain.pending c = domain := if_neg (not_not.mpr hsame)
    rw [hpending, hheld]
    split
    · rename_i hshort
      refine Or.inl ⟨rfl, by simp [hold, DomainCall.report], fun held hh _ => ?_⟩
      obtain rfl := Option.some.inj hh
      exact sub_lt_iff_lt_add'.mp hshort
    · rename_i hlong
      exact Or.inr ⟨rfl, _, rfl, rfl, le_sub_iff_add_le'.mp (not_lt.mp hlong)⟩
  · -- the timer starts with this report, so it cannot be over
    have hpending : domain.pending c = { domain with nPendingStatus := c.nStatus, pendingSince := c.now } := if_pos hsame
    rw [hpending, if_pos (by simp [statusReportingDelay])]
    refine Or.inl ⟨rfl, ?_, fun held hh hvalue => ?_⟩
    · simp only [McDomain.held]
      rw [if_neg (by omega)]
      split
      · rfl
      · simp [hold, DomainCall.report, hsame]
    · rw [McDomain.held] at hh
      split at hh
      · cases hh
      · obtain rfl := Option.some.inj hh
        exact absurd hvalue hsame

theorem entered_held : (domain.entered c).held = none := if_pos rfl

end Reported

/-- What a reset and the other operations leave of a domain. -/
structure SameTimer (d d' : McDomain) : Prop where
  status : d'.nStatus = d.nStatus
  held : d'.held = d.held

section Server
variable {s : Is12Server} {nOid : Int} {nDomain : Domain}

theorem domainAfter_nil : domainAfter s [] nOid nDomain = (s.monitorOf nOid).aDomains nDomain := rfl

/-- One more operation is a report on the domain, or leaves its timer alone. -/
theorem domainAfter_snoc (hw : Wired s) (hoid : nOid = 10 ∨ nOid = 11) (nDomain : Domain) (ops : List Is12Operation)
    (op : Is12Operation) :
    (∃ c, callOn nOid op = some c ∧ c.nDomain = nDomain ∧ callsOn nOid nDomain [op] = [c] ∧
        domainAfter s (ops ++ [op]) nOid nDomain = (domainAfter s ops nOid nDomain).reported c) ∨
      callsOn nOid nDomain [op] = [] ∧
        SameTimer (domainAfter s ops nOid nDomain) (domainAfter s (ops ++ [op]) nOid nDomain) := by
  unfold domainAfter
  rw [runOperations_snoc, andThen_fst]
  generalize hm' : (((s.runOperations ops).1.step op).1.monitorOf nOid) = m'
  have hstep := monitorStep (hw.run ops) hoid op
  rw [hm'] at hstep
  rw [callsOn_singleton]
  cases hstep with
  | call c hcall happly =>
    rw [hcall, happly]
    by_cases hd : c.nDomain = nDomain
    · subst hd
      refine Or.inl ⟨c, rfl, rfl, by simp, ?_⟩
      rw [applyCall_aDomains, Function.update_self]
    · refine Or.inr ⟨by simp [hd], ?_⟩
      rw [applyCall_ne _ (Ne.symm hd)]
      exact ⟨rfl, rfl⟩
  | reset hcall _ hreset =>
    rw [hcall, hreset]
    exact Or.inr ⟨rfl, rfl, rfl⟩
  | other hcall _ hsame =>
    rw [hcall, hsame.domains]
    exact Or.inr ⟨rfl, rfl, rfl⟩

/-- What is held back was reported from its time on by every call. -/
theorem stretch_of_held (hw : Wired s) (hoid : nOid = 10 ∨ nOid = 11) (ops : List Is12Operation)
    (hstart : ((s.monitorOf nOid).aDomains nDomain).held = none) {held : Int × Instant}
    (h : (domainAfter s ops nOid nDomain).held = some held) :
    Stretch ((callsOn nOid nDomain ops).map DomainCall.report) held.1 held.2 := by
  induction ops using List.reverseRecOn generalizing held with
  | nil =>
    rw [domainAfter_nil, hstart] at h
    cases h
  | append_singleton ops op ih =>
    rw [callsOn_append, List.map_append]
    rcases domainAfter_snoc hw hoid nDomain ops op with ⟨c, -, -, hone, hreported⟩ | ⟨hnone, hsame⟩
    · rw [hone, List.map_singleton]
      rw [hreported] at h
      by_cases hworse : (domainAfter s ops nOid nDomain).Worsens c.nStatus
      · rcases reported_worse hworse with ⟨heq, hhold, -⟩ | ⟨heq, -⟩
        · rw [heq, hhold] at h
          obtain ⟨hvalue, hbefore | rfl⟩ := hold_eq_some h
          · exact stretch_snoc.mpr (Or.inr ⟨hvalue.symm, ih hbefore⟩)
          · exact stretch_snoc.mpr (Or.inl rfl)
        · rw [heq, entered_held] at h
          cases h
      · rw [reported_entered hworse, entered_held] at h
        cases h
    · rw [hnone, List.map_nil, List.append_nil]
      rw [hsame.held] at h
      exact ih h

/-- The delay as a promise on one more operation: a rise to an unhealthy status comes
after reports of nothing else for the delay, and a report of no less healthy a status,
or of a healthy one, takes effect at once with its message. -/
structure DelayKept (s : Is12Server) (nOid : Int) (nDomain : Domain) (ops : List Is12Operation) (op : Is12Operation) :
    Prop where
  rises : (domainAfter s ops nOid nDomain).nStatus < (domainAfter s (ops ++ [op]) nOid nDomain).nStatus →
    2 ≤ (domainAfter s (ops ++ [op]) nOid nDomain).nStatus →
    ∃ call pre first mid, callOn nOid op = some call ∧ call.nDomain = nDomain ∧
      callsOn nOid nDomain ops = pre ++ first :: mid ∧ first.now ≤ call.now - statusReportingDelay ∧
      ∀ c ∈ first :: (mid ++ [call]), c.nStatus = (domainAfter s (ops ++ [op]) nOid nDomain).nStatus
  immediate : ∀ call, callOn nOid op = some call → call.nDomain = nDomain →
    call.nStatus ≤ (domainAfter s ops nOid nDomain).nStatus ∨ call.nStatus = 1 →
    (domainAfter s (ops ++ [op]) nOid nDomain).nStatus = call.nStatus ∧
      (domainAfter s (ops ++ [op]) nOid nDomain).sMessage = call.sMessage

/-- The calls behind a stretch of reports. -/
theorem Stretch.calls {cs : List DomainCall} {v : Int} {t : Instant} (h : Stretch (cs.map DomainCall.report) v t) :
    ∃ pre first mid, cs = pre ++ first :: mid ∧ first.now = t ∧ ∀ c ∈ first :: mid, c.nStatus = v := by
  obtain ⟨pre, rest, hsplit, hrest⟩ := h
  obtain ⟨pre, tail, rfl, -, htail⟩ := List.map_eq_append_iff.mp hsplit
  obtain ⟨first, mid, rfl, hfirst, rfl⟩ := List.map_eq_cons_iff.mp htail
  obtain ⟨hstatus, hnow⟩ := Prod.mk.inj hfirst
  refine ⟨pre, first, mid, rfl, hnow, fun c hc => ?_⟩
  rcases List.mem_cons.mp hc with rfl | hc
  · exact hstatus
  · exact hrest c.report (List.mem_map_of_mem hc)

theorem delayKept (hw : Wired s) (hoid : nOid = 10 ∨ nOid = 11)
    (hstart : ((s.monitorOf nOid).aDomains nDomain).held = none) (ops : List Is12Operation) (op : Is12Operation) :
    DelayKept s nOid nDomain ops op := by
  rcases domainAfter_snoc hw hoid nDomain ops op with ⟨c, hcall, hdomain, -, hreported⟩ | ⟨hnone, hsame⟩
  swap
  · refine ⟨fun hrise => absurd hrise (by rw [hsame.status]; exact lt_irrefl _), fun call hcall hdomain => ?_⟩
    rw [callsOn_singleton, hcall] at hnone
    simp [hdomain] at hnone
  constructor
  · intro hrise hbad
    rw [hreported] at hrise hbad ⊢
    by_cases hworse : (domainAfter s ops nOid nDomain).Worsens c.nStatus
    · rcases reported_worse hworse with ⟨heq, -⟩ | ⟨heq, held, hheld, hvalue, hlong⟩
      · rw [heq, pending_nStatus] at hrise
        exact absurd hrise (lt_irrefl _)
      · obtain ⟨pre, first, mid, hsplit, hnow, hall⟩ := Stretch.calls (stretch_of_held hw hoid ops hstart hheld)
        rw [heq]
        refine ⟨c, pre, first, mid, hcall, hdomain, hsplit, ?_, fun x hx => ?_⟩
        · rw [hnow]
          exact le_sub_iff_add_le.mpr hlong
        · rw [← List.cons_append] at hx
          rcases List.mem_append.mp hx with hx | hx
          · exact (hall x hx).trans hvalue
          · rw [List.mem_singleton.mp hx]
            rfl
    · rw [reported_entered hworse] at hrise hbad
      exact absurd ⟨hbad, hrise⟩ hworse
  · intro call hcall' _ hstatus
    obtain rfl := Option.some.inj (hcall.symm.trans hcall')
    have hmild : ¬ (domainAfter s ops nOid nDomain).Worsens c.nStatus := by
      rintro ⟨hbad, hworse⟩
      omega
    rw [hreported, reported_entered hmild]
    exact ⟨rfl, rfl⟩

end Server

/-- In every run of a server, on both monitors and every domain. -/
theorem statusReportingDelay_kept (sNodeId sVersion sReceiverId sSenderId : String) (ops : List Is12Operation)
    (op : Is12Operation) {nOid : Int} (hoid : nOid = 10 ∨ nOid = 11) (nDomain : Domain) :
    DelayKept (.init sNodeId sVersion sReceiverId sSenderId) nOid nDomain ops op := by
  apply delayKept (wired_init ..) hoid
  rcases hoid with rfl | rfl <;> rfl

theorem statusReportingDelay_kept_linkDown : DelayKept (.init "node" "1.0" "receiver" "sender") 10 .link
    [.updateReceiverDomain .link 2 "eth1 down" 0] (.updateReceiverDomain .link 2 "eth1 down" 3000000000) :=
  statusReportingDelay_kept "node" "1.0" "receiver" "sender" _ _ (Or.inl rfl) .link

section Persistent
variable {s : Is12Server} {nOid : Int} {nDomain : Domain}

/-- The reports that count for what comes next: the one held back, then the calls. -/
def reportsFrom (domain : McDomain) (cs : List DomainCall) : List (Int × Instant) :=
  domain.held.toList ++ cs.map DomainCall.report

/-- Either the domain has become worse and some report persisted, or neither: then the
timer is that of the reports. -/
def Waits (d d' : McDomain) (l : List (Int × Instant)) : Prop :=
  d.nStatus < d'.nStatus ∧ Persists statusReportingDelay l ∨
    d'.nStatus = d.nStatus ∧ d'.held = run hold none l ∧ ¬ Persists statusReportingDelay l

theorem waits_start (d : McDomain) : Waits d d (reportsFrom d []) := by
  refine Or.inr ⟨rfl, ?_, ?_⟩
  · rw [reportsFrom]
    cases d.held <;> rfl
  · rw [reportsFrom, List.map_nil, List.append_nil]
    cases d.held with
    | none => exact not_persists_nil
    | some x =>
      rw [Option.toList_some, ← List.nil_append [x], persists_snoc]
      rintro (h | ⟨t, h, -⟩)
      · exact not_persists_nil h
      · exact not_stretch_nil h

/-- One more report of a status worse than at the start. -/
theorem Waits.reported {d d' : McDomain} {l : List (Int × Instant)} (h : Waits d d' l)
    (hl : l.Pairwise (·.2 ≤ ·.2)) {c : DomainCall} (hbad : 2 ≤ c.nStatus) (hworse : d.nStatus < c.nStatus) :
    Waits d (d'.reported c) (l ++ [c.report]) := by
  have hentered : (d'.entered c).nStatus = c.nStatus := rfl
  rcases h with ⟨hrisen, hpersists⟩ | ⟨hsame, hheld, hnot⟩
  · refine Or.inl ⟨?_, persists_snoc.mpr (Or.inl hpersists)⟩
    by_cases hw : d'.Worsens c.nStatus
    · rcases reported_worse hw with ⟨heq, -⟩ | ⟨heq, -⟩
      · rwa [heq, pending_nStatus]
      · rwa [heq, hentered]
    · rwa [reported_entered hw, hentered]
  · have hw : d'.Worsens c.nStatus := ⟨hbad, hsame ▸ hworse⟩
    rcases reported_worse hw with ⟨heq, hhold, hshort⟩ | ⟨heq, held, hsome, hvalue, hlong⟩
    · refine Or.inr ⟨?_, ?_, ?_⟩
      · rw [heq, pending_nStatus, hsame]
      · rw [heq, hhold, hheld, run_snoc]
      · rw [persists_snoc_hold hl, ← hheld]
        rintro (hp | ⟨held, hsome, hvalue, hlong⟩)
        · exact hnot hp
        · exact absurd (hshort held hsome hvalue) (not_lt.mpr hlong)
    · refine Or.inl ⟨?_, ?_⟩
      · rwa [heq, hentered]
      · rw [persists_snoc_hold hl, ← hheld]
        exact Or.inr ⟨held, hsome, hvalue, hlong⟩

theorem waits_run (hw : Wired s) (hoid : nOid = 10 ∨ nOid = 11) (d : McDomain)
    (hd : d = (s.monitorOf nOid).aDomains nDomain) (more : List Is12Operation)
    (hsorted : (reportsFrom d (callsOn nOid nDomain more)).Pairwise (·.2 ≤ ·.2))
    (hbad : ∀ c ∈ callsOn nOid nDomain more, 2 ≤ c.nStatus ∧ d.nStatus < c.nStatus) :
    Waits d (domainAfter s more nOid nDomain) (reportsFrom d (callsOn nOid nDomain more)) := by
  induction more using List.reverseRecOn with
  | nil =>
    rw [domainAfter_nil, ← hd]
    exact waits_start d
  | append_singleton more op ih =>
    have hreports : reportsFrom d (callsOn nOid nDomain (more ++ [op])) =
        reportsFrom d (callsOn nOid nDomain more) ++ (callsOn nOid nDomain [op]).map DomainCall.report := by
      simp [reportsFrom, callsOn_append]
    rw [hreports] at hsorted ⊢
    rw [callsOn_append] at hbad
    obtain ⟨hsorted, -, -⟩ := List.pairwise_append.mp hsorted
    have hwaits := ih hsorted fun c hc => hbad c (List.mem_append_left _ hc)
    rcases domainAfter_snoc hw hoid nDomain more op with ⟨c, -, -, hone, hreported⟩ | ⟨hnone, hstatus, hheld⟩
    · rw [hone] at hbad ⊢
      rw [hreported]
      obtain ⟨hc, hworse⟩ := hbad c (by simp)
      exact hwaits.reported hsorted hc hworse
    · rw [hnone, List.map_nil, List.append_nil, Waits, hstatus, hheld]
      exact hwaits

theorem domainAfter_append (s : Is12Server) (ops more : List Is12Operation) :
    domainAfter s (ops ++ more) nOid nDomain = domainAfter (s.runOperations ops).1 more nOid nDomain := by
  rw [domainAfter, runOperations_append, domainAfter]

/-- Calls in the order of their times leave reports in that order. -/
theorem reportsFrom_sorted (hw : Wired s) (hoid : nOid = 10 ∨ nOid = 11)
    (hstart : ((s.monitorOf nOid).aDomains nDomain).held = none) (ops : List Is12Operation) {cs : List DomainCall}
    (htimes : (callsOn nOid nDomain ops ++ cs).Pairwise (·.now ≤ ·.now)) :
    (reportsFrom (domainAfter s ops nOid nDomain) cs).Pairwise (·.2 ≤ ·.2) := by
  obtain ⟨-, hcs, hcross⟩ := List.pairwise_append.mp htimes
  apply List.pairwise_append.mpr
  refine ⟨?_, List.pairwise_map.mpr hcs, fun x hx y hy => ?_⟩
  · cases (domainAfter s ops nOid nDomain).held <;> simp
  · have hheld := stretch_of_held hw hoid ops hstart (Option.mem_toList.mp hx)
    obtain ⟨first, hfirst, hx⟩ := List.mem_map.mp hheld.mem
    obtain ⟨-, hnow⟩ := Prod.mk.inj hx
    obtain ⟨c, hc, rfl⟩ := List.mem_map.mp hy
    rw [← hnow]
    exact hcross first hfirst c hc

end Persistent

/-- After reports of nothing but worse statuses a domain is worse exactly when some one
of them was reported, without another in between, for the delay. -/
theorem worse_iff_persists (sNodeId sVersion sReceiverId sSenderId : String) (ops more : List Is12Operation)
    {nOid : Int} (hoid : nOid = 10 ∨ nOid = 11) (nDomain : Domain) {d : McDomain}
    (hd : d = domainAfter (.init sNodeId sVersion sReceiverId sSenderId) ops nOid nDomain)
    (htimes : (callsOn nOid nDomain (ops ++ more)).Pairwise (·.now ≤ ·.now))
    (hbad : ∀ c ∈ callsOn nOid nDomain more, 2 ≤ c.nStatus ∧ d.nStatus < c.nStatus) :
    d.nStatus < (domainAfter (.init sNodeId sVersion sReceiverId sSenderId) (ops ++ more) nOid nDomain).nStatus ↔
      Persists statusReportingDelay (reportsFrom d (callsOn nOid nDomain more)) := by
  have hw : Wired (.init sNodeId sVersion sReceiverId sSenderId) := wired_init ..
  have hstart : (((Is12Server.init sNodeId sVersion sReceiverId sSenderId).monitorOf nOid).aDomains nDomain).held =
      none := by
    rcases hoid with rfl | rfl <;> rfl
  rw [callsOn_append] at htimes
  have hsorted := reportsFrom_sorted hw hoid hstart ops htimes
  rw [← hd] at hsorted
  rw [domainAfter_append]
  rcases waits_run (hw.run ops) hoid d hd more hsorted hbad with ⟨hrisen, hpersists⟩ | ⟨hsame, -, hnot⟩
  · exact iff_of_true hrisen hpersists
  · exact iff_of_false (by rw [hsame]; exact lt_irrefl _) hnot

theorem worse_iff_persists_linkDown :
    (domainAfter (.init "node" "1.0" "receiver" "sender") [] 10 .link).nStatus <
        (domainAfter (.init "node" "1.0" "receiver" "sender") ([] ++ linkDown) 10 .link).nStatus ↔
      Persists statusReportingDelay (reportsFrom (domainAfter (.init "node" "1.0" "receiver" "sender") [] 10 .link)
        (callsOn 10 .link linkDown)) :=
  worse_iff_persists "node" "1.0" "receiver" "sender" [] linkDown (Or.inl rfl) .link rfl (by decide) (by decide)

/-- A second link that comes and goes while the first one is down: four seconds of
nothing but unhealthy reports. -/
def flapping : List Is12Operation :=
  [.updateReceiverDomain .link 2 "eth1 down" 0, .updateReceiverDomain .link 3 "all links down" 1000000000,
    .updateReceiverDomain .link 2 "eth1 down" 2000000000, .updateReceiverDomain .link 3 "all links down" 3000000000,
    .updateReceiverDomain .link 2 "eth1 down" 4000000000]

theorem flapping_unreported : (domainAfter (.init "node" "1.0" "receiver" "sender") [] 10 .link).nStatus = 1 ∧
    (∀ c ∈ callsOn 10 .link flapping, 2 ≤ c.nStatus ∧ 1 < c.nStatus) ∧
    (callsOn 10 .link flapping).map (·.now) = [0, 1000000000, 2000000000, 3000000000, 4000000000] ∧
    ¬ 1 < (domainAfter (.init "node" "1.0" "receiver" "sender") flapping 10 .link).nStatus := by
  decide

end PiAudioNode.Nmos
