import PiAudioNode.Nmos.Notifications

/-! What one operation of the server does to one of its monitors: a call of
`updateDomain`, a reset, or nothing that shows in the domains. -/
namespace PiAudioNode.Nmos
open Lib

structure DomainCall where
  nDomain : Domain
  nStatus : Int
  sMessage : String
  now : Instant

/-- The call of `updateDomain` that an operation makes on a monitor. -/
def callOn (nOid : Int) : Is12Operation → Option DomainCall
  | .updateReceiverDomain nDomain nStatus sMessage now =>
    if nOid = 10 then some ⟨nDomain, nStatus, sMessage, now⟩ else none
  | .updateSenderDomain nDomain nStatus sMessage now =>
    if nOid = 11 then some ⟨nDomain, nStatus, sMessage, now⟩ else none
  | _ => none

/-- The calls for one domain of a monitor, in order. -/
def callsOn (nOid : Int) (nDomain : Domain) (ops : List Is12Operation) : List DomainCall :=
  (ops.filterMap (callOn nOid)).filter fun c => c.nDomain = nDomain

def applyCall (m : McMonitor) (c : DomainCall) : McMonitor := (updateDomain c.nDomain c.nStatus c.sMessage c.now m).1

theorem callsOn_append (nOid : Int) (nDomain : Domain) (ops more : List Is12Operation) :
    callsOn nOid nDomain (ops ++ more) = callsOn nOid nDomain ops ++ callsOn nOid nDomain more := by
  simp [callsOn]

theorem callsOn_singleton (nOid : Int) (nDomain : Domain) (op : Is12Operation) :
    callsOn nOid nDomain [op] = (callOn nOid op).toList.filter fun c => c.nDomain = nDomain := by
  cases h : callOn nOid op <;> simp [callsOn, h]

theorem runOperations_append (s : Is12Server) (ops more : List Is12Operation) :
    (s.runOperations (ops ++ more)).1 = ((s.runOperations ops).1.runOperations more).1 := by
  induction more using List.reverseRecOn with
  | nil =>
    rw [List.append_nil]
    rfl
  | append_singleton more op ih =>
    rw [← List.append_assoc, runOperations_snoc, runOperations_snoc, andThen_fst, andThen_fst, ih]

/-- The status a monitor shows, with the timers behind it. -/
structure SameStatus (m m' : McMonitor) : Prop where
  domains : m'.aDomains = m.aDomains
  overall : m'.nOverall = m.nOverall
  message : m'.sOverallMessage = m.sOverallMessage

theorem SameStatus.refl (m : McMonitor) : SameStatus m m := ⟨rfl, rfl, rfl⟩

inductive MonitorStep (s : Is12Server) (nOid : Int) (op : Is12Operation) (m' : McMonitor) : Prop
  | call (c : DomainCall) (hcall : callOn nOid op = some c) (happly : m' = applyCall (s.monitorOf nOid) c)
  | reset (hcall : callOn nOid op = none) (hresets : Resets s nOid op) (hreset : m' = resetMonitor (s.monitorOf nOid))
  | other (hcall : callOn nOid op = none) (hno : ¬ Resets s nOid op) (hsame : SameStatus (s.monitorOf nOid) m')

section Server
variable {s : Is12Server} {nOid : Int}

theorem monitorOf_rx (hw : Wired s) : s.monitorOf 10 = s.rxMonitor := by
  rw [Is12Server.monitorOf, if_pos hw.rxOid.symm]

theorem monitorOf_tx (hw : Wired s) : s.monitorOf 11 = s.txMonitor := by
  rw [Is12Server.monitorOf, hw.rxOid, if_neg (by decide)]

theorem setSyncSource_sameStatus (sSourceId : Option String) (m : McMonitor) :
    SameStatus m (setSyncSource sSourceId m).1 := by
  unfold setSyncSource
  split <;> exact ⟨rfl, rfl, rfl⟩

theorem monitorStep (hw : Wired s) (hoid : nOid = 10 ∨ nOid = 11) (op : Is12Operation) :
    MonitorStep s nOid op ((s.step op).1.monitorOf nOid) := by
  have hw' : Wired (s.step op).1 := hw.step op
  -- an operation without a command or a call that leaves both monitors' status alone
  have other {op : Is12Operation} (hw' : Wired (s.step op).1) (hcall : callOn nOid op = none)
      (hno : ¬ Resets s nOid op) (hrx : SameStatus s.rxMonitor (s.step op).1.rxMonitor)
      (htx : SameStatus s.txMonitor (s.step op).1.txMonitor) :
      MonitorStep s nOid op ((s.step op).1.monitorOf nOid) := by
    apply MonitorStep.other hcall hno
    rcases hoid with rfl | rfl
    · rw [monitorOf_rx hw, monitorOf_rx hw']
      exact hrx
    · rw [monitorOf_tx hw, monitorOf_tx hw']
      exact htx
  cases op with
  | connect p => exact other hw' rfl id (.refl _) (.refl _)
  | subscribe p vOids => exact other hw' rfl id (.refl _) (.refl _)
  | close p => exact other hw' rfl id (.refl _) (.refl _)
  | addReceiverLost sLeg nPackets => exact other hw' rfl id ⟨rfl, rfl, rfl⟩ (.refl _)
  | addReceiverLate nPackets => exact other hw' rfl id ⟨rfl, rfl, rfl⟩ (.refl _)
  | addSenderErrors sCounter nErrors => exact other hw' rfl id (.refl _) ⟨rfl, rfl, rfl⟩
  | setSyncSource sSourceId =>
    exact other hw' rfl id (setSyncSource_sameStatus sSourceId s.rxMonitor)
      (setSyncSource_sameStatus sSourceId s.txMonitor)
  | updateReceiverDomain nDomain nStatus sMessage now =>
    rcases hoid with rfl | rfl
    · apply MonitorStep.call _ rfl
      rw [monitorOf_rx hw, monitorOf_rx hw']
      rfl
    · apply MonitorStep.other rfl id
      rw [monitorOf_tx hw, monitorOf_tx hw']
      exact .refl _
  | updateSenderDomain nDomain nStatus sMessage now =>
    rcases hoid with rfl | rfl
    · apply MonitorStep.other rfl id
      rw [monitorOf_rx hw, monitorOf_rx hw']
      exact .refl _
    · apply MonitorStep.call _ rfl
      rw [monitorOf_tx hw, monitorOf_tx hw']
      rfl
  | command p cmd =>
    rcases invoke_eq hw cmd p with ⟨hsame, hnot⟩ | ⟨hcmd, hresets, hreset⟩
    · have hserver : (s.step (.command p cmd)).1 = s := hsame
      rw [hserver]
      refine .other rfl (fun h => ?_) (.refl _)
      have hcmd : cmd.nOid = nOid := h.1
      rw [← hcmd] at h hoid
      exact hnot hoid h
    · obtain ⟨-, hself, hothers⟩ := setMonitor_reset hw hcmd
      have hserver : (s.step (.command p cmd)).1 = s.setMonitor (resetMonitor (s.monitorOf cmd.nOid)) := hreset
      rw [hserver]
      by_cases he : nOid = cmd.nOid
      · subst he
        exact .reset rfl hresets hself
      · rw [hothers nOid hoid he]
        exact .other rfl (fun h => he h.1.symm) (.refl _)

end Server

section Reported

/-- A less healthy status than the domain has, which is held back. -/
def McDomain.Worsens (domain : McDomain) (nStatus : Int) : Prop := 1 < nStatus ∧ domain.nStatus < nStatus

instance (domain : McDomain) (nStatus : Int) : Decidable (domain.Worsens nStatus) :=
  inferInstanceAs (Decidable (_ ∧ _))

/-- A report that takes effect, on the domain it is about. -/
def McDomain.entered (domain : McDomain) (c : DomainCall) : McDomain :=
  { domain with
    nStatus := c.nStatus
    sMessage := c.sMessage
    nTransitions := if domain.nStatus < c.nStatus ∧ domain.nStatus ≠ 0 then domain.nTransitions + 1 else domain.nTransitions
    nPendingStatus := -1 }

/-- One that is held back. -/
def McDomain.pending (domain : McDomain) (c : DomainCall) : McDomain :=
  if domain.nPendingStatus ≠ c.nStatus then { domain with nPendingStatus := c.nStatus, pendingSince := c.now } else domain

theorem pending_nStatus (domain : McDomain) (c : DomainCall) : (domain.pending c).nStatus = domain.nStatus := by
  unfold McDomain.pending
  split <;> rfl

theorem pending_sMessage (domain : McDomain) (c : DomainCall) : (domain.pending c).sMessage = domain.sMessage := by
  unfold McDomain.pending
  split <;> rfl

/-- A call of `updateDomain` on the domain it is about. -/
def McDomain.reported (domain : McDomain) (c : DomainCall) : McDomain :=
  if domain.Worsens c.nStatus then
    if c.now - (domain.pending c).pendingSince < statusReportingDelay then domain.pending c
    else (domain.pending c).entered c
  else domain.entered c

theorem recomputeOverall_aDomains (m : McMonitor) : (recomputeOverall m).1.aDomains = m.aDomains := by
  simp only [recomputeOverall, andThen_fst, setOverall, setOverallMessage]
  split_ifs <;> rfl

theorem enterStatus_aDomains (m : McMonitor) (nDomain : Domain) (nStatus : Int) :
    (enterStatus nDomain nStatus m).1.aDomains = Function.update m.aDomains nDomain
      { m.aDomains nDomain with
        nStatus
        nTransitions :=
          if (m.aDomains nDomain).nStatus < nStatus ∧ (m.aDomains nDomain).nStatus ≠ 0
          then (m.aDomains nDomain).nTransitions + 1 else (m.aDomains nDomain).nTransitions } := by
  unfold enterStatus
  split
  · simp only [andThen_fst, setStatus, countTransition]
    split <;> simp [McMonitor.setDomain]
  · rename_i hsame
    have hsame : (m.aDomains nDomain).nStatus = nStatus := not_not.mp hsame
    rw [if_neg fun h => by omega, ← hsame]
    exact (Function.update_eq_self nDomain m.aDomains).symm

theorem enterMessage_aDomains (m : McMonitor) (nDomain : Domain) (sMessage : String) :
    (enterMessage nDomain sMessage m).1.aDomains =
      Function.update m.aDomains nDomain { m.aDomains nDomain with sMessage } := by
  unfold enterMessage
  split
  · rfl
  · rename_i hsame
    rw [← not_not.mp hsame]
    exact (Function.update_eq_self nDomain m.aDomains).symm

theorem enterDomain_aDomains (m : McMonitor) (c : DomainCall) :
    (enterDomain c.nDomain c.nStatus c.sMessage m).1.aDomains =
      Function.update m.aDomains c.nDomain ((m.aDomains c.nDomain).entered c) := by
  simp only [enterDomain, andThen_fst, recomputeOverall_aDomains, enterMessage_aDomains, enterStatus_aDomains,
    clearPending, McMonitor.setDomain, Function.update_idem, Function.update_self]
  rfl

theorem markPending_aDomains (m : McMonitor) (c : DomainCall) :
    (markPending c.nDomain c.nStatus c.now m).aDomains =
      Function.update m.aDomains c.nDomain ((m.aDomains c.nDomain).pending c) := by
  simp only [markPending, McDomain.pending]
  split
  · rfl
  · exact (Function.update_eq_self c.nDomain m.aDomains).symm

theorem applyCall_aDomains (m : McMonitor) (c : DomainCall) :
    (applyCall m c).aDomains = Function.update m.aDomains c.nDomain ((m.aDomains c.nDomain).reported c) := by
  unfold applyCall updateDomain McDomain.reported
  by_cases hworse : (m.aDomains c.nDomain).Worsens c.nStatus
  · have hguard : 1 < c.nStatus ∧ (m.aDomains c.nDomain).nStatus < c.nStatus := hworse
    rw [if_pos hguard, if_pos hworse]
    simp only [markPending_aDomains, Function.update_self]
    split
    · exact markPending_aDomains m c
    · rw [enterDomain_aDomains, markPending_aDomains, Function.update_idem, Function.update_self]
  · have hguard : ¬ (1 < c.nStatus ∧ (m.aDomains c.nDomain).nStatus < c.nStatus) := hworse
    rw [if_neg hguard, if_neg hworse]
    exact enterDomain_aDomains m c

theorem applyCall_ne (m : McMonitor) {c : DomainCall} {nDomain : Domain} (h : nDomain ≠ c.nDomain) :
    (applyCall m c).aDomains nDomain = m.aDomains nDomain := by
  rw [applyCall_aDomains, Function.update_of_ne h]

end Reported

end PiAudioNode.Nmos
