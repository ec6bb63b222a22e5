import PiAudioNode.Nmos.Monitor

/-! The overall status of a monitor against its four domains, and where the status and
the message of a domain come from. -/
namespace PiAudioNode.Nmos
open Lib

/-- The stored overall status is the one the domains give now. -/
def Consistent (m : McMonitor) : Prop := (m.nOverall, m.sOverallMessage) = overall m

section Consistent
variable {m m' : McMonitor}

/-- The overall status depends on what the domains show. -/
theorem overall_congr (hstatus : ∀ nDomain, (m'.aDomains nDomain).nStatus = (m.aDomains nDomain).nStatus)
    (hmessage : ∀ nDomain, (m'.aDomains nDomain).sMessage = (m.aDomains nDomain).sMessage) :
    overall m' = overall m := by
  simp only [overall, hstatus, hmessage]

/-- One domain more, as the loop of `overall` takes it in. -/
private def worse (m : McMonitor) (worst : Int × String) (nDomain : Domain) : Int × String :=
  if (nDomain = .sync ∨ nDomain = .stream) ∧ (m.aDomains nDomain).nStatus = 0 then worst
  else if worst.1 < (m.aDomains nDomain).nStatus then ((m.aDomains nDomain).nStatus, (m.aDomains nDomain).sMessage)
  else worst

private theorem foldl_worse_reset (m : McMonitor) (l : List Domain) (worst : Int × String) :
    l.foldl (worse (resetMonitor m)) (worst.1, "") = ((l.foldl (worse m) worst).1, "") := by
  induction l generalizing worst with
  | nil => rfl
  | cons nDomain l ih =>
    have hstep : worse (resetMonitor m) (worst.1, "") nDomain = ((worse m worst nDomain).1, "") := by
      unfold worse
      by_cases hskip : (nDomain = .sync ∨ nDomain = .stream) ∧ (m.aDomains nDomain).nStatus = 0
      · rw [if_pos hskip]
        exact if_pos hskip
      · rw [if_neg hskip]
        refine (if_neg hskip).trans ?_
        by_cases hworse : worst.1 < (m.aDomains nDomain).nStatus
        · rw [if_pos hworse]
          exact if_pos hworse
        · rw [if_neg hworse]
          exact if_neg hworse
    rw [List.foldl_cons, List.foldl_cons, hstep]
    exact ih _

/-- Without messages in the domains there is none overall. -/
theorem overall_reset (m : McMonitor) : overall (resetMonitor m) = ((overall m).1, "") := by
  have hfold := foldl_worse_reset m [.link, .sync, .stream]
    ((m.aDomains .path).nStatus, (m.aDomains .path).sMessage)
  by_cases hpath : (m.aDomains .path).nStatus = 0
  · have hreset : ((resetMonitor m).aDomains .path).nStatus = 0 := hpath
    simp only [overall, if_pos hpath, if_pos hreset]
  · have hreset : ¬ ((resetMonitor m).aDomains .path).nStatus = 0 := hpath
    simp only [overall, if_neg hpath, if_neg hreset]
    exact hfold

theorem consistent_recomputeOverall (m : McMonitor) : Consistent (recomputeOverall m).1 := by
  have hoverall : overall (recomputeOverall m).1 = overall m := by
    apply overall_congr <;> intro nDomain <;> rw [recomputeOverall_aDomains]
  have hstatus : (recomputeOverall m).1.nOverall = (overall m).1 := by
    simp only [recomputeOverall, andThen_fst, setOverall, setOverallMessage]
    split_ifs with hnew <;> first | rfl | exact (not_not.mp hnew).symm
  have hmessage : (recomputeOverall m).1.sOverallMessage = (overall m).2 := by
    simp only [recomputeOverall, andThen_fst, setOverallMessage]
    split_ifs with hnew
    · rfl
    · exact (not_not.mp hnew).symm
  rw [Consistent, hoverall, hstatus, hmessage]

theorem consistent_enterDomain (nDomain : Domain) (nStatus : Int) (sMessage : String) (m : McMonitor) :
    Consistent (enterDomain nDomain nStatus sMessage m).1 := consistent_recomputeOverall _

theorem Consistent.sameStatus (h : Consistent m) (hs : SameStatus m m') : Consistent m' := by
  have hoverall : overall m' = overall m := by
    apply overall_congr <;> intro nDomain <;> rw [hs.domains]
  rw [Consistent, hoverall, hs.overall, hs.message]
  exact h

theorem Consistent.markPending (h : Consistent m) (nDomain : Domain) (nStatus : Int) (now : Instant) :
    Consistent (markPending nDomain nStatus now m) := by
  unfold Nmos.markPending
  dsimp only
  split
  · have hoverall : ∀ p since, overall (m.setDomain nDomain
        { m.aDomains nDomain with nPendingStatus := p, pendingSince := since }) = overall m := by
      intro p since
      apply overall_congr
      all_goals
        intro d
        by_cases hd : d = nDomain
        · subst hd
          rw [McMonitor.setDomain_self]
        · rw [m.setDomain_ne _ hd]
    rw [Consistent, hoverall]
    exact h
  · exact h

theorem Consistent.applyCall (h : Consistent m) (c : DomainCall) : Consistent (applyCall m c) := by
  unfold Nmos.applyCall updateDomain
  dsimp only
  split
  · split
    · exact h.markPending _ _ _
    · exact consistent_enterDomain _ _ _ _
  · exact consistent_enterDomain _ _ _ _

/-- A reset leaves the overall message, which the domains no longer give. -/
theorem Consistent.reset_iff (h : Consistent m) : Consistent (resetMonitor m) ↔ m.sOverallMessage = "" := by
  have hstatus : m.nOverall = (overall m).1 := congrArg Prod.fst h
  rw [Consistent, overall_reset, Prod.mk.injEq]
  constructor
  · exact fun hreset => hreset.2
  · exact fun hmessage => ⟨hstatus, hmessage⟩

end Consistent

section Sourced

/-- The monitor is reset by one of the operations. -/
def ClearedBy (s : Is12Server) (nOid : Int) (ops : List Is12Operation) : Prop :=
  ∃ pre op post, ops = pre ++ op :: post ∧ Resets (s.runOperations pre).1 nOid op

/-- Status and message are those of one call, unless a reset since has cleared the message. -/
def FromCall (s : Is12Server) (nOid : Int) (nDomain : Domain) (ops : List Is12Operation) (domain : McDomain) : Prop :=
  ∃ pre op post c, ops = pre ++ op :: post ∧ callOn nOid op = some c ∧ c.nDomain = nDomain ∧
    domain.nStatus = c.nStatus ∧ (domain.sMessage = c.sMessage ∨
      domain.sMessage = "" ∧ ClearedBy (s.runOperations (pre ++ [op])).1 nOid post)

/-- Or they are still those the server was made with. -/
def Sourced (s : Is12Server) (nOid : Int) (nDomain : Domain) (ops : List Is12Operation) (domain : McDomain) : Prop :=
  FromCall s nOid nDomain ops domain ∨
    domain.nStatus = ((s.monitorOf nOid).aDomains nDomain).nStatus ∧ domain.sMessage = ""

variable {s : Is12Server} {nOid : Int} {nDomain : Domain} {ops : List Is12Operation} {domain domain' : McDomain}

/-- What shows of a domain decides where it comes from, also some operations later. -/
theorem Sourced.later (h : Sourced s nOid nDomain ops domain) (hstatus : domain'.nStatus = domain.nStatus)
    (hmessage : domain'.sMessage = domain.sMessage) (op : Is12Operation) :
    Sourced s nOid nDomain (ops ++ [op]) domain' := by
  rcases h with ⟨pre, call, post, c, rfl, hcall, hd, hs, hm⟩ | ⟨hs, hm⟩
  · refine Or.inl ⟨pre, call, post ++ [op], c, by simp, hcall, hd, hstatus.trans hs, ?_⟩
    rcases hm with hm | ⟨hm, a, r, b, rfl, hreset⟩
    · exact Or.inl (hmessage.trans hm)
    · exact Or.inr ⟨hmessage.trans hm, a, r, b ++ [op], by simp, hreset⟩
  · exact Or.inr ⟨hstatus.trans hs, hmessage.trans hm⟩

/-- A reset keeps the status of each domain and clears the message. -/
theorem Sourced.reset (h : Sourced s nOid nDomain ops domain) (hstatus : domain'.nStatus = domain.nStatus)
    (hmessage : domain'.sMessage = "") {op : Is12Operation} (hreset : Resets (s.runOperations ops).1 nOid op) :
    Sourced s nOid nDomain (ops ++ [op]) domain' := by
  rcases h with ⟨pre, call, post, c, rfl, hcall, hd, hs, -⟩ | ⟨hs, -⟩
  · refine Or.inl ⟨pre, call, post ++ [op], c, by simp, hcall, hd, hstatus.trans hs, Or.inr ⟨hmessage, ?_⟩⟩
    refine ⟨post, op, [], rfl, ?_⟩
    have hsplit : pre ++ call :: post = (pre ++ [call]) ++ post := by simp
    rw [hsplit, runOperations_append] at hreset
    exact hreset
  · exact Or.inr ⟨hstatus.trans hs, hmessage⟩

/-- A call takes effect with both its status and its message, or with neither. -/
theorem Sourced.reported (h : Sourced s nOid nDomain ops domain) {op : Is12Operation} {c : DomainCall}
    (hcall : callOn nOid op = some c) (hd : c.nDomain = nDomain) :
    Sourced s nOid nDomain (ops ++ [op]) (domain.reported c) := by
  have hentered (e : McDomain) : Sourced s nOid nDomain (ops ++ [op]) (e.entered c) :=
    Or.inl ⟨ops, op, [], c, rfl, hcall, hd, rfl, Or.inl rfl⟩
  unfold McDomain.reported
  split
  · split
    · exact h.later (pending_nStatus domain c) (pending_sMessage domain c) op
    · exact hentered _
  · exact hentered _

/-- In every run from a server without messages. -/
theorem sourced_run (hw : Wired s) (hoid : nOid = 10 ∨ nOid = 11)
    (hstart : ((s.monitorOf nOid).aDomains nDomain).sMessage = "") (ops : List Is12Operation) :
    Sourced s nOid nDomain ops (((s.runOperations ops).1.monitorOf nOid).aDomains nDomain) := by
  induction ops using List.reverseRecOn with
  | nil => exact Or.inr ⟨rfl, hstart⟩
  | append_singleton ops op ih =>
    have hstep := monitorStep (hw.run ops) hoid op
    rw [runOperations_snoc, andThen_fst]
    generalize ((s.runOperations ops).1.step op).1.monitorOf nOid = m' at hstep
    cases hstep with
    | call c hcall happly =>
      rw [happly]
      by_cases hd : c.nDomain = nDomain
      · subst hd
        rw [applyCall_aDomains, Function.update_self]
        exact ih.reported hcall rfl
      · rw [applyCall_ne _ (Ne.symm hd)]
        exact ih.later rfl rfl op
    | reset _ hresets hreset =>
      rw [hreset]
      apply ih.reset
      · rfl
      · rfl
      · exact hresets
    | other _ _ hsame =>
      rw [hsame.domains]
      exact ih.later rfl rfl op

end Sourced

/-- Both monitors show what their domains give, and every domain what it was last told. -/
def StatusKept (s : Is12Server) (ops : List Is12Operation) : Prop :=
  ∀ nOid, nOid = 10 ∨ nOid = 11 → Consistent ((s.runOperations ops).1.monitorOf nOid) ∧
    ∀ nDomain, Sourced s nOid nDomain ops (((s.runOperations ops).1.monitorOf nOid).aDomains nDomain)

/-- A reset of a monitor finds no overall message. -/
def ResetsQuiet (s : Is12Server) (ops : List Is12Operation) (op : Is12Operation) : Prop :=
  ∀ nOid, nOid = 10 ∨ nOid = 11 → Resets (s.runOperations ops).1 nOid op →
    ((s.runOperations ops).1.monitorOf nOid).sOverallMessage = ""

section Run
variable {s : Is12Server} {nOid : Int}

/-- One operation keeps a monitor consistent, unless it resets one with an overall message. -/
theorem consistent_snoc (hw : Wired s) (hoid : nOid = 10 ∨ nOid = 11) {ops : List Is12Operation}
    (h : Consistent ((s.runOperations ops).1.monitorOf nOid)) (op : Is12Operation) :
    Consistent ((s.runOperations (ops ++ [op])).1.monitorOf nOid) ↔
      (Resets (s.runOperations ops).1 nOid op → ((s.runOperations ops).1.monitorOf nOid).sOverallMessage = "") := by
  have hstep := monitorStep (hw.run ops) hoid op
  rw [runOperations_snoc, andThen_fst]
  generalize ((s.runOperations ops).1.step op).1.monitorOf nOid = m' at hstep
  cases hstep with
  | call c hcall happly =>
    rw [happly]
    refine iff_of_true (h.applyCall c) fun hreset => ?_
    cases op with
    | command p cmd => cases hcall
    | _ => exact hreset.elim
  | reset _ hresets hreset =>
    rw [hreset, h.reset_iff]
    exact ⟨fun hm _ => hm, fun hm => hm hresets⟩
  | other _ hno hsame => exact iff_of_true (h.sameStatus hsame) fun hreset => absurd hreset hno

/-- Every state of a run keeps its status exactly when every reset is quiet. -/
theorem statusKept_iff_resetsQuiet (sNodeId sVersion sReceiverId sSenderId : String) (ops : List Is12Operation) :
    (∀ pre, pre <+: ops → StatusKept (.init sNodeId sVersion sReceiverId sSenderId) pre) ↔
      Admits (ResetsQuiet (.init sNodeId sVersion sReceiverId sSenderId)) ops := by
  have hw : Wired (.init sNodeId sVersion sReceiverId sSenderId) := wired_init ..
  constructor
  · rintro hall pre op post rfl nOid hoid
    have hbefore := (hall pre (List.prefix_append _ _) nOid hoid).1
    have hafter := (hall (pre ++ [op]) ⟨post, by simp⟩ nOid hoid).1
    exact (consistent_snoc hw hoid hbefore op).mp hafter
  · intro hquiet pre hprefix nOid hoid
    refine ⟨?_, fun nDomain => sourced_run hw hoid ?_ pre⟩
    · induction pre using List.reverseRecOn with
      | nil => rcases hoid with rfl | rfl <;> rfl
      | append_singleton pre op ih =>
        obtain ⟨post, rfl⟩ := hprefix
        have hbefore := ih ⟨[op] ++ post, by simp⟩
        exact (consistent_snoc hw hoid hbefore op).mpr (hquiet pre op post (by simp) nOid hoid)
    · rcases hoid with rfl | rfl <;> rfl

end Run

/-- The receiver is up, one link has been down for three seconds, and a controller
resets the monitor: the message stays overall though no domain has it any more. -/
def resetWhileDown : List Is12Operation := .updateReceiverDomain .path 1 "" 0 :: linkDown ++ [resetByOther]

theorem resetWhileDown_stale :
    (((Is12Server.init "node" "1.0" "receiver" "sender").runOperations resetWhileDown).1.monitorOf 10).sOverallMessage =
        "eth1 down" ∧
      overall (((Is12Server.init "node" "1.0" "receiver" "sender").runOperations resetWhileDown).1.monitorOf 10) =
        (2, "") ∧
      ¬ StatusKept (.init "node" "1.0" "receiver" "sender") resetWhileDown := by
  have hmessage : (((Is12Server.init "node" "1.0" "receiver" "sender").runOperations
      resetWhileDown).1.monitorOf 10).sOverallMessage = "eth1 down" := by decide
  have hoverall : overall (((Is12Server.init "node" "1.0" "receiver" "sender").runOperations
      resetWhileDown).1.monitorOf 10) = (2, "") := by decide
  refine ⟨hmessage, hoverall, fun h => ?_⟩
  have hconsistent := (h 10 (Or.inl rfl)).1
  rw [Consistent, hmessage, hoverall] at hconsistent
  exact absurd (congrArg Prod.snd hconsistent) (by decide)

end PiAudioNode.Nmos
