import PiAudioNode.Nmos.Is12

/-! A controller's replica of a monitor, fed by notifications, against the
properties the server answers. -/
namespace PiAudioNode.Nmos
open Lib

/-- The answers a controller believes it would get for one object. -/
abbrev Replica := Int → Int → McResult

def applyNotification (nOid : Int) (replica : Replica) (n : Notification) : Replica :=
  if n.nOid = nOid then fun nLevel nIndex =>
    if nLevel = n.nLevel ∧ nIndex = n.nIndex then .ok n.jsValue else replica nLevel nIndex
  else replica

/-- The notifications among the messages to one connection. -/
def received (pConn : Connection) (sent : List Sent) : List Notification :=
  sent.filterMap fun
    | ⟨p, .notification n⟩ => if p = pConn then some n else none
    | ⟨_, .response ..⟩ => none

def follow (pConn : Connection) (nOid : Int) (replica : Replica) (sent : List Sent) : Replica :=
  (received pConn sent).foldl (applyNotification nOid) replica

variable {m m' : McMonitor} {nDomain : Domain} {domain : McDomain}

theorem domainProperty_base (m : McMonitor) (nDomain : Domain) :
    monitorProperty m 4 nDomain.base = .ok (.int (m.aDomains nDomain).nStatus) := by
  cases nDomain <;> simp [monitorProperty, domainProperty, Domain.base]

theorem domainProperty_message (m : McMonitor) (nDomain : Domain) :
    monitorProperty m 4 (nDomain.base + 1) = .ok (.str (m.aDomains nDomain).sMessage) := by
  cases nDomain <;> simp [monitorProperty, domainProperty, Domain.base]

theorem domainProperty_transitions (m : McMonitor) (nDomain : Domain) :
    monitorProperty m 4 (nDomain.base + 2) = .ok (.int (m.aDomains nDomain).nTransitions.toNat) := by
  cases nDomain <;> simp [monitorProperty, domainProperty, Domain.base]

/-- A domain written changes its own three properties. -/
theorem monitorProperty_setDomain (m : McMonitor) (nDomain : Domain) (domain : McDomain) (nLevel nIndex : Int) :
    monitorProperty (m.setDomain nDomain domain) nLevel nIndex =
      if nLevel = 4 ∧ nIndex = nDomain.base then .ok (.int domain.nStatus)
      else if nLevel = 4 ∧ nIndex = nDomain.base + 1 then .ok (.str domain.sMessage)
      else if nLevel = 4 ∧ nIndex = nDomain.base + 2 then .ok (.int domain.nTransitions.toNat)
      else monitorProperty m nLevel nIndex := by
  by_cases hlevel : nLevel = 4
  · subst hlevel
    by_cases h0 : nIndex = nDomain.base
    · rw [if_pos ⟨rfl, h0⟩, h0, domainProperty_base, McMonitor.setDomain_self]
    · by_cases h1 : nIndex = nDomain.base + 1
      · rw [if_neg (by simp [h0]), if_pos ⟨rfl, h1⟩, h1, domainProperty_message, McMonitor.setDomain_self]
      · by_cases h2 : nIndex = nDomain.base + 2
        · rw [if_neg (by simp [h0]), if_neg (by simp [h1]), if_pos ⟨rfl, h2⟩, h2, domainProperty_transitions,
            McMonitor.setDomain_self]
        · rw [if_neg (by simp [h0]), if_neg (by simp [h1]), if_neg (by simp [h2])]
          have hdomain (d : Domain) :
              domainProperty (m.setDomain nDomain domain) nIndex d = domainProperty m nIndex d := by
            by_cases hd : d = nDomain
            · subst hd
              simp [domainProperty, h0, h1, h2]
            · simp [domainProperty, m.setDomain_ne domain hd]
          simp only [monitorProperty, funext hdomain]
          rfl
  · simp only [monitorProperty, hlevel, false_and, if_false]
    rfl

/-- Read through `monitorProperty`, a domain whose visible fields stay is untouched. -/
theorem monitorProperty_pending (m : McMonitor) (nDomain : Domain) (nPending : Int) (since : Instant) :
    monitorProperty (m.setDomain nDomain { m.aDomains nDomain with nPendingStatus := nPending, pendingSince := since }) =
      monitorProperty m := by
  funext nLevel nIndex
  rw [monitorProperty_setDomain]
  split_ifs with h0 h1 h2
  · rw [h0.1, h0.2, domainProperty_base]
  · rw [h1.1, h1.2, domainProperty_message]
  · rw [h2.1, h2.2, domainProperty_transitions]
  · rfl

/-- The replica fed so far is what the monitor answers. -/
structure Mirrors (nOid : Int) (start : Replica) (ns : List Notification) (m : McMonitor) : Prop where
  oid : m.nOid = nOid
  own : ∀ n ∈ ns, n.nOid = nOid
  same : ns.foldl (applyNotification nOid) start = monitorProperty m

variable {nOid : Int} {start : Replica} {ns : List Notification}

theorem Mirrors.silent (h : Mirrors nOid start ns m) (hoid : m'.nOid = m.nOid)
    (hsame : monitorProperty m' = monitorProperty m) : Mirrors nOid start (ns ++ []) m' := by
  rw [List.append_nil]
  exact ⟨hoid.trans h.oid, h.own, h.same.trans hsame.symm⟩

/-- One property changed and notified. -/
theorem Mirrors.emit (h : Mirrors nOid start ns m) (hoid : m'.nOid = m.nOid) {nLevel nIndex : Int} {jsValue : Json}
    (hchanged : ∀ l i, monitorProperty m' l i =
      if l = nLevel ∧ i = nIndex then .ok jsValue else monitorProperty m l i) :
    Mirrors nOid start (ns ++ notify m nLevel nIndex jsValue) m' := by
  have hto : m.nOid = nOid := h.oid
  refine ⟨hoid.trans h.oid, fun n hn => ?_, ?_⟩
  · rcases List.mem_append.mp hn with hn | hn
    · exact h.own n hn
    · obtain rfl := List.mem_singleton.mp hn
      exact hto
  · funext l i
    rw [List.foldl_append, h.same, hchanged]
    simp [notify, applyNotification, hto]

theorem mirrors_countTransition (nDomain : Domain) (nStatus : Int) :
    Keeps (Mirrors nOid start) (countTransition nDomain nStatus) := by
  intro ns m h
  simp only [countTransition]
  split
  · refine h.emit (by rfl) fun l i => ?_
    rw [monitorProperty_setDomain]
    split_ifs with h0 h1 h2 h3 h4 <;> first | omega | rfl | skip
    · rw [h0.1, h0.2, domainProperty_base]
    · rw [h2.1, h2.2, domainProperty_message]
  · exact h.silent rfl rfl

theorem mirrors_setStatus (nDomain : Domain) (nStatus : Int) :
    Keeps (Mirrors nOid start) (setStatus nDomain nStatus) := by
  intro ns m h
  refine h.emit (by rfl) fun l i => ?_
  rw [setStatus, monitorProperty_setDomain]
  split_ifs with h0 h1 h2
  · rfl
  · rw [h1.1, h1.2, domainProperty_message]
  · rw [h2.1, h2.2, domainProperty_transitions]
  · rfl

theorem mirrors_enterStatus (nDomain : Domain) (nStatus : Int) :
    Keeps (Mirrors nOid start) (enterStatus nDomain nStatus) := by
  intro ns m h
  unfold enterStatus
  split
  · exact (mirrors_countTransition nDomain nStatus).andThen (mirrors_setStatus nDomain nStatus) ns m h
  · exact h.silent rfl rfl

theorem mirrors_enterMessage (nDomain : Domain) (sMessage : String) :
    Keeps (Mirrors nOid start) (enterMessage nDomain sMessage) := by
  intro ns m h
  unfold enterMessage
  split
  · refine h.emit (by rfl) fun l i => ?_
    rw [monitorProperty_setDomain]
    split_ifs with h0 h1 h2 h3 <;> first | omega | rfl | skip
    · rw [h0.1, h0.2, domainProperty_base]
    · rw [h3.1, h3.2, domainProperty_transitions]
  · exact h.silent rfl rfl

theorem mirrors_setOverall (nOverall : Int) : Keeps (Mirrors nOid start) (setOverall nOverall) := by
  intro ns m h
  unfold setOverall
  split
  · refine h.emit (by rfl) fun l i => ?_
    by_cases hl : l = 3
    · subst hl
      by_cases hi : i = 1 <;> simp [monitorProperty, hi]
    · simp only [monitorProperty, hl, false_and, if_false]
      rfl
  · exact h.silent rfl rfl

theorem mirrors_setOverallMessage (sMessage : String) : Keeps (Mirrors nOid start) (setOverallMessage sMessage) := by
  intro ns m h
  unfold setOverallMessage
  split
  · refine h.emit (by rfl) fun l i => ?_
    by_cases hl : l = 3
    · subst hl
      by_cases hi : i = 2 <;> simp [monitorProperty, hi]
    · simp only [monitorProperty, hl, false_and, if_false]
      rfl
  · exact h.silent rfl rfl

theorem mirrors_recomputeOverall : Keeps (Mirrors nOid start) recomputeOverall := by
  intro ns m h
  exact (mirrors_setOverall (overall m).1).andThen (mirrors_setOverallMessage (overall m).2) ns m h

theorem mirrors_enterDomain (nDomain : Domain) (nStatus : Int) (sMessage : String) :
    Keeps (Mirrors nOid start) (enterDomain nDomain nStatus sMessage) := by
  intro ns m h
  have hcleared : Mirrors nOid start ns (clearPending nDomain m) :=
    ⟨h.oid, h.own, h.same.trans (monitorProperty_pending m nDomain (-1) _).symm⟩
  exact (mirrors_enterStatus nDomain nStatus).andThen
    ((mirrors_enterMessage nDomain sMessage).andThen mirrors_recomputeOverall) ns _ hcleared

theorem Mirrors.markPending (h : Mirrors nOid start ns m) (nDomain : Domain) (nStatus : Int) (now : Instant) :
    Mirrors nOid start ns (markPending nDomain nStatus now m) := by
  by_cases hpending : (m.aDomains nDomain).nPendingStatus = nStatus
  · rwa [Nmos.markPending, if_neg (not_not.mpr hpending)]
  · rw [Nmos.markPending, if_pos hpending]
    exact ⟨h.oid, h.own, h.same.trans (monitorProperty_pending m nDomain nStatus now).symm⟩

theorem mirrors_updateDomain (nDomain : Domain) (nStatus : Int) (sMessage : String) (now : Instant) :
    Keeps (Mirrors nOid start) (updateDomain nDomain nStatus sMessage now) := by
  intro ns m h
  have hmarked := h.markPending nDomain nStatus now
  simp only [updateDomain]
  split
  · split
    · rw [List.append_nil]
      exact hmarked
    · exact mirrors_enterDomain nDomain nStatus sMessage ns _ hmarked
  · exact mirrors_enterDomain nDomain nStatus sMessage ns m h

theorem mirrors_setSyncSource (sSourceId : Option String) : Keeps (Mirrors nOid start) (setSyncSource sSourceId) := by
  intro ns m h
  unfold setSyncSource
  split
  · refine h.emit (by rfl) fun l i => ?_
    by_cases hl : l = 4
    · subst hl
      by_cases hi : i = 10
      · subst hi
        simp [monitorProperty, domainProperty, Domain.base]
      · simp only [monitorProperty, hi, and_false, if_false]
        rfl
    · simp only [monitorProperty, hl, false_and, if_false]
  · exact h.silent rfl rfl

/-- Every domain has no transitions counted and no message. -/
def Clean (m : McMonitor) : Prop :=
  ∀ nDomain, (m.aDomains nDomain).nTransitions = 0 ∧ (m.aDomains nDomain).sMessage = ""

/-- A reset shows in the properties unless it clears nothing. -/
theorem monitorProperty_reset (m : McMonitor) : monitorProperty (resetMonitor m) = monitorProperty m ↔ Clean m := by
  constructor
  · intro h nDomain
    have htransitions := congrFun (congrFun h 4) (nDomain.base + 2)
    have hmessage := congrFun (congrFun h 4) (nDomain.base + 1)
    rw [domainProperty_transitions, domainProperty_transitions] at htransitions
    rw [domainProperty_message, domainProperty_message] at hmessage
    simp only [resetMonitor, McResult.ok.injEq, Json.int.injEq, Json.str.injEq, Nat.cast_inj] at htransitions hmessage
    exact ⟨(BitVec.eq_of_toNat_eq htransitions).symm, hmessage.symm⟩
  · intro h
    have hdomains : (resetMonitor m).aDomains = m.aDomains := by
      funext nDomain
      obtain ⟨htransitions, hmessage⟩ := h nDomain
      simp only [resetMonitor]
      rw [← htransitions, ← hmessage]
    funext nLevel nIndex
    have hdomain : domainProperty (resetMonitor m) nIndex = domainProperty m nIndex := by
      funext nDomain
      rw [domainProperty, domainProperty, hdomains]
    simp only [monitorProperty, hdomain]
    rfl

/-- The object ids of the two monitors, which nothing changes. -/
structure Wired (s : Is12Server) : Prop where
  rxOid : s.rxMonitor.nOid = 10
  txOid : s.txMonitor.nOid = 11

def Subscribed (s : Is12Server) (pConn : Connection) (nOid : Int) : Prop :=
  ∃ setOids, (pConn, setOids) ∈ s.mSubscriptions ∧ nOid ∈ setOids

variable {s : Is12Server} {pConn : Connection} {replica : Replica}

theorem follow_append (a b : List Sent) :
    follow pConn nOid replica (a ++ b) = follow pConn nOid (follow pConn nOid replica a) b := by
  simp [follow, received]

theorem applyNotification_other {n : Notification} (h : n.nOid ≠ nOid) : applyNotification nOid replica n = replica :=
  if_neg h

/-- A notification received more than once counts once. -/
theorem foldl_copies {n : Notification} {l : List Notification} (hcopies : ∀ x ∈ l, x = n)
    (hsome : n.nOid = nOid → l ≠ []) :
    l.foldl (applyNotification nOid) replica = applyNotification nOid replica n := by
  have htwice (r : Replica) : applyNotification nOid (applyNotification nOid r n) n = applyNotification nOid r n := by
    funext nLevel nIndex
    by_cases hoid : n.nOid = nOid
    · simp only [applyNotification, if_pos hoid]
      split_ifs <;> rfl
    · rw [applyNotification_other hoid, applyNotification_other hoid]
  have hrest (l : List Notification) (hl : ∀ x ∈ l, x = n) :
      l.foldl (applyNotification nOid) (applyNotification nOid replica n) = applyNotification nOid replica n := by
    induction l with
    | nil => rfl
    | cons x l ih =>
      obtain rfl := hl x List.mem_cons_self
      rw [List.foldl_cons, htwice]
      exact ih fun y hy => hl y (List.mem_cons_of_mem _ hy)
  cases l with
  | nil =>
    have hother : n.nOid ≠ nOid := fun he => hsome he rfl
    rw [List.foldl_nil, applyNotification_other hother]
  | cons x l =>
    obtain rfl := hcopies x List.mem_cons_self
    exact hrest l fun y hy => hcopies y (List.mem_cons_of_mem _ hy)

/-- A subscribed connection receives what is notified on the object. -/
theorem follow_broadcast (hsub : Subscribed s pConn nOid) (ns : List Notification) :
    follow pConn nOid replica (broadcast s.mSubscriptions ns) = ns.foldl (applyNotification nOid) replica := by
  induction ns generalizing replica with
  | nil => rfl
  | cons n ns ih =>
    have hsplit : broadcast s.mSubscriptions (n :: ns) =
        broadcast s.mSubscriptions [n] ++ broadcast s.mSubscriptions ns := by simp [broadcast]
    rw [hsplit, follow_append, ih, List.foldl_cons]
    congr 1
    refine foldl_copies (fun x hx => ?_) fun he hnil => ?_
    · simp only [received, broadcast, List.mem_filterMap, List.flatMap_cons, List.flatMap_nil, List.append_nil,
        List.mem_map] at hx
      obtain ⟨sent, ⟨sub, _, rfl⟩, hx⟩ := hx
      simp only [Option.ite_none_right_eq_some, Option.some.injEq] at hx
      exact hx.2.symm
    · obtain ⟨setOids, hmem, hin⟩ := hsub
      have : n ∈ received pConn (broadcast s.mSubscriptions [n]) := by
        simp only [received, broadcast, List.mem_filterMap, List.flatMap_cons, List.flatMap_nil, List.append_nil,
          List.mem_map, List.mem_filter]
        exact ⟨⟨pConn, .notification n⟩, ⟨(pConn, setOids), ⟨hmem, by simpa [he] using hin⟩, rfl⟩, by simp⟩
      rw [hnil] at this
      cases this

theorem getProperty_rx (hw : Wired s) : s.getProperty 10 = monitorProperty s.rxMonitor := by
  funext nLevel nIndex
  simp [Is12Server.getProperty, Is12Server.findMonitor, hw.rxOid]

theorem getProperty_tx (hw : Wired s) : s.getProperty 11 = monitorProperty s.txMonitor := by
  funext nLevel nIndex
  simp [Is12Server.getProperty, Is12Server.findMonitor, hw.rxOid, hw.txOid]

/-- Notifications of one monitor leave a replica of the other alone. -/
theorem Mirrors.foreign (h : Mirrors nOid start ns m) {nOther : Int} (hother : nOid ≠ nOther) :
    ns.foldl (applyNotification nOther) replica = replica := by
  have hown := h.own
  clear h
  induction ns with
  | nil => rfl
  | cons n ns ih =>
    have hne : n.nOid ≠ nOther := hown n List.mem_cons_self ▸ hother
    rw [List.foldl_cons, applyNotification_other hne]
    exact ih fun y hy => hown y (List.mem_cons_of_mem _ hy)

theorem follow_withRx (hw : Wired s) (hoid : nOid = 10 ∨ nOid = 11) (hsub : Subscribed s pConn nOid)
    {x : McMonitor × List Notification} (h : Mirrors s.rxMonitor.nOid (monitorProperty s.rxMonitor) x.2 x.1) :
    follow pConn nOid (s.getProperty nOid) (s.withRx x).2 = (s.withRx x).1.getProperty nOid := by
  rw [Is12Server.withRx, follow_broadcast hsub]
  rcases hoid with rfl | rfl
  · have hs := h.same
    rw [hw.rxOid] at hs
    rw [getProperty_rx hw, hs]
    funext nLevel nIndex
    have hx : x.1.nOid = 10 := h.oid.trans hw.rxOid
    simp [Is12Server.getProperty, Is12Server.findMonitor, hx]
  · rw [h.foreign (by rw [hw.rxOid]; decide)]
    funext nLevel nIndex
    have hx : x.1.nOid = 10 := h.oid.trans hw.rxOid
    simp [Is12Server.getProperty, Is12Server.findMonitor, hx, hw.rxOid, hw.txOid]

theorem follow_withTx (hw : Wired s) (hoid : nOid = 10 ∨ nOid = 11) (hsub : Subscribed s pConn nOid)
    {x : McMonitor × List Notification} (h : Mirrors s.txMonitor.nOid (monitorProperty s.txMonitor) x.2 x.1) :
    follow pConn nOid (s.getProperty nOid) (s.withTx x).2 = (s.withTx x).1.getProperty nOid := by
  have hx : x.1.nOid = 11 := h.oid.trans hw.txOid
  rw [Is12Server.withTx, follow_broadcast hsub]
  rcases hoid with rfl | rfl
  · rw [h.foreign (by rw [hw.txOid]; decide)]
    funext nLevel nIndex
    simp [Is12Server.getProperty, Is12Server.findMonitor, hw.rxOid]
  · have hs := h.same
    rw [hw.txOid] at hs
    rw [getProperty_tx hw, hs]
    funext nLevel nIndex
    simp [Is12Server.getProperty, Is12Server.findMonitor, hx, hw.rxOid]

/-- The monitor under an object id known to be one of the two. -/
def Is12Server.monitorOf (s : Is12Server) (nOid : Int) : McMonitor :=
  if nOid = s.rxMonitor.nOid then s.rxMonitor else s.txMonitor

theorem getProperty_monitorOf (hw : Wired s) (hoid : nOid = 10 ∨ nOid = 11) :
    s.getProperty nOid = monitorProperty (s.monitorOf nOid) := by
  rcases hoid with rfl | rfl
  · rw [getProperty_rx hw, Is12Server.monitorOf, hw.rxOid, if_pos rfl]
  · rw [getProperty_tx hw, Is12Server.monitorOf, hw.rxOid, if_neg (by decide)]

/-- A command that resets counters and messages of the monitor. -/
def Resets (s : Is12Server) (nOid : Int) : Is12Operation → Prop
  | .command _ cmd =>
    cmd.nOid = nOid ∧ cmd.nLevel = 4 ∧ cmd.nIndex = if (s.monitorOf nOid).bIsReceiver then 3 else 2
  | _ => False

theorem mirrors_self (m : McMonitor) : Mirrors m.nOid (monitorProperty m) [] m := ⟨rfl, by simp, rfl⟩

theorem findMonitor_known (hw : Wired s) (hoid : nOid = 10 ∨ nOid = 11) :
    s.findMonitor nOid = some (s.monitorOf nOid) := by
  rcases hoid with rfl | rfl <;> simp [Is12Server.findMonitor, Is12Server.monitorOf, hw.rxOid, hw.txOid]

theorem findMonitor_unknown (hw : Wired s) (hoid : ¬ (nOid = 10 ∨ nOid = 11)) : s.findMonitor nOid = none := by
  rw [Is12Server.findMonitor, hw.rxOid, hw.txOid, if_neg fun h => hoid (Or.inl h), if_neg fun h => hoid (Or.inr h)]

/-- Putting a monitor back changes nothing. -/
theorem setMonitor_monitorOf (hw : Wired s) (hoid : nOid = 10 ∨ nOid = 11) : s.setMonitor (s.monitorOf nOid) = s := by
  rcases hoid with rfl | rfl <;> simp [Is12Server.setMonitor, Is12Server.monitorOf, hw.rxOid, hw.txOid]

/-- A command leaves the server as it is, unless it resets a monitor. -/
theorem invoke_eq (hw : Wired s) (cmd : Command) (p : Connection) :
    (s.invoke cmd).1 = s ∧ (cmd.nOid = 10 ∨ cmd.nOid = 11 → ¬ Resets s cmd.nOid (.command p cmd)) ∨
      (cmd.nOid = 10 ∨ cmd.nOid = 11) ∧ Resets s cmd.nOid (.command p cmd) ∧
        (s.invoke cmd).1 = s.setMonitor (resetMonitor (s.monitorOf cmd.nOid)) := by
  by_cases hlevel : cmd.nLevel = 4
  · by_cases hoid : cmd.nOid = 10 ∨ cmd.nOid = 11
    · have hinvoke : s.invoke cmd = (s.setMonitor (invokeMethod (s.monitorOf cmd.nOid) cmd.nIndex).1,
          (invokeMethod (s.monitorOf cmd.nOid) cmd.nIndex).2) := by
        simp only [Is12Server.invoke, hlevel, if_true, findMonitor_known hw hoid]
        rfl
      rw [hinvoke]
      by_cases hreset : cmd.nIndex = if (s.monitorOf cmd.nOid).bIsReceiver then 3 else 2
      · refine Or.inr ⟨hoid, ⟨rfl, hlevel, hreset⟩, ?_⟩
        cases hkind : (s.monitorOf cmd.nOid).bIsReceiver <;> simp [hkind] at hreset <;>
          simp [invokeMethod, hkind, hreset]
      · refine Or.inl ⟨?_, fun _ h => hreset h.2.2⟩
        have hkept : (invokeMethod (s.monitorOf cmd.nOid) cmd.nIndex).1 = s.monitorOf cmd.nOid := by
          simp only [invokeMethod, hreset, if_false]
          split_ifs <;> rfl
        simp only [hkept]
        exact setMonitor_monitorOf hw hoid
    · have hinvoke : s.invoke cmd = (s, .error 501 "method not implemented") := by
        simp only [Is12Server.invoke, hlevel, findMonitor_unknown hw hoid]
        rfl
      rw [hinvoke]
      exact Or.inl ⟨rfl, fun h => absurd h hoid⟩
  · refine Or.inl ⟨?_, fun _ h => hlevel h.2.1⟩
    simp only [Is12Server.invoke, hlevel, if_false]
    split_ifs <;> first | rfl | (split <;> rfl)

theorem setMonitor_reset (hw : Wired s) (hoid : nOid = 10 ∨ nOid = 11) :
    Wired (s.setMonitor (resetMonitor (s.monitorOf nOid))) ∧
      (s.setMonitor (resetMonitor (s.monitorOf nOid))).monitorOf nOid = resetMonitor (s.monitorOf nOid) ∧
      ∀ nOther, (nOther = 10 ∨ nOther = 11) → nOther ≠ nOid →
        (s.setMonitor (resetMonitor (s.monitorOf nOid))).monitorOf nOther = s.monitorOf nOther := by
  have hkeep (m : McMonitor) : (resetMonitor m).nOid = m.nOid := rfl
  rcases hoid with rfl | rfl
  · have hset : s.setMonitor (resetMonitor (s.monitorOf 10)) = { s with rxMonitor := resetMonitor s.rxMonitor } := by
      simp [Is12Server.setMonitor, Is12Server.monitorOf, hw.rxOid, hkeep]
    rw [hset]
    refine ⟨⟨hw.rxOid, hw.txOid⟩, by simp [Is12Server.monitorOf, hkeep, hw.rxOid], fun nOther hother hne => ?_⟩
    simp [Is12Server.monitorOf, hkeep, hw.rxOid, hne]
  · have hset : s.setMonitor (resetMonitor (s.monitorOf 11)) = { s with txMonitor := resetMonitor s.txMonitor } := by
      simp [Is12Server.setMonitor, Is12Server.monitorOf, hw.rxOid, hw.txOid, hkeep]
    rw [hset]
    refine ⟨⟨hw.rxOid, hw.txOid⟩, by simp [Is12Server.monitorOf, hw.rxOid], fun nOther hother hne => ?_⟩
    have hten : nOther = 10 := hother.resolve_right hne
    simp [Is12Server.monitorOf, hw.rxOid, hten]

theorem Wired.step (hw : Wired s) (op : Is12Operation) : Wired (s.step op).1 := by
  have hupdate (m : McMonitor) (nDomain : Domain) (nStatus : Int) (sMessage : String) (now : Instant) :
      (updateDomain nDomain nStatus sMessage now m).1.nOid = m.nOid :=
    (mirrors_updateDomain nDomain nStatus sMessage now [] m (mirrors_self m)).oid
  have hsource (m : McMonitor) (sSourceId : Option String) : (Nmos.setSyncSource sSourceId m).1.nOid = m.nOid :=
    (mirrors_setSyncSource sSourceId [] m (mirrors_self m)).oid
  cases op with
  | connect pConn => exact ⟨hw.rxOid, hw.txOid⟩
  | subscribe pConn vOids => exact ⟨hw.rxOid, hw.txOid⟩
  | close pConn => exact ⟨hw.rxOid, hw.txOid⟩
  | updateReceiverDomain nDomain nStatus sMessage now => exact ⟨(hupdate ..).trans hw.rxOid, hw.txOid⟩
  | updateSenderDomain nDomain nStatus sMessage now => exact ⟨hw.rxOid, (hupdate ..).trans hw.txOid⟩
  | setSyncSource sSourceId => exact ⟨(hsource ..).trans hw.rxOid, (hsource ..).trans hw.txOid⟩
  | addReceiverLost sLeg nPackets => exact ⟨hw.rxOid, hw.txOid⟩
  | addReceiverLate nPackets => exact ⟨hw.rxOid, hw.txOid⟩
  | addSenderErrors sCounter nErrors => exact ⟨hw.rxOid, hw.txOid⟩
  | command pConn cmd =>
    rcases invoke_eq hw cmd pConn with ⟨hsame, _⟩ | ⟨hoid, _, hreset⟩
    · simp only [Is12Server.step, hsame]
      exact hw
    · simp only [Is12Server.step, hreset]
      exact (setMonitor_reset hw hoid).1

/-- What the monitors count is no property of theirs. -/
theorem getProperty_counters {s' : Is12Server} (hw : Wired s) (hw' : Wired s') (hoid : nOid = 10 ∨ nOid = 11)
    (hrx : monitorProperty s'.rxMonitor = monitorProperty s.rxMonitor)
    (htx : monitorProperty s'.txMonitor = monitorProperty s.txMonitor) : s.getProperty nOid = s'.getProperty nOid := by
  rcases hoid with rfl | rfl
  · rw [getProperty_rx hw, getProperty_rx hw', hrx]
  · rw [getProperty_tx hw, getProperty_tx hw', htx]

/-- One operation keeps the replica true, unless it resets a monitor with
transitions counted or a message standing. -/
theorem follow_step (hw : Wired s) (hoid : nOid = 10 ∨ nOid = 11) (hsub : Subscribed s pConn nOid)
    (op : Is12Operation) :
    follow pConn nOid (s.getProperty nOid) (s.step op).2 = (s.step op).1.getProperty nOid ↔
      (Resets s nOid op → Clean (s.monitorOf nOid)) := by
  have hupdate (m : McMonitor) (nDomain : Domain) (nStatus : Int) (sMessage : String) (now : Instant) :=
    mirrors_updateDomain nDomain nStatus sMessage now [] m (mirrors_self m)
  have hsource (m : McMonitor) (sSourceId : Option String) :=
    mirrors_setSyncSource sSourceId [] m (mirrors_self m)
  cases op with
  | connect p => exact ⟨fun _ h => h.elim, fun _ => rfl⟩
  | subscribe p vOids => exact ⟨fun _ h => h.elim, fun _ => rfl⟩
  | close p => exact ⟨fun _ h => h.elim, fun _ => rfl⟩
  | addReceiverLost sLeg nPackets =>
    exact ⟨fun _ h => h.elim, fun _ => getProperty_counters hw (hw.step _) hoid rfl rfl⟩
  | addReceiverLate nPackets =>
    exact ⟨fun _ h => h.elim, fun _ => getProperty_counters hw (hw.step _) hoid rfl rfl⟩
  | addSenderErrors sCounter nErrors =>
    exact ⟨fun _ h => h.elim, fun _ => getProperty_counters hw (hw.step _) hoid rfl rfl⟩
  | updateReceiverDomain nDomain nStatus sMessage now =>
    exact ⟨fun _ h => h.elim, fun _ => follow_withRx hw hoid hsub (hupdate ..)⟩
  | updateSenderDomain nDomain nStatus sMessage now =>
    exact ⟨fun _ h => h.elim, fun _ => follow_withTx hw hoid hsub (hupdate ..)⟩
  | setSyncSource sSourceId =>
    refine ⟨fun _ h => h.elim, fun _ => ?_⟩
    have hfirst := follow_withRx hw hoid hsub (hsource s.rxMonitor sSourceId)
    have hw' : Wired (s.withRx (Nmos.setSyncSource sSourceId s.rxMonitor)).1 :=
      ⟨(hsource ..).oid.trans hw.rxOid, hw.txOid⟩
    simp only [Is12Server.step, andThen_fst, andThen_snd, follow_append]
    rw [hfirst]
    exact follow_withTx hw' hoid hsub (hsource ..)
  | command p cmd =>
    have hsent : follow pConn nOid (s.getProperty nOid) (s.step (.command p cmd)).2 = s.getProperty nOid := rfl
    rw [hsent]
    rcases invoke_eq hw cmd p with ⟨hsame, hnot⟩ | ⟨hcmd, hresets, hreset⟩
    · simp only [Is12Server.step, hsame]
      refine ⟨fun _ h => ?_, fun _ => trivial⟩
      have he : cmd.nOid = nOid := h.1
      rw [← he] at h hoid
      exact absurd h (hnot hoid)
    · obtain ⟨hw', hself, hothers⟩ := setMonitor_reset hw hcmd
      simp only [Is12Server.step, hreset]
      rw [getProperty_monitorOf hw hoid, getProperty_monitorOf hw' hoid]
      by_cases he : nOid = cmd.nOid
      · subst he
        rw [hself]
        exact ⟨fun h _ => (monitorProperty_reset _).mp h.symm, fun h => ((monitorProperty_reset _).mpr (h hresets)).symm⟩
      · rw [hothers nOid hoid he]
        exact ⟨fun _ h => absurd h.1.symm he, fun _ => rfl⟩

/-- The connection stops watching the object. -/
def Leaves (pConn : Connection) (nOid : Int) : Is12Operation → Prop
  | .connect p | .close p => p = pConn
  | .subscribe p vOids => p = pConn ∧ nOid ∉ vOids
  | _ => False

theorem Subscribed.step (hw : Wired s) (hoid : nOid = 10 ∨ nOid = 11) (hsub : Subscribed s pConn nOid)
    {op : Is12Operation} (hstays : ¬ Leaves pConn nOid op) : Subscribed (s.step op).1 pConn nOid := by
  obtain ⟨setOids, hmem, hin⟩ := hsub
  cases op with
  | connect p =>
    refine ⟨setOids, List.mem_cons_of_mem _ (List.mem_filter.mpr ⟨hmem, ?_⟩), hin⟩
    simpa [Ne.symm] using Ne.symm hstays
  | close p => exact ⟨setOids, List.mem_filter.mpr ⟨hmem, by simpa using Ne.symm hstays⟩, hin⟩
  | subscribe p vOids =>
    by_cases hp : p = pConn
    · subst hp
      have hkept : nOid ∈ vOids := by
        by_contra hnot
        exact hstays ⟨rfl, hnot⟩
      refine ⟨_, List.mem_cons_self, List.mem_filter.mpr ⟨hkept, ?_⟩⟩
      simp [findMonitor_known hw hoid]
    · exact ⟨setOids, List.mem_cons_of_mem _ (List.mem_filter.mpr ⟨hmem, by simpa using Ne.symm hp⟩), hin⟩
  | command p cmd =>
    rcases invoke_eq hw cmd p with ⟨hsame, _⟩ | ⟨hcmd, _, hreset⟩
    · simp only [Is12Server.step, hsame]
      exact ⟨setOids, hmem, hin⟩
    · simp only [Is12Server.step, hreset]
      refine ⟨setOids, ?_, hin⟩
      rw [Is12Server.setMonitor]
      split <;> exact hmem
  | updateReceiverDomain nDomain nStatus sMessage now => exact ⟨setOids, hmem, hin⟩
  | updateSenderDomain nDomain nStatus sMessage now => exact ⟨setOids, hmem, hin⟩
  | setSyncSource sSourceId => exact ⟨setOids, hmem, hin⟩
  | addReceiverLost sLeg nPackets => exact ⟨setOids, hmem, hin⟩
  | addReceiverLate nPackets => exact ⟨setOids, hmem, hin⟩
  | addSenderErrors sCounter nErrors => exact ⟨setOids, hmem, hin⟩

/-- The replica equals what the server answers now. -/
def Follows (pConn : Connection) (nOid : Int) (start : Replica) (x : Is12Server × List Sent) : Prop :=
  follow pConn nOid start x.2 = x.1.getProperty nOid

/-- Every reset of the monitor finds nothing to clear in its domains. -/
def ResetsClean (s : Is12Server) (nOid : Int) : List Is12Operation → Prop :=
  Admits fun pre op => Resets (s.runOperations pre).1 nOid op → Clean ((s.runOperations pre).1.monitorOf nOid)

theorem runOperations_snoc (s : Is12Server) (ops : List Is12Operation) (op : Is12Operation) :
    s.runOperations (ops ++ [op]) = andThen (s.runOperations ops) (Is12Server.step · op) := runReport_snoc ..

theorem Wired.run (hw : Wired s) (ops : List Is12Operation) : Wired (s.runOperations ops).1 :=
  runReport_invariant (I := fun _ s => Wired s) hw (fun op _ _ h => h.step op) ops

theorem Subscribed.run (hw : Wired s) (hoid : nOid = 10 ∨ nOid = 11) (hsub : Subscribed s pConn nOid)
    (ops : List Is12Operation) (hstays : ∀ op ∈ ops, ¬ Leaves pConn nOid op) :
    Subscribed (s.runOperations ops).1 pConn nOid := by
  induction ops using List.reverseRecOn with
  | nil => exact hsub
  | append_singleton ops op ih =>
    rw [runOperations_snoc]
    exact (ih fun o ho => hstays o (List.mem_append_left _ ho)).step (hw.run ops) hoid
      (hstays op (List.mem_append_right _ List.mem_cons_self))

theorem wired_init (sNodeId sVersion sReceiverId sSenderId : String) :
    Wired (.init sNodeId sVersion sReceiverId sSenderId) := ⟨rfl, rfl⟩

/-- The next operation keeps a true replica true just when it is no unclean reset. -/
theorem follows_snoc (hw : Wired s) (hoid : nOid = 10 ∨ nOid = 11) (hsub : Subscribed s pConn nOid)
    {ops : List Is12Operation} (hstays : ∀ op ∈ ops, ¬ Leaves pConn nOid op)
    (hfollows : Follows pConn nOid (s.getProperty nOid) (s.runOperations ops)) (op : Is12Operation) :
    Follows pConn nOid (s.getProperty nOid) (s.runOperations (ops ++ [op])) ↔
      (Resets (s.runOperations ops).1 nOid op → Clean ((s.runOperations ops).1.monitorOf nOid)) := by
  rw [Follows, runOperations_snoc, andThen_fst, andThen_snd, follow_append]
  rw [Follows] at hfollows
  rw [hfollows]
  exact follow_step (hw.run ops) hoid (hsub.run hw hoid ops hstays) op

/-- The replica of a controller that stays subscribed is true after every
operation just when every reset of the monitor finds nothing to clear. -/
theorem replica_follows_iff (sNodeId sVersion sReceiverId sSenderId : String) (before ops : List Is12Operation)
    {pConn : Connection} {nOid : Int} {s : Is12Server}
    (hreached : s = ((Is12Server.init sNodeId sVersion sReceiverId sSenderId).runOperations before).1)
    (hoid : nOid = 10 ∨ nOid = 11) (hsub : Subscribed s pConn nOid) (hstays : ∀ op ∈ ops, ¬ Leaves pConn nOid op) :
    (∀ pre, pre <+: ops → Follows pConn nOid (s.getProperty nOid) (s.runOperations pre)) ↔ ResetsClean s nOid ops := by
  have hw : Wired s := hreached ▸ (wired_init ..).run before
  clear hreached
  constructor
  · rintro hall pre op post rfl
    have hpre : ∀ o ∈ pre, ¬ Leaves pConn nOid o := fun o ho => hstays o (List.mem_append_left _ ho)
    have hmore : pre ++ [op] <+: pre ++ op :: post := ⟨post, by simp⟩
    exact (follows_snoc hw hoid hsub hpre (hall pre (List.prefix_append _ _)) op).mp (hall _ hmore)
  · intro hclean pre hprefix
    induction pre using List.reverseRecOn with
    | nil => rfl
    | append_singleton pre op ih =>
      obtain ⟨post, rfl⟩ := hprefix
      have hpre : ∀ o ∈ pre, ¬ Leaves pConn nOid o := fun o ho => hstays o (by simp [ho])
      refine (follows_snoc hw hoid hsub hpre (ih ⟨[op] ++ post, by simp⟩) op).mpr ?_
      exact hclean pre op post (by simp)

/-- A controller watches the receiver monitor while a link goes down for longer
than the reporting delay. -/
def watched : Is12Server :=
  ((Is12Server.init "node" "1.0" "receiver" "sender").runOperations [.connect 1, .subscribe 1 [10]]).1

def linkDown : List Is12Operation :=
  [.updateReceiverDomain .link 2 "eth1 down" 0, .updateReceiverDomain .link 2 "eth1 down" 3000000000]

def resetByOther : Is12Operation := .command 2 { nHandle := 1, nOid := 10, nLevel := 4, nIndex := 3 }

theorem watched_subscribed : Subscribed watched 1 10 := ⟨[10], List.mem_cons_self, List.mem_cons_self⟩

theorem linkDown_followed :
    Follows 1 10 (watched.getProperty 10) (watched.runOperations (resetByOther :: linkDown)) := by
  have hops : ∀ op ∈ resetByOther :: linkDown, ¬ Leaves 1 10 op := by
    simp [resetByOther, linkDown, Leaves]
  refine (replica_follows_iff "node" "1.0" "receiver" "sender" [.connect 1, .subscribe 1 [10]] _ rfl (Or.inl rfl)
    watched_subscribed hops).mpr ?_ _ (List.prefix_refl _)
  refine admits_cons.mpr ⟨fun _ nDomain => ?_, admits_cons.mpr ⟨fun h => h.elim,
    admits_cons.mpr ⟨fun h => h.elim, admits_nil⟩⟩⟩
  cases nDomain <;> exact ⟨rfl, rfl⟩

/-- Another controller resets the monitor: the first one is not told. -/
theorem reset_unnoticed :
    follow 1 10 (watched.getProperty 10) (watched.runOperations (linkDown ++ [resetByOther])).2 4 3 = .ok (.int 1) ∧
      (watched.runOperations (linkDown ++ [resetByOther])).1.getProperty 10 4 3 = .ok (.int 0) ∧
      ¬ Follows 1 10 (watched.getProperty 10) (watched.runOperations (linkDown ++ [resetByOther])) := by
  have hreplica : follow 1 10 (watched.getProperty 10) (watched.runOperations (linkDown ++ [resetByOther])).2 4 3 =
      .ok (.int 1) := rfl
  have hserver : (watched.runOperations (linkDown ++ [resetByOther])).1.getProperty 10 4 3 = .ok (.int 0) := rfl
  refine ⟨hreplica, hserver, fun h => ?_⟩
  have hsame := congrFun (congrFun h 4) 3
  rw [hreplica, hserver] at hsame
  simp at hsame

end PiAudioNode.Nmos
