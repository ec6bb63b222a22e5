import PiAudioNode.Lib.Landing
import PiAudioNode.Lib.Since
import PiAudioNode.Nmos.Monitor

/-! What the monitors count: packets and errors by name, and the transitions of each
domain. A controller reads the sums since the last reset. -/
namespace PiAudioNode.Nmos
open Lib Lib.Json

instance (s : Is12Server) (nOid : Int) : DecidablePred (Resets s nOid)
  | .command _ _ => inferInstanceAs (Decidable (_ ∧ _ ∧ _))
  | .connect _ | .subscribe _ _ | .close _ | .updateReceiverDomain .. | .updateSenderDomain .. | .setSyncSource _
  | .addReceiverLost _ _ | .addReceiverLate _ | .addSenderErrors _ _ => isFalse id

/-- The server alone, as one operation leaves it. -/
def Is12Server.next (s : Is12Server) (op : Is12Operation) : Is12Server := (s.step op).1

/-- The operations since a monitor was reset, each with the server it found. -/
def sinceReset (s : Is12Server) (nOid : Int) (ops : List Is12Operation) : List (Is12Server × Is12Operation) :=
  sinceLast (fun x => Resets x.1 nOid x.2) (found Is12Server.next s ops)

/-- What an operation adds to the lost packets, or to the errors of the sender. -/
def counted1 (nOid : Int) : Is12Operation → List (String × BitVec 64)
  | .addReceiverLost sLeg nPackets => if nOid = 10 then [(sLeg, nPackets)] else []
  | .addSenderErrors sCounter nErrors => if nOid = 11 then [(sCounter, nErrors)] else []
  | _ => []

/-- What an operation adds to the late packets. -/
def counted2 (nOid : Int) : Is12Operation → List (String × BitVec 64)
  | .addReceiverLate nPackets => if nOid = 10 then [("late", nPackets)] else []
  | _ => []

/-- The sum under a name, where anything was added under it. -/
def total (sName : String) (xs : List (String × BitVec 64)) : Option (BitVec 64) :=
  if (xs.filter (·.1 = sName)) = [] then none else some ((xs.filter (·.1 = sName)).map Prod.snd).sum

/-- An operation makes a domain less healthy than it was, and it was not inactive. -/
def Rises (nOid : Int) (nDomain : Domain) (x : Is12Server × Is12Operation) : Prop :=
  ((x.1.monitorOf nOid).aDomains nDomain).nStatus ≠ 0 ∧ ((x.1.monitorOf nOid).aDomains nDomain).nStatus <
    (((x.1.next x.2).monitorOf nOid).aDomains nDomain).nStatus

instance (nOid : Int) (nDomain : Domain) : DecidablePred (Rises nOid nDomain) :=
  fun _ => inferInstanceAs (Decidable (_ ∧ _))

section Sums
variable {mCounters : List (String × BitVec 64)}

def addAll (mCounters xs : List (String × BitVec 64)) : List (String × BitVec 64) :=
  xs.foldl (fun m x => addTo x.1 x.2 m) mCounters

theorem findKey_addTo (sName sOther : String) (n : BitVec 64) :
    findKey sName (addTo sOther n mCounters) =
      if sOther = sName then some ((findKey sName mCounters).getD 0 + n) else findKey sName mCounters := by
  rw [addTo]
  split_ifs with h
  · rw [h, findKey_setKey_self]
  · exact findKey_setKey_ne (Ne.symm h) _ _

theorem total_snoc (sName : String) (xs : List (String × BitVec 64)) (x : String × BitVec 64) :
    total sName (xs ++ [x]) = if x.1 = sName then some ((total sName xs).getD 0 + x.2) else total sName xs := by
  rw [total, total, List.filter_append]
  by_cases h : x.1 = sName
  · rw [List.filter_cons_of_pos (by simpa using h), List.filter_nil, if_neg (by simp), if_pos h, List.map_append,
      List.sum_append, List.map_singleton, List.sum_singleton]
    split_ifs with hnone
    · rw [hnone]
      rfl
    · rfl
  · rw [List.filter_cons_of_neg (by simpa using h), List.filter_nil, List.append_nil, if_neg h]

/-- Each name keeps its own sum. -/
theorem findKey_addAll (sName : String) (xs : List (String × BitVec 64)) :
    findKey sName (addAll [] xs) = total sName xs := by
  induction xs using List.reverseRecOn with
  | nil => rfl
  | append_singleton xs x ih =>
    rw [total_snoc, ← ih, addAll, List.foldl_append, List.foldl_cons, List.foldl_nil, findKey_addTo]
    rfl

theorem sorted_addAll (xs : List (String × BitVec 64)) : (addAll [] xs).Pairwise (·.1 < ·.1) := by
  induction xs using List.reverseRecOn with
  | nil => exact List.Pairwise.nil
  | append_singleton xs x ih =>
    rw [addAll, List.foldl_append, List.foldl_cons, List.foldl_nil, addTo]
    exact pairwise_setKey ih

end Sums

section Frame
variable {m : McMonitor}

/-- The counters of a monitor and its kind, which domain updates leave alone. -/
structure SameBooks (m m' : McMonitor) : Prop where
  counters1 : m'.mCounters1 = m.mCounters1
  counters2 : m'.mCounters2 = m.mCounters2
  kind : m'.bIsReceiver = m.bIsReceiver

theorem SameBooks.refl (m : McMonitor) : SameBooks m m := ⟨rfl, rfl, rfl⟩

theorem SameBooks.trans {m m' m'' : McMonitor} (h : SameBooks m m') (h' : SameBooks m' m'') : SameBooks m m'' :=
  ⟨h'.counters1.trans h.counters1, h'.counters2.trans h.counters2, h'.kind.trans h.kind⟩

theorem sameBooks_recomputeOverall (m : McMonitor) : SameBooks m (recomputeOverall m).1 := by
  simp only [recomputeOverall, andThen_fst, setOverall, setOverallMessage]
  split_ifs <;> exact ⟨rfl, rfl, rfl⟩

theorem sameBooks_enterStatus (nDomain : Domain) (nStatus : Int) (m : McMonitor) :
    SameBooks m (enterStatus nDomain nStatus m).1 := by
  unfold enterStatus
  split
  · simp only [andThen_fst, setStatus, countTransition]
    split <;> exact ⟨rfl, rfl, rfl⟩
  · exact .refl m

theorem sameBooks_enterMessage (nDomain : Domain) (sMessage : String) (m : McMonitor) :
    SameBooks m (enterMessage nDomain sMessage m).1 := by
  unfold enterMessage
  split <;> exact ⟨rfl, rfl, rfl⟩

theorem sameBooks_enterDomain (nDomain : Domain) (nStatus : Int) (sMessage : String) (m : McMonitor) :
    SameBooks m (enterDomain nDomain nStatus sMessage m).1 := by
  have hclear : SameBooks m (clearPending nDomain m) := ⟨rfl, rfl, rfl⟩
  have hstatus := sameBooks_enterStatus nDomain nStatus (clearPending nDomain m)
  have hmessage := sameBooks_enterMessage nDomain sMessage (enterStatus nDomain nStatus (clearPending nDomain m)).1
  exact ((hclear.trans hstatus).trans hmessage).trans (sameBooks_recomputeOverall _)

theorem sameBooks_updateDomain (nDomain : Domain) (nStatus : Int) (sMessage : String) (now : Instant) (m : McMonitor) :
    SameBooks m (updateDomain nDomain nStatus sMessage now m).1 := by
  have hpending : SameBooks m (markPending nDomain nStatus now m) := by
    unfold markPending
    dsimp only
    split <;> exact ⟨rfl, rfl, rfl⟩
  unfold updateDomain
  dsimp only
  split
  · split
    · exact hpending
    · exact hpending.trans (sameBooks_enterDomain nDomain nStatus sMessage _)
  · exact sameBooks_enterDomain nDomain nStatus sMessage m

theorem sameBooks_setSyncSource (sSourceId : Option String) (m : McMonitor) :
    SameBooks m (setSyncSource sSourceId m).1 := by
  unfold setSyncSource
  split <;> exact ⟨rfl, rfl, rfl⟩

end Frame

section Step
variable {s : Is12Server} {nOid : Int}

/-- An operation that is no reset writes in the counters what it adds. -/
structure WritesCounters (nOid : Int) (op : Is12Operation) (m m' : McMonitor) : Prop where
  counters1 : m'.mCounters1 = addAll m.mCounters1 (counted1 nOid op)
  counters2 : m'.mCounters2 = addAll m.mCounters2 (counted2 nOid op)
  kind : m'.bIsReceiver = m.bIsReceiver

theorem writes_of_sameBooks {op : Is12Operation} {m m' : McMonitor} (h : SameBooks m m') (h1 : counted1 nOid op = [])
    (h2 : counted2 nOid op = []) : WritesCounters nOid op m m' := by
  refine ⟨?_, ?_, h.kind⟩
  · rw [h1, h.counters1]
    rfl
  · rw [h2, h.counters2]
    rfl

theorem writes_next (hw : Wired s) (hoid : nOid = 10 ∨ nOid = 11) {op : Is12Operation} (hno : ¬ Resets s nOid op) :
    WritesCounters nOid op (s.monitorOf nOid) ((s.next op).monitorOf nOid) := by
  have hw' : Wired (s.next op) := hw.step op
  -- what the operation does to both monitors tells what it does to this one
  have both (hrx : nOid = 10 → WritesCounters nOid op s.rxMonitor (s.next op).rxMonitor)
      (htx : nOid = 11 → WritesCounters nOid op s.txMonitor (s.next op).txMonitor) :
      WritesCounters nOid op (s.monitorOf nOid) ((s.next op).monitorOf nOid) := by
    rcases hoid with rfl | rfl
    · rw [monitorOf_rx hw, monitorOf_rx hw']
      exact hrx rfl
    · rw [monitorOf_tx hw, monitorOf_tx hw']
      exact htx rfl
  cases op with
  | connect p => exact both (fun _ => writes_of_sameBooks (.refl _) rfl rfl) fun _ => writes_of_sameBooks (.refl _) rfl rfl
  | subscribe p vOids =>
    exact both (fun _ => writes_of_sameBooks (.refl _) rfl rfl) fun _ => writes_of_sameBooks (.refl _) rfl rfl
  | close p => exact both (fun _ => writes_of_sameBooks (.refl _) rfl rfl) fun _ => writes_of_sameBooks (.refl _) rfl rfl
  | updateReceiverDomain nDomain nStatus sMessage now =>
    apply both
    · exact fun _ => writes_of_sameBooks (sameBooks_updateDomain nDomain nStatus sMessage now s.rxMonitor) rfl rfl
    · exact fun _ => writes_of_sameBooks (.refl _) rfl rfl
  | updateSenderDomain nDomain nStatus sMessage now =>
    apply both
    · exact fun _ => writes_of_sameBooks (.refl _) rfl rfl
    · exact fun _ => writes_of_sameBooks (sameBooks_updateDomain nDomain nStatus sMessage now s.txMonitor) rfl rfl
  | setSyncSource sSourceId =>
    apply both
    · exact fun _ => writes_of_sameBooks (sameBooks_setSyncSource sSourceId s.rxMonitor) rfl rfl
    · exact fun _ => writes_of_sameBooks (sameBooks_setSyncSource sSourceId s.txMonitor) rfl rfl
  | addReceiverLost sLeg nPackets =>
    apply both
    · rintro rfl
      exact ⟨rfl, rfl, rfl⟩
    · rintro rfl
      exact ⟨rfl, rfl, rfl⟩
  | addReceiverLate nPackets =>
    apply both
    · rintro rfl
      exact ⟨rfl, rfl, rfl⟩
    · rintro rfl
      exact ⟨rfl, rfl, rfl⟩
  | addSenderErrors sCounter nErrors =>
    apply both
    · rintro rfl
      exact ⟨rfl, rfl, rfl⟩
    · rintro rfl
      exact ⟨rfl, rfl, rfl⟩
  | command p cmd =>
    rcases invoke_eq hw cmd p with ⟨hsame, -⟩ | ⟨hcmd, hresets, hreset⟩
    · have hserver : s.next (.command p cmd) = s := hsame
      rw [hserver]
      exact writes_of_sameBooks (.refl _) rfl rfl
    · obtain ⟨-, -, hothers⟩ := setMonitor_reset hw hcmd
      have hserver : s.next (.command p cmd) = s.setMonitor (resetMonitor (s.monitorOf cmd.nOid)) := hreset
      have hother : nOid ≠ cmd.nOid := by
        rintro rfl
        exact hno hresets
      rw [hserver, hothers nOid hoid hother]
      exact writes_of_sameBooks (.refl _) rfl rfl

theorem reset_next (hw : Wired s) (hoid : nOid = 10 ∨ nOid = 11) {op : Is12Operation} (hresets : Resets s nOid op) :
    (s.next op).monitorOf nOid = resetMonitor (s.monitorOf nOid) := by
  have hstep := monitorStep hw hoid op
  cases op with
  | command p cmd =>
    cases hstep with
    | call c hcall _ => cases hcall
    | reset _ _ hreset => exact hreset
    | other _ hno _ => exact absurd hresets hno
  | _ => exact hresets.elim

/-- The kind of each monitor is what its commands are chosen by. -/
theorem kind_next (hw : Wired s) (hoid : nOid = 10 ∨ nOid = 11) (op : Is12Operation) :
    ((s.next op).monitorOf nOid).bIsReceiver = (s.monitorOf nOid).bIsReceiver := by
  by_cases hresets : Resets s nOid op
  · rw [reset_next hw hoid hresets]
    rfl
  · exact (writes_next hw hoid hresets).kind

/-- One report makes the status of a domain rise, and counts it, or does neither. -/
theorem transitions_reported (domain : McDomain) (c : DomainCall) :
    (domain.reported c).nTransitions = domain.nTransitions +
      if domain.nStatus ≠ 0 ∧ domain.nStatus < (domain.reported c).nStatus then 1 else 0 := by
  have hentered (d : McDomain) : (d.entered c).nTransitions = d.nTransitions +
      if d.nStatus ≠ 0 ∧ d.nStatus < (d.entered c).nStatus then 1 else 0 := by
    simp only [McDomain.entered, and_comm]
    split_ifs
    · rfl
    · exact (BitVec.add_zero _).symm
  have hpending : (domain.pending c).nTransitions = domain.nTransitions := by
    unfold McDomain.pending
    split <;> rfl
  unfold McDomain.reported
  split
  · split
    · rw [pending_nStatus, if_neg (fun h => lt_irrefl _ h.2), hpending, add_zero]
    · rw [hentered, hpending, pending_nStatus]
  · exact hentered domain

/-- The transitions of a domain count its rises. -/
theorem transitions_next (hw : Wired s) (hoid : nOid = 10 ∨ nOid = 11) (nDomain : Domain) {op : Is12Operation}
    (hno : ¬ Resets s nOid op) : (((s.next op).monitorOf nOid).aDomains nDomain).nTransitions =
      ((s.monitorOf nOid).aDomains nDomain).nTransitions + if Rises nOid nDomain (s, op) then 1 else 0 := by
  have hstep : MonitorStep s nOid op ((s.next op).monitorOf nOid) := monitorStep hw hoid op
  have hsame (hdomain : ((s.next op).monitorOf nOid).aDomains nDomain = (s.monitorOf nOid).aDomains nDomain) :
      (((s.next op).monitorOf nOid).aDomains nDomain).nTransitions =
        ((s.monitorOf nOid).aDomains nDomain).nTransitions + if Rises nOid nDomain (s, op) then 1 else 0 := by
    have hflat : ¬ Rises nOid nDomain (s, op) := by
      intro hrises
      exact absurd hrises.2 (by rw [hdomain]; exact lt_irrefl _)
    rw [if_neg hflat, hdomain, add_zero]
  cases hstep with
  | call c hcall happly =>
    by_cases hd : c.nDomain = nDomain
    · subst hd
      have hdomain : ((s.next op).monitorOf nOid).aDomains c.nDomain =
          ((s.monitorOf nOid).aDomains c.nDomain).reported c := by
        rw [happly, applyCall_aDomains, Function.update_self]
      have hrises : Rises nOid c.nDomain (s, op) ↔ ((s.monitorOf nOid).aDomains c.nDomain).nStatus ≠ 0 ∧
          ((s.monitorOf nOid).aDomains c.nDomain).nStatus <
            (((s.monitorOf nOid).aDomains c.nDomain).reported c).nStatus := by
        rw [Rises, hdomain]
      rw [hdomain, transitions_reported]
      simp only [hrises]
    · apply hsame
      rw [happly, applyCall_ne _ (Ne.symm hd)]
  | reset _ hresets _ => exact absurd hresets hno
  | other _ _ hother =>
    apply hsame
    rw [hother.domains]

end Step

/-- What a monitor counts, name by name and domain by domain, is what it was told since
its last reset. -/
structure Tallied (s : Is12Server) (nOid : Int) (ops : List Is12Operation) : Prop where
  counters1 : ∀ sName, findKey sName ((s.runOperations ops).1.monitorOf nOid).mCounters1 =
    total sName ((sinceReset s nOid ops).flatMap fun x => counted1 nOid x.2)
  counters2 : ∀ sName, findKey sName ((s.runOperations ops).1.monitorOf nOid).mCounters2 =
    total sName ((sinceReset s nOid ops).flatMap fun x => counted2 nOid x.2)
  sorted1 : ((s.runOperations ops).1.monitorOf nOid).mCounters1.Pairwise (·.1 < ·.1)
  sorted2 : ((s.runOperations ops).1.monitorOf nOid).mCounters2.Pairwise (·.1 < ·.1)
  transitions : ∀ nDomain, (((s.runOperations ops).1.monitorOf nOid).aDomains nDomain).nTransitions =
    BitVec.ofNat 32 ((sinceReset s nOid ops).countP (Rises nOid nDomain))
  reply : ∀ nHandle, ((s.runOperations ops).1.invoke { nHandle, nOid, nLevel := 4, nIndex := 1 }).2 =
    .ok (counters ((s.runOperations ops).1.monitorOf nOid).mCounters1)

section Runs
variable {s : Is12Server} {nOid : Int}

theorem run_next (s : Is12Server) (ops : List Is12Operation) : run Is12Server.next s ops = (s.runOperations ops).1 := by
  induction ops using List.reverseRecOn with
  | nil => rfl
  | append_singleton ops op ih =>
    rw [run_snoc, ih, runOperations_snoc, andThen_fst]
    rfl

/-- One of a monitor's books, from what one operation does to it. -/
theorem book_run {β : Type*} {book : McMonitor → β} {write : β → Is12Server × Is12Operation → β} {clean : β}
    (hw : Wired s) (hoid : nOid = 10 ∨ nOid = 11) (start : book (s.monitorOf nOid) = clean)
    (hreset : ∀ ops, book (resetMonitor ((s.runOperations ops).1.monitorOf nOid)) = clean)
    (hwrite : ∀ ops op, ¬ Resets (s.runOperations ops).1 nOid op →
      book (((s.runOperations ops).1.next op).monitorOf nOid) =
        write (book ((s.runOperations ops).1.monitorOf nOid)) ((s.runOperations ops).1, op))
    (ops : List Is12Operation) :
    book ((s.runOperations ops).1.monitorOf nOid) = (sinceReset s nOid ops).foldl write clean := by
  rw [← run_next]
  let entry (t : Is12Server) : β := book (t.monitorOf nOid)
  have hstart : entry s = clean := start
  refine run_sinceLast hstart (fun ops op => ?_) ops
  dsimp only [entry]
  rw [run_next]
  split_ifs with hresets
  · rw [reset_next (hw.run ops) hoid hresets, hreset]
  · exact hwrite ops op hresets

theorem kind_run (hw : Wired s) (hoid : nOid = 10 ∨ nOid = 11) (ops : List Is12Operation) :
    ((s.runOperations ops).1.monitorOf nOid).bIsReceiver = (s.monitorOf nOid).bIsReceiver := by
  induction ops using List.reverseRecOn with
  | nil => rfl
  | append_singleton ops op ih =>
    rw [runOperations_snoc, andThen_fst, ← ih]
    exact kind_next (hw.run ops) hoid op

theorem foldl_addAll (f : Is12Server × Is12Operation → List (String × BitVec 64)) (xs : List (Is12Server × Is12Operation))
    (mCounters : List (String × BitVec 64)) :
    xs.foldl (fun m x => addAll m (f x)) mCounters = addAll mCounters (xs.flatMap f) := by
  induction xs generalizing mCounters with
  | nil => rfl
  | cons x xs ih =>
    rw [List.foldl_cons, ih, List.flatMap_cons, addAll, addAll, addAll, List.foldl_append]

theorem foldl_count {p : Is12Server × Is12Operation → Prop} [DecidablePred p] (xs : List (Is12Server × Is12Operation))
    (n : Nat) : xs.foldl (fun (k : BitVec 32) x => k + if p x then 1 else 0) (BitVec.ofNat 32 n) =
      BitVec.ofNat 32 (n + xs.countP p) := by
  induction xs generalizing n with
  | nil => rfl
  | cons x xs ih =>
    rw [List.foldl_cons, List.countP_cons]
    by_cases hx : p x
    · have hone : BitVec.ofNat 32 n + 1 = BitVec.ofNat 32 (n + 1) := (BitVec.ofNat_add n 1).symm
      rw [if_pos hx, hone, ih, if_pos (by simpa using hx)]
      congr 1
      omega
    · rw [if_neg hx, add_zero, ih, if_neg (by simpa using hx), add_zero]

/-- A monitor that starts with empty books. -/
structure BlankMonitor (m : McMonitor) : Prop where
  counters1 : m.mCounters1 = []
  counters2 : m.mCounters2 = []
  transitions : ∀ nDomain, (m.aDomains nDomain).nTransitions = 0

theorem counters1_run (hw : Wired s) (hoid : nOid = 10 ∨ nOid = 11) (hblank : BlankMonitor (s.monitorOf nOid))
    (ops : List Is12Operation) : ((s.runOperations ops).1.monitorOf nOid).mCounters1 =
      addAll [] ((sinceReset s nOid ops).flatMap fun x => counted1 nOid x.2) := by
  rw [← foldl_addAll]
  apply book_run hw hoid hblank.counters1
  · exact fun ops => rfl
  · exact fun ops op hno => (writes_next (hw.run ops) hoid hno).counters1

theorem not_receiver_counted2 (hoid : nOid = 11) (op : Is12Operation) : counted2 nOid op = [] := by
  subst hoid
  cases op <;> rfl

/-- A sender has no late packets, and the reset of its monitor leaves their counter. -/
theorem counters2_run (hw : Wired s) (hoid : nOid = 10 ∨ nOid = 11) (hblank : BlankMonitor (s.monitorOf nOid))
    (hkind : nOid = 10 → (s.monitorOf nOid).bIsReceiver = true) (ops : List Is12Operation) :
    ((s.runOperations ops).1.monitorOf nOid).mCounters2 =
      addAll [] ((sinceReset s nOid ops).flatMap fun x => counted2 nOid x.2) := by
  rcases hoid with rfl | rfl
  · rw [← foldl_addAll]
    apply book_run hw (Or.inl rfl) hblank.counters2
    · intro ops
      rw [resetMonitor, kind_run hw (Or.inl rfl), hkind rfl]
      rfl
    · exact fun ops op hno => (writes_next (hw.run ops) (Or.inl rfl) hno).counters2
  · have hnone : (sinceReset s 11 ops).flatMap (fun x => counted2 11 x.2) = [] :=
      List.flatMap_eq_nil_iff.mpr fun x _ => not_receiver_counted2 rfl x.2
    rw [hnone]
    clear hnone
    have hempty : addAll [] [] = [] := rfl
    rw [hempty]
    induction ops using List.reverseRecOn with
    | nil => exact hblank.counters2
    | append_singleton ops op ih =>
      have hnext : (s.runOperations (ops ++ [op])).1 = (s.runOperations ops).1.next op := by
        rw [runOperations_snoc, andThen_fst]
        rfl
      rw [hnext]
      by_cases hresets : Resets (s.runOperations ops).1 11 op
      · rw [reset_next (hw.run ops) (Or.inr rfl) hresets, resetMonitor]
        dsimp only
        rw [ih]
        exact ite_self _
      · rw [(writes_next (hw.run ops) (Or.inr rfl) hresets).counters2, ih, not_receiver_counted2 rfl]
        rfl

theorem transitions_run (hw : Wired s) (hoid : nOid = 10 ∨ nOid = 11) (hblank : BlankMonitor (s.monitorOf nOid))
    (ops : List Is12Operation) (nDomain : Domain) :
    (((s.runOperations ops).1.monitorOf nOid).aDomains nDomain).nTransitions =
      BitVec.ofNat 32 ((sinceReset s nOid ops).countP (Rises nOid nDomain)) := by
  let entry (m : McMonitor) : BitVec 32 := (m.aDomains nDomain).nTransitions
  have hstart : entry (s.monitorOf nOid) = BitVec.ofNat 32 0 := hblank.transitions nDomain
  have hbook : entry ((s.runOperations ops).1.monitorOf nOid) = (sinceReset s nOid ops).foldl
      (fun k x => k + if Rises nOid nDomain x then 1 else 0) (BitVec.ofNat 32 0) :=
    book_run hw hoid hstart (fun _ => rfl) (fun ops op hno => transitions_next (hw.run ops) hoid nDomain hno) ops
  rw [foldl_count, Nat.zero_add] at hbook
  exact hbook

theorem tallied_of_blank (hw : Wired s) (hoid : nOid = 10 ∨ nOid = 11) (hblank : BlankMonitor (s.monitorOf nOid))
    (hkind : nOid = 10 → (s.monitorOf nOid).bIsReceiver = true) (ops : List Is12Operation) : Tallied s nOid ops := by
  have hcounters1 := counters1_run hw hoid hblank ops
  have hcounters2 := counters2_run hw hoid hblank hkind ops
  refine ⟨?_, ?_, ?_, ?_, transitions_run hw hoid hblank ops, ?_⟩
  · intro sName
    rw [hcounters1, findKey_addAll]
  · intro sName
    rw [hcounters2, findKey_addAll]
  · rw [hcounters1]
    exact sorted_addAll _
  · rw [hcounters2]
    exact sorted_addAll _
  · intro nHandle
    have hfind := findMonitor_known (hw.run ops) hoid
    simp [Is12Server.invoke, hfind, invokeMethod]

end Runs

end PiAudioNode.Nmos
