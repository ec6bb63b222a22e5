import PiAudioNode.Rtp.Sender
import PiAudioNode.Lib.Run

/-! Starting and stopping the sender from several threads. `Stop` joins the send
thread first and takes the lock later, `Configure` takes it once more to start. -/
namespace PiAudioNode.Rtp
open Lib Audio RtpSender

/-- What a `Configure` that gets past its checks starts with. -/
structure SenderStart where
  vLegs : List SenderLeg
  nPort : BitVec 16
  nPayloadType : Int
  nPacketTimeUs : Int
  source : Source
  legs : vLegs ≠ []

/-- Every leg gets its socket where some sockets are open already. -/
def SenderStart.OpensAll (sys : SenderSystem) (x : SenderStart) (n : Nat) : Prop :=
  ∀ k < x.vLegs.length, sys.legSocket (n + k) = .opened

instance (sys : SenderSystem) (x : SenderStart) (n : Nat) : Decidable (x.OpensAll sys n) :=
  inferInstanceAs (Decidable (∀ k < x.vLegs.length, sys.legSocket (n + k) = .opened))

inductive SenderCall where
  | stop
  | configure (vLegs : List SenderLeg) (nPort : BitVec 16) (nPayloadType nPacketTimeUs : Int)
      (pSource : Option Source)

/-- What is left to do once the call's `Stop` has returned. -/
def SenderCall.start? : SenderCall → Option SenderStart
  | .stop => none
  | .configure vLegs nPort nPayloadType nPacketTimeUs pSource =>
    if legs : vLegs ≠ [] then
      pSource.map fun source => { vLegs, nPort, nPayloadType, nPacketTimeUs, source, legs }
    else none

/-- The locked part of `Stop`. -/
def closeSockets (s : RtpSender) : RtpSender := { s with vSockets := [] }

/-- The settings of the call, before any leg of it has a socket. -/
def applySettings (x : SenderStart) (s : RtpSender) : RtpSender :=
  { s with
    vLegs := x.vLegs, nPort := x.nPort, nPayloadType := x.nPayloadType
    nPacketTimeUs := max 125 x.nPacketTimeUs
    pSource := some x.source
    sSourceName := x.source.describe
    vSourceIps := [] }

/-- The locked part of `Configure`, which adds to the sockets it finds. -/
def startSender (sys : SenderSystem) (x : SenderStart) (s : RtpSender) : Bool × RtpSender :=
  let y := openLegs sys x.vLegs (applySettings x s)
  if y.1 then (true, { y.2 with bRun := true, nSsrc := sys.nSsrc }) else y

/-- Taken one after the other the parts are the call. -/
theorem configure_parts (sys : SenderSystem) (x : SenderStart) (s : RtpSender) :
    RtpSender.configure sys x.vLegs x.nPort x.nPayloadType x.nPacketTimeUs (some x.source) s =
      startSender sys x (closeSockets { s with bRun := false }) := by
  obtain ⟨vLegs, nPort, nPayloadType, nPacketTimeUs, source, legs⟩ := x
  cases vLegs with
  | nil => exact absurd rfl legs
  | cons leg rest => rfl

/-- Where a call is, by the part it takes next. -/
inductive CallPc where
  | join (call : SenderCall)
  | close (call : SenderCall)
  | start (x : SenderStart)

abbrev CallId := Nat

structure SenderThreads where
  sender : RtpSender := {}
  bJoinable : Bool := false
  nLoops : Nat := 0
  bTerminated : Bool := false
  calls : CallId → Option CallPc := fun _ => none
  /-- Where the last `Configure` that returned true sends to, until the next call is made. -/
  returned : Option (List SocketAddr) := none

/-- A call is made by some thread, or takes its next part. -/
inductive SenderEvent where
  | call (id : CallId) (call : SenderCall)
  | advance (id : CallId) (sys : SenderSystem)

namespace SenderThreads

def setCall (id : CallId) (pc : Option CallPc) (s : SenderThreads) : SenderThreads :=
  { s with calls := Function.update s.calls id pc }

/-- The loop is told to end and waited for. -/
def join (s : SenderThreads) : SenderThreads :=
  { s with
    sender.bRun := false
    bJoinable := false
    nLoops := if s.bJoinable then s.nLoops - 1 else s.nLoops }

def close (s : SenderThreads) : SenderThreads := { s with sender := closeSockets s.sender }

/-- A thread assigned over one that can still be joined ends the process. -/
def start (sys : SenderSystem) (x : SenderStart) (s : SenderThreads) : SenderThreads :=
  let y := startSender sys x s.sender
  if y.1 then
    { s with
      sender := y.2
      nLoops := s.nLoops + 1
      bTerminated := s.bTerminated || s.bJoinable
      bJoinable := true
      returned := some (x.vLegs.map (destination x.nPort)) }
  else { s with sender := y.2 }

def step (s : SenderThreads) : SenderEvent → SenderThreads
  | .call id call =>
    match s.calls id with
    | none => { s with returned := none }.setCall id (some (.join call))
    | some _ => s
  | .advance id sys =>
    match s.calls id with
    | some (.join call) => s.join.setCall id (some (.close call))
    | some (.close call) => s.close.setCall id (call.start?.map .start)
    | some (.start x) => (s.start sys x).setCall id none
    | none => s

/-- No thread is assigned over, one loop runs at most, and the sockets are those of
the last `Configure` that returned true if no call came after it. -/
structure Sound (s : SenderThreads) : Prop where
  alive : ¬ s.bTerminated
  loops : s.nLoops ≤ 1
  sockets : ∀ vSockets, s.returned = some vSockets → s.sender.vSockets = vSockets

/-- A call made before a `Configure` returned true does not close or open sockets
after it; a `Configure` that starts the loop finds it joined and its sockets closed. -/
def Apart (s : SenderThreads) : SenderEvent → Prop
  | .call _ _ => True
  | .advance id sys =>
    match s.calls id with
    | some (.close _) => s.returned = none
    | some (.start x) =>
      if x.OpensAll sys s.sender.vSockets.length then ¬ s.bJoinable ∧ s.sender.vSockets = []
      else s.returned = none ∨ sys.legSocket s.sender.vSockets.length ≠ .opened
    | _ => True

end SenderThreads

theorem openLegs_fst_iff (sys : SenderSystem) : ∀ (vLegs : List SenderLeg) (s : RtpSender),
    (openLegs sys vLegs s).1 = true ↔ ∀ k < vLegs.length, sys.legSocket (s.vSockets.length + k) = .opened
  | [], s => by simp [openLegs]
  | leg :: rest, s => by
    rw [openLegs, List.length_cons, Nat.forall_lt_succ_left]
    split
    · rename_i hopened
      rw [openLegs_fst_iff sys rest]
      simp [setLegEnabled, hopened, Nat.add_assoc, Nat.add_comm 1]
    · rename_i hother
      simpa using fun hopened => absurd hopened hother

/-- Sockets are added, and one at least unless the first leg fails. -/
theorem openLegs_adds (sys : SenderSystem) : ∀ (vLegs : List SenderLeg) (s : RtpSender),
    s.vSockets.length ≤ (openLegs sys vLegs s).2.vSockets.length ∧
      (vLegs ≠ [] → sys.legSocket s.vSockets.length = .opened →
        s.vSockets.length < (openLegs sys vLegs s).2.vSockets.length)
  | [], s => ⟨le_rfl, fun h => absurd rfl h⟩
  | leg :: rest, s => by
    rw [openLegs]
    split
    · have hrest := (openLegs_adds sys rest (setLegEnabled s.vSockets.length leg.bEnabled
        { s with
          vSockets := s.vSockets ++ [destination s.nPort leg]
          vSourceIps := s.vSourceIps ++ [sys.interfaceIp leg.sInterface] })).1
      simp only [setLegEnabled, List.length_append, List.length_singleton] at hrest
      exact ⟨Nat.le_of_succ_le hrest, fun _ _ => hrest⟩
    · rename_i hother
      exact ⟨le_rfl, fun _ hopened => absurd hopened hother⟩

theorem openLegs_none (sys : SenderSystem) {vLegs : List SenderLeg} (hlegs : vLegs ≠ []) (s : RtpSender)
    (h : sys.legSocket s.vSockets.length ≠ .opened) : (openLegs sys vLegs s).2.vSockets = s.vSockets := by
  cases vLegs with
  | nil => exact absurd rfl hlegs
  | cons leg rest =>
    rw [openLegs]
    split
    · exact absurd ‹_› h
    · rfl

section Start
variable (sys : SenderSystem) (x : SenderStart) (s : RtpSender)

theorem openLegs_start : (openLegs sys x.vLegs (applySettings x s)).1 = true ↔ x.OpensAll sys s.vSockets.length :=
  openLegs_fst_iff ..

theorem startSender_fst_iff : (startSender sys x s).1 = true ↔ x.OpensAll sys s.vSockets.length := by
  rw [← openLegs_start]
  simp only [startSender]
  split
  · simp [*]
  · rfl

variable {sys x s}

theorem startSender_vSockets (h : x.OpensAll sys s.vSockets.length) :
    (startSender sys x s).2.vSockets = s.vSockets ++ x.vLegs.map (destination x.nPort) := by
  have hopen := (openLegs_start sys x s).mpr h
  simp only [startSender, if_pos hopen]
  exact openLegs_vSockets sys _ _ hopen

theorem startSender_fails (h : ¬ x.OpensAll sys s.vSockets.length) :
    (startSender sys x s).2.vSockets = s.vSockets ↔ sys.legSocket s.vSockets.length ≠ .opened := by
  simp only [startSender, if_neg (mt (openLegs_start sys x s).mp h)]
  constructor
  · intro hsame hopened
    have hmore := (openLegs_adds sys x.vLegs (applySettings x s)).2 x.legs hopened
    rw [hsame] at hmore
    exact absurd hmore (lt_irrefl _)
  · exact openLegs_none sys x.legs (applySettings x s)

end Start

namespace SenderThreads

@[simp] theorem setCall_fields (id : CallId) (pc : Option CallPc) (s : SenderThreads) :
    (s.setCall id pc).sender = s.sender ∧ (s.setCall id pc).bJoinable = s.bJoinable ∧
      (s.setCall id pc).nLoops = s.nLoops ∧ (s.setCall id pc).bTerminated = s.bTerminated ∧
      (s.setCall id pc).returned = s.returned := ⟨rfl, rfl, rfl, rfl, rfl⟩

/-- The loops that run are the one that can be joined; no call returned true without a leg. -/
structure Counted (s : SenderThreads) : Prop where
  loops : ¬ s.bTerminated → s.nLoops = if s.bJoinable then 1 else 0
  returned : ∀ vSockets, s.returned = some vSockets → vSockets ≠ []

theorem counted_step {s : SenderThreads} (h : Counted s) (e : SenderEvent) : Counted (s.step e) := by
  cases e with
  | call id call =>
    simp only [step]
    split
    · exact ⟨h.loops, by simp [setCall]⟩
    · exact h
  | advance id sys =>
    simp only [step]
    split
    · refine ⟨fun hterm => ?_, h.returned⟩
      have hloops := h.loops hterm
      cases hjoin : s.bJoinable <;> simp [setCall, join, hjoin, hloops]
    · exact ⟨h.loops, h.returned⟩
    · rename_i x _
      simp only [start]
      split
      · refine ⟨fun hterm => ?_, fun vSockets hreturned => ?_⟩
        · simp only [setCall, Bool.or_eq_true, not_or, Bool.not_eq_true] at hterm
          simp [setCall, h.loops (by simp [hterm.1]), hterm.2]
        · obtain rfl := Option.some.inj hreturned
          simpa using x.legs
      · exact ⟨h.loops, h.returned⟩
    · exact h

theorem sound_start {s : SenderThreads} {sys : SenderSystem} {x : SenderStart} (hcounted : Counted s) (h : Sound s)
    (id : CallId) (hopens : x.OpensAll sys s.sender.vSockets.length) :
    Sound ((s.start sys x).setCall id none) ↔ ¬ s.bJoinable ∧ s.sender.vSockets = [] := by
  have hstart : s.start sys x = { s with
      sender := (startSender sys x s.sender).2
      nLoops := s.nLoops + 1
      bTerminated := s.bTerminated || s.bJoinable
      bJoinable := true
      returned := some (x.vLegs.map (destination x.nPort)) } := by
    simp only [start, if_pos ((startSender_fst_iff sys x s.sender).mpr hopens)]
  have hsockets := startSender_vSockets hopens
  rw [hstart]
  constructor
  · intro hsound
    have hjoined : ¬ s.bJoinable := fun hjoin => hsound.alive (by simp [setCall, hjoin])
    refine ⟨hjoined, ?_⟩
    have hnew := hsound.sockets _ rfl
    simp only [setCall, hsockets] at hnew
    exact List.append_left_eq_self.mp hnew
  · rintro ⟨hjoined, hnone⟩
    refine ⟨?_, ?_, fun vSockets hreturned => ?_⟩
    · simpa [setCall, hjoined] using h.alive
    · simp [setCall, hcounted.loops h.alive, hjoined]
    · obtain rfl := Option.some.inj hreturned
      simp [setCall, hsockets, hnone]

theorem sound_start_failed {s : SenderThreads} {sys : SenderSystem} {x : SenderStart} (h : Sound s) (id : CallId)
    (hfails : ¬ x.OpensAll sys s.sender.vSockets.length) :
    Sound ((s.start sys x).setCall id none) ↔
      s.returned = none ∨ sys.legSocket s.sender.vSockets.length ≠ .opened := by
  have hstart : s.start sys x = { s with sender := (startSender sys x s.sender).2 } := by
    simp only [start, if_neg (mt (startSender_fst_iff sys x s.sender).mp hfails)]
  rw [hstart, ← startSender_fails hfails]
  constructor
  · intro hsound
    cases hreturned : s.returned with
    | none => exact Or.inl rfl
    | some vSockets => exact Or.inr ((hsound.sockets vSockets hreturned).trans (h.sockets vSockets hreturned).symm)
  · intro hsame
    refine ⟨h.alive, h.loops, fun vSockets hreturned => ?_⟩
    have hold : s.returned = some vSockets := hreturned
    rcases hsame with hnone | hsame
    · rw [hnone] at hold
      cases hold
    · exact hsame.trans (h.sockets vSockets hold)

/-- A step keeps things sound exactly when it keeps apart from the other calls. -/
theorem sound_step_iff {s : SenderThreads} (hcounted : Counted s) (h : Sound s) (e : SenderEvent) :
    Sound (s.step e) ↔ s.Apart e := by
  have hloops := hcounted.loops h.alive
  cases e with
  | call id call =>
    refine iff_of_true ?_ trivial
    simp only [step]
    split
    · exact ⟨h.alive, h.loops, by simp [setCall]⟩
    · exact h
  | advance id sys =>
    simp only [step, Apart]
    cases hpc : s.calls id with
    | none => exact iff_of_true h trivial
    | some pc =>
      cases pc with
      | join call =>
        refine iff_of_true ⟨h.alive, ?_, h.sockets⟩ trivial
        simp only [setCall, join, hloops]
        split <;> simp
      | close call =>
        constructor
        · intro hsound
          rw [Option.eq_none_iff_forall_not_mem]
          intro vSockets hreturned
          exact hcounted.returned vSockets hreturned (hsound.sockets vSockets hreturned).symm
        · intro hnone
          exact ⟨h.alive, h.loops, fun _ hreturned => absurd hreturned (by simp [setCall, close, hnone])⟩
      | start x =>
        by_cases hopens : x.OpensAll sys s.sender.vSockets.length
        · simpa only [if_pos hopens] using sound_start hcounted h id hopens
        · simpa only [if_neg hopens] using sound_start_failed h id hopens

/-- The sender after a run of the calls' parts, in any interleaving. -/
def restarted (es : List SenderEvent) : SenderThreads := run step {} es

theorem counted_restarted (es : List SenderEvent) : Counted (restarted es) := by
  rw [restarted]
  exact invariant (I := Counted) ⟨fun _ => rfl, by simp⟩ (fun _ e h => counted_step h e) es

/-- The state a step leaves is sound. -/
def LeavesSound (pre : List SenderEvent) (e : SenderEvent) : Prop := Sound (restarted (pre ++ [e]))

/-- A call is made only when no other is under way. -/
def Serial (pre : List SenderEvent) (e : SenderEvent) : Prop :=
  ∀ id call, e = .call id call → ∀ other, (restarted pre).calls other = none

theorem sound_of_leavesSound {es : List SenderEvent} (h : Admits LeavesSound es) : Sound (restarted es) := by
  rcases List.eq_nil_or_concat es with rfl | ⟨pre, e, rfl⟩
  · exact ⟨by simp [restarted], by simp [restarted], by simp [restarted]⟩
  · rw [List.concat_eq_append] at h ⊢
    exact h.last

/-- Every state of a run is sound exactly when the calls keep apart at every step. -/
theorem restart_sound_iff (es : List SenderEvent) :
    Admits LeavesSound es ↔ Admits (fun pre e => (restarted pre).Apart e) es := by
  refine admits_congr (fun pre e hpre => ?_) es
  rw [LeavesSound, restarted, run_snoc]
  exact sound_step_iff (counted_restarted pre) (sound_of_leavesSound hpre) e

/-- One call at a time: the next part finds what the part before it left. -/
structure Alone (s : SenderThreads) : Prop where
  one : ∀ id other pc pc', s.calls id = some pc → s.calls other = some pc' → other = id
  close : ∀ id call, s.calls id = some (.close call) → ¬ s.bJoinable ∧ s.returned = none
  start : ∀ id x, s.calls id = some (.start x) → ¬ s.bJoinable ∧ s.returned = none ∧ s.sender.vSockets = []
  join : ∀ id call, s.calls id = some (.join call) → s.returned = none

theorem Alone.apart {s : SenderThreads} (h : Alone s) (e : SenderEvent) : s.Apart e := by
  cases e with
  | call id call => trivial
  | advance id sys =>
    simp only [Apart]
    split
    · exact (h.close id _ ‹_›).2
    · obtain ⟨hjoined, hreturned, hsockets⟩ := h.start id _ ‹_›
      split
      · exact ⟨hjoined, hsockets⟩
      · exact Or.inl hreturned
    · trivial

/-- The one call under way takes its next part, or ends. -/
theorem Alone.setCall {s t : SenderThreads} (h : Alone s) {id : CallId} {pc : CallPc} (hpc : s.calls id = some pc)
    (hcalls : t.calls = s.calls) (pc' : Option CallPc)
    (hclose : ∀ call, pc' = some (.close call) → ¬ t.bJoinable ∧ t.returned = none)
    (hstart : ∀ x, pc' = some (.start x) → ¬ t.bJoinable ∧ t.returned = none ∧ t.sender.vSockets = [])
    (hjoin : ∀ call, pc' = some (.join call) → t.returned = none) : Alone (t.setCall id pc') := by
  have hother {other : CallId} {q : CallPc} (hq : (t.setCall id pc').calls other = some q) :
      other = id ∧ pc' = some q := by
    by_cases hid : other = id
    · exact ⟨hid, by simpa [SenderThreads.setCall, hid] using hq⟩
    · simp only [SenderThreads.setCall, Function.update_of_ne hid, hcalls] at hq
      exact absurd (h.one id other pc q hpc hq) hid
  refine ⟨fun i j p q hi hj => (hother hj).1.trans (hother hi).1.symm, fun i call hi => ?_, fun i x hi => ?_,
    fun i call hi => ?_⟩
  · exact hclose call (hother hi).2
  · exact hstart x (hother hi).2
  · exact hjoin call (hother hi).2

theorem alone_step {s : SenderThreads} (h : Alone s) (e : SenderEvent)
    (hserial : ∀ id call, e = .call id call → ∀ other, s.calls other = none) : Alone (s.step e) := by
  cases e with
  | call id call =>
    have hidle := hserial id call rfl
    have hother {other : CallId} {q : CallPc} (hq : Function.update s.calls id (some (.join call)) other = some q) :
        other = id ∧ q = .join call := by
      by_cases hid : other = id
      · exact ⟨hid, by simpa [hid] using hq.symm⟩
      · simp [Function.update_of_ne hid, hidle] at hq
    simp only [step, hidle id]
    refine ⟨fun i j p q hi hj => (hother hj).1.trans (hother hi).1.symm, fun i call hi => ?_, fun i x hi => ?_,
      fun _ _ _ => rfl⟩
    · cases (hother hi).2
    · cases (hother hi).2
  | advance id sys =>
    simp only [step]
    cases hpc : s.calls id with
    | none => exact h
    | some pc =>
      cases pc with
      | join call =>
        have hreturned := h.join id call hpc
        exact h.setCall hpc (t := s.join) rfl _ (by simp [join, hreturned]) (by simp) (by simp)
      | close call =>
        obtain ⟨hjoined, hreturned⟩ := h.close id call hpc
        exact h.setCall hpc (t := s.close) rfl _ (by simp) (by simp [close, closeSockets, hjoined, hreturned])
          (by simp)
      | start x =>
        have hcalls : (s.start sys x).calls = s.calls := by
          simp only [start]
          split <;> rfl
        exact h.setCall hpc hcalls _ (by simp) (by simp) (by simp)

/-- Calls that do not overlap keep apart. -/
theorem apart_of_serial {es : List SenderEvent} (h : Admits Serial es) :
    Admits (fun pre e => (restarted pre).Apart e) es := by
  have halone (pre : List SenderEvent) (hpre : Admits Serial pre) : Alone (restarted pre) := by
    rw [restarted]
    refine history_invariant (I := fun _ s => Alone s) ⟨?_, ?_, ?_, ?_⟩
      (fun _ e hok hs => alone_step hs e hok) pre hpre
    all_goals
      intros
      contradiction
  intro pre e post he
  exact (halone pre (he ▸ h).of_append).apart e

/-- The sender configured as a web request and a controller would at the same time. -/
def oneLeg : SenderCall := .configure [⟨"eth0", "239.69.145.10", true⟩] 5004 96 1000 (some (.tone 440 (-18)))

/-- Both calls have stopped the sender before either of them starts it. -/
def overlapping : List SenderEvent :=
  [.call 0 oneLeg, .call 1 oneLeg, .advance 0 {}, .advance 0 {}, .advance 1 {}, .advance 1 {}, .advance 0 {},
    .advance 1 {}]

theorem overlapping_terminates : ¬ Admits LeavesSound overlapping := by
  intro h
  have hlast : LeavesSound [.call 0 oneLeg, .call 1 oneLeg, .advance 0 {}, .advance 0 {}, .advance 1 {},
    .advance 1 {}, .advance 0 {}] (.advance 1 {}) := Admits.last h
  have hterminated : (restarted overlapping).bTerminated = true := by rfl
  exact hlast.alive hterminated

end SenderThreads

end PiAudioNode.Rtp
