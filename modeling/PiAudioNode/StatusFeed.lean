import PiAudioNode.Lib.Access
import PiAudioNode.Lib.Meter
import PiAudioNode.Rtp.Control
import PiAudioNode.Nmos.Is12

/-! The status feed of the main program: once a second it reads the receiver and tells
the control protocol server what changed since the last time. -/
namespace PiAudioNode
open Lib Rtp

/-- What the feed calls on the server; a lost packet count also says which leg it is of. -/
inductive FeedCall where
  | updateReceiverDomain (nDomain : Nmos.Domain) (nStatus : Int) (sMessage : String)
  | addReceiverLost (nLeg : Leg) (sLeg : String) (nPackets : Nat)
  | addReceiverLate (nPackets : Nat)
  deriving DecidableEq

def FeedCall.operation (now : Nmos.Instant) : FeedCall → Nmos.Is12Operation
  | .updateReceiverDomain nDomain nStatus sMessage => .updateReceiverDomain nDomain nStatus sMessage now
  | .addReceiverLost _ sLeg nPackets => .addReceiverLost sLeg (BitVec.ofNat 64 nPackets)
  | .addReceiverLate nPackets => .addReceiverLate (BitVec.ofNat 64 nPackets)

/-- The receiver with its engine, and what the feed has seen of it. -/
structure StatusFeed where
  control : RxEngine := { aLegs := .replicate 2 {} }
  receiver : RtpReceiver := {}
  nLastLost : Leg → Nat := fun _ => 0
  nLastLate : Nat := 0
  nLastPlayed : Nat := 0

def legNumber : Leg → Fin 2
  | .primary => 0
  | .secondary => 1

/-- The legs of the receiver's status. -/
def statusLegs (cfg : RxConfig) : List Leg := if cfg.bTwoLegs then [.primary, .secondary] else [.primary]

/-- The engine after `Stop`. -/
def stopEngine (r : RtpReceiver) : RtpReceiver :=
  { r with
    aLegs := fun nLeg => { r.aLegs nLeg with bActive := false, bHaveSeq := false }
    bReceiving := false
    bHaveFirst := false }

/-- A `Configure` that fails at a socket has set the legs up to it to zero. -/
def failedConfigure (cfg : RxConfig) (bOpens : Nat → Bool) (r : RtpReceiver) : RtpReceiver :=
  { r with
    aLegs := fun nLeg =>
      if nLeg = .primary ∨ cfg.bTwoLegs ∧ bOpens 0 then { r.aLegs nLeg with nReceived := 0, nLost := 0 }
      else r.aLegs nLeg }

namespace StatusFeed

def stop (f : StatusFeed) : StatusFeed := { f with control := f.control.stop, receiver := stopEngine f.receiver }

def configure (bOpens : Nat → Bool) (session : SdpSession) (vInterfaces : List String) (nPlayoutDelayMs : Int)
    (f : StatusFeed) : StatusFeed :=
  let x := f.control.configure bOpens session vInterfaces nPlayoutDelayMs
  let r := stopEngine f.receiver
  if session.vLegs = [] ∨ vInterfaces = [] then { f with control := x.2, receiver := r }
  else if x.1 then { f with control := x.2, receiver := Rtp.configure x.2.config r }
  else { f with control := x.2, receiver := failedConfigure x.2.config bOpens r }

/-- A counter below its last value has restarted; what it grew by is passed on. -/
def growth (nLast n : Nat) (call : Nat → FeedCall) : Nat × List FeedCall :=
  let nLast := if n < nLast then 0 else nLast
  if nLast < n then (n, [call (n - nLast)]) else (nLast, [])

def pollPlayed (f : StatusFeed) : StatusFeed × List FeedCall :=
  let nLastPlayed := if f.receiver.nPlayed < f.nLastPlayed then 0 else f.nLastPlayed
  let bDecoded : Bool := nLastPlayed < f.receiver.nPlayed
  ({ f with nLastPlayed := f.receiver.nPlayed },
    [.updateReceiverDomain .path 1 "",
      .updateReceiverDomain .stream (if bDecoded then 1 else 2) (if bDecoded then "" else "no audio decoded")])

def pollLeg (nLeg : Leg) (f : StatusFeed) : StatusFeed × List FeedCall :=
  let sLeg := (f.control.aLegs.get (legNumber nLeg)).sInterface
  let x := growth (f.nLastLost nLeg) (f.receiver.aLegs nLeg).nLost (.addReceiverLost nLeg sLeg)
  ({ f with nLastLost := Function.update f.nLastLost nLeg x.1 }, x.2)

def pollLegs (nLegs : List Leg) (f : StatusFeed) : StatusFeed × List FeedCall :=
  runReport (fun f nLeg => pollLeg nLeg f) f nLegs

/-- The link is as good as its legs; a second leg that is not used counts as active. -/
def pollLink (f : StatusFeed) : StatusFeed × List FeedCall :=
  let bPrimary := (f.receiver.aLegs .primary).bActive
  let bSecondary := ¬ f.control.config.bTwoLegs ∨ (f.receiver.aLegs .secondary).bActive
  let nLink : Int := if bPrimary ∧ bSecondary then 1 else if bPrimary ∨ bSecondary then 2 else 3
  (f, [.updateReceiverDomain .link nLink
    (if nLink = 1 then "" else if nLink = 2 then "one leg down" else "all legs down")])

def pollLate (f : StatusFeed) : StatusFeed × List FeedCall :=
  let x := growth f.nLastLate f.receiver.nConcealed .addReceiverLate
  ({ f with nLastLate := x.1 }, x.2)

/-- One turn of the loop, as far as it is about the receiver's own status. -/
def poll (f : StatusFeed) : StatusFeed × List FeedCall :=
  if ¬ f.control.bRun then (f, [.updateReceiverDomain .path 0 "", .updateReceiverDomain .stream 0 ""])
  else if ¬ f.receiver.bReceiving then (f, [.updateReceiverDomain .path 3 "no rtp packets arriving"])
  else
    andThen (pollPlayed f) fun f => andThen (pollLegs (statusLegs f.control.config) f) fun f =>
      andThen (pollLink f) pollLate

end StatusFeed

inductive FeedEvent where
  | configure (bOpens : Nat → Bool) (session : SdpSession) (vInterfaces : List String) (nPlayoutDelayMs : Int)
  | stop
  | engine (e : Event)
  | poll

/-- The threads of the engine only live while it runs. -/
def StatusFeed.step (f : StatusFeed) : FeedEvent → StatusFeed × List FeedCall
  | .configure bOpens session vInterfaces nPlayoutDelayMs =>
    (f.configure bOpens session vInterfaces nPlayoutDelayMs, [])
  | .stop => (f.stop, [])
  | .engine e => (if f.control.bRun then { f with receiver := (Rtp.step f.control.config f.receiver e).1 } else f, [])
  | .poll => f.poll

/-- The feed and what it called, from the start of the program. -/
def runFeed (es : List FeedEvent) : StatusFeed × List FeedCall := runReport StatusFeed.step {} es

/-- The counters the feed passes on. -/
inductive LossCounter where
  | lost (nLeg : Leg)
  | late
  deriving DecidableEq

namespace LossCounter

def value : LossCounter → RtpReceiver → Nat
  | .lost nLeg, r => (r.aLegs nLeg).nLost
  | .late, r => r.nConcealed

def last : LossCounter → StatusFeed → Nat
  | .lost nLeg, f => f.nLastLost nLeg
  | .late, f => f.nLastLate

/-- The counter is in the status of a receiver so configured. -/
def polled : LossCounter → RxConfig → Bool
  | .lost nLeg, cfg => nLeg ∈ statusLegs cfg
  | .late, _ => true

end LossCounter

def FeedCall.added (c : LossCounter) : FeedCall → Nat
  | .addReceiverLost nLeg _ nPackets => if c = .lost nLeg then nPackets else 0
  | .addReceiverLate nPackets => if c = .late then nPackets else 0
  | .updateReceiverDomain .. => 0

/-- The total added for a counter. -/
def addedTotal (c : LossCounter) (calls : List FeedCall) : Nat := (calls.map (FeedCall.added c)).sum

/-- What a counter shows: every configuration begins a session, and every poll of a
receiver that receives reads what is in its status. -/
def StatusFeed.mark (c : LossCounter) (f : StatusFeed) : FeedEvent → List CounterMark
  | .configure .. => [.restart]
  | .poll =>
    if f.control.bRun ∧ f.receiver.bReceiving ∧ c.polled f.control.config then [.reading (c.value f.receiver)] else []
  | .stop | .engine _ => []

def marks (c : LossCounter) (es : List FeedEvent) : List CounterMark :=
  (runReport (fun (f : StatusFeed) e => ((f.step e).1, f.mark c e)) {} es).2

section Configure
variable {c : LossCounter} {bOpens : Nat → Bool} {session : SdpSession} {vInterfaces : List String}
  {nPlayoutDelayMs : Int}

theorem openLegs_bRun (nLeg : Nat) (legs : List SdpLeg) (r : RxEngine) :
    (RxEngine.openLegs bOpens vInterfaces nLeg legs r).2.bRun = r.bRun := by
  induction legs generalizing nLeg r with
  | nil => rfl
  | cons leg legs ih =>
    simp only [RxEngine.openLegs]
    split
    · rw [ih]
    · rfl

/-- The engine runs only if every socket opened. -/
theorem bRun_configure {r : RxEngine} (h : (r.configure bOpens session vInterfaces nPlayoutDelayMs).2.bRun) :
    ¬ (session.vLegs = [] ∨ vInterfaces = []) ∧ (r.configure bOpens session vInterfaces nPlayoutDelayMs).1 := by
  simp only [RxEngine.configure] at h ⊢
  split at h
  · cases h
  · rename_i hlegs
    rw [if_neg hlegs]
    refine ⟨hlegs, ?_⟩
    split at h
    · rename_i hopened
      rw [if_pos hopened]
    · rw [openLegs_bRun] at h
      cases h

/-- A receiver that runs after a configuration counts from zero. -/
theorem value_configure {f : StatusFeed} (hrun : (f.configure bOpens session vInterfaces nPlayoutDelayMs).control.bRun)
    (hpolled : c.polled (f.configure bOpens session vInterfaces nPlayoutDelayMs).control.config) :
    c.value (f.configure bOpens session vInterfaces nPlayoutDelayMs).receiver = 0 := by
  have hcontrol : (f.configure bOpens session vInterfaces nPlayoutDelayMs).control =
      (f.control.configure bOpens session vInterfaces nPlayoutDelayMs).2 := by
    simp only [StatusFeed.configure]
    split
    · rfl
    · split <;> rfl
  rw [hcontrol] at hrun hpolled
  obtain ⟨hlegs, hopened⟩ := bRun_configure hrun
  simp only [StatusFeed.configure, if_neg hlegs, if_pos hopened]
  cases c with
  | late => rfl
  | lost nLeg =>
    have hcounted : nLeg = .primary ∨
        (f.control.configure bOpens session vInterfaces nPlayoutDelayMs).2.config.bTwoLegs := by
      have hmem := of_decide_eq_true hpolled
      unfold statusLegs at hmem
      split at hmem
      · exact Or.inr ‹_›
      · exact Or.inl (List.mem_singleton.mp hmem)
    simp only [LossCounter.value, Rtp.configure, if_pos hcounted]

end Configure

section Growth
variable {c : LossCounter}

@[simp] theorem addedTotal_nil : addedTotal c [] = 0 := rfl

@[simp] theorem addedTotal_cons (x : FeedCall) (calls : List FeedCall) :
    addedTotal c (x :: calls) = x.added c + addedTotal c calls := rfl

@[simp] theorem addedTotal_append (xs ys : List FeedCall) :
    addedTotal c (xs ++ ys) = addedTotal c xs + addedTotal c ys := by
  simp [addedTotal]

/-- After a poll the feed has seen the counter as it is, and booked what it grew by. -/
theorem growth_fst (nLast n : Nat) (call : Nat → FeedCall) : (StatusFeed.growth nLast n call).1 = n := by
  simp only [StatusFeed.growth]
  split <;> split <;> omega

theorem addedTotal_growth {call : Nat → FeedCall} (hzero : (call 0).added c = 0) (nLast n : Nat) :
    addedTotal c (StatusFeed.growth nLast n call).2 = (call (booked nLast n)).added c := by
  by_cases hless : n < nLast
  · simp only [StatusFeed.growth, booked, if_pos hless]
    by_cases hpos : 0 < n
    · simp [hpos]
    · obtain rfl : n = 0 := by omega
      simp [hzero]
  · simp only [StatusFeed.growth, booked, if_neg hless]
    by_cases hgrew : nLast < n
    · simp [hgrew]
    · have hsame : n - nLast = 0 := by omega
      simp [hgrew, hsame, hzero]

end Growth

namespace StatusFeed

@[simp] theorem pollLegs_append (nLegs : List Leg) (nLeg : Leg) (f : StatusFeed) :
    pollLegs (nLegs ++ [nLeg]) f = andThen (pollLegs nLegs f) (pollLeg nLeg) := runReport_snoc ..

/-- The legs polled are seen as they are, the others as they were. -/
theorem pollLegs_fst (nLegs : List Leg) (f : StatusFeed) :
    (pollLegs nLegs f).1 =
      { f with nLastLost := fun nLeg => if nLeg ∈ nLegs then (f.receiver.aLegs nLeg).nLost else f.nLastLost nLeg } := by
  induction nLegs using List.reverseRecOn with
  | nil => simp [pollLegs]
  | append_singleton nLegs nLeg ih =>
    rw [pollLegs_append, andThen_fst, ih]
    simp only [pollLeg, growth_fst]
    congr 1
    funext l
    by_cases hl : l = nLeg
    · subst hl
      simp
    · simp [hl]

/-- What is added for a leg is what it grew by, if it is polled. -/
theorem addedTotal_pollLegs_lost {nLegs : List Leg} (hnodup : nLegs.Nodup) (nLeg : Leg) (f : StatusFeed) :
    addedTotal (.lost nLeg) (pollLegs nLegs f).2 =
      if nLeg ∈ nLegs then booked (f.nLastLost nLeg) (f.receiver.aLegs nLeg).nLost else 0 := by
  induction nLegs using List.reverseRecOn with
  | nil => rfl
  | append_singleton nLegs l ih =>
    obtain ⟨hinit, -, hl⟩ := List.nodup_append.mp hnodup
    rw [pollLegs_append, andThen_snd, addedTotal_append, ih hinit, pollLegs_fst]
    simp only [pollLeg]
    rw [addedTotal_growth (by simp [FeedCall.added])]
    by_cases hsame : nLeg = l
    · subst hsame
      have hnew : nLeg ∉ nLegs := fun hmem => hl nLeg hmem nLeg (List.mem_singleton_self _) rfl
      simp [hnew, FeedCall.added]
    · simp [FeedCall.added, hsame]

theorem addedTotal_pollLegs_late (nLegs : List Leg) (f : StatusFeed) : addedTotal .late (pollLegs nLegs f).2 = 0 := by
  induction nLegs using List.reverseRecOn with
  | nil => rfl
  | append_singleton nLegs l ih =>
    rw [pollLegs_append, andThen_snd, addedTotal_append, ih]
    simp only [pollLeg]
    rw [addedTotal_growth (by simp [FeedCall.added])]
    simp [FeedCall.added]

theorem statusLegs_nodup (cfg : RxConfig) : (statusLegs cfg).Nodup := by
  unfold statusLegs
  split <;> decide

/-- A poll keeps the books of every counter the way a meter does. -/
theorem poll_books (c : LossCounter) (f : StatusFeed) (nTotal : Nat) :
    run Meter.step ⟨c.last f, nTotal⟩ (f.mark c .poll) =
      ⟨c.last f.poll.1, nTotal + addedTotal c f.poll.2⟩ := by
  by_cases hrun : f.control.bRun
  · by_cases hreceiving : f.receiver.bReceiving
    · simp only [mark, poll, hrun, hreceiving, not_true, if_false, true_and]
      cases c with
      | lost nLeg =>
        simp only [LossCounter.polled, LossCounter.value, LossCounter.last, andThen_fst, andThen_snd, pollLate, pollLink,
          pollLegs_fst, pollPlayed, addedTotal_append, addedTotal_cons, addedTotal_nil, FeedCall.added,
          addedTotal_pollLegs_lost (statusLegs_nodup _), decide_eq_true_eq]
        rw [addedTotal_growth (by simp [FeedCall.added])]
        by_cases hpolled : nLeg ∈ statusLegs f.control.config
        · simp [hpolled, FeedCall.added, run, Meter.step]
        · simp [hpolled, FeedCall.added, run]
      | late =>
        simp only [LossCounter.polled, LossCounter.value, LossCounter.last, andThen_fst, andThen_snd, pollLate, pollLink,
          pollLegs_fst, pollPlayed, addedTotal_append, addedTotal_cons, addedTotal_nil, FeedCall.added,
          addedTotal_pollLegs_late, growth_fst, if_true]
        rw [addedTotal_growth (by simp [FeedCall.added])]
        simp [FeedCall.added, run, Meter.step]
    · simp [mark, poll, hrun, hreceiving, FeedCall.added]
  · simp [mark, poll, hrun, FeedCall.added]

end StatusFeed

section Engine
variable {c : LossCounter} {cfg : RxConfig} {n : Nat}

/-- The counter has reached `n`, whatever was reported. -/
def Reached (c : LossCounter) (n : Nat) (_ : List Outcome) (r : RtpReceiver) : Prop := n ≤ c.value r

theorem reached_of_eq {f : RtpReceiver → RtpReceiver × List Outcome} (h : ∀ r, c.value (f r).1 = c.value r) :
    Keeps (Reached c n) f := by
  intro outs r hr
  exact hr.trans_eq (h r).symm

theorem reached_steer (nDrift : Int) : Keeps (Reached c n) (steer cfg nDrift) := by
  refine reached_of_eq fun r => ?_
  unfold steer
  split <;> cases c <;> rfl

theorem reached_conceal : Keeps (Reached c n) (conceal cfg) := by
  intro outs r hr
  cases c with
  | lost nLeg => exact hr
  | late => exact Nat.le_succ_of_le hr

theorem reached_merge (nLeg : Leg) (nSeq : BitVec 16) (nTs : BitVec 32) (vSamples : List Frame) :
    Keeps (Reached c n) (merge · nLeg nSeq nTs vSamples) := by
  refine reached_of_eq fun r => ?_
  unfold merge
  split <;> cases c <;> rfl

theorem nLost_le_countArrival (leg : LegState) (nSeq : BitVec 16) (now : Time) :
    leg.nLost ≤ (countArrival leg nSeq now).nLost := by
  simp only [countArrival]
  split <;> omega

theorem value_le_noteArrival (r : RtpReceiver) (nLeg : Leg) (nSeq : BitVec 16) (now : Time) :
    c.value r ≤ c.value (noteArrival r nLeg nSeq now) := by
  cases c with
  | late => exact le_rfl
  | lost l =>
    by_cases hl : l = nLeg
    · subst hl
      simp only [LossCounter.value, noteArrival, Function.update_self]
      exact nLost_le_countArrival ..
    · simp [LossCounter.value, noteArrival, hl]

theorem value_ageLegs (r : RtpReceiver) (now : Time) : c.value (ageLegs cfg r now) = c.value r := by
  cases c with
  | late => rfl
  | lost nLeg =>
    simp only [ageLegs, LossCounter.value]
    split <;> rfl

theorem engineKeeps_reached : EngineKeeps cfg (Reached c n) where
  phase _ _ _ _ hr := by cases c <;> exact hr
  play _ r _ hr := by cases c <;> exact hr
  conceal := reached_conceal
  steer := reached_steer
  anchor := reached_of_eq fun r => by cases c <;> rfl
  arrival _ r nLeg nSeq now hr := hr.trans (value_le_noteArrival r nLeg nSeq now)
  merge := reached_merge
  age _ r now hr := hr.trans_eq (value_ageLegs r now).symm
  monitor _ _ _ hr := by cases c <;> exact hr

/-- Nothing the engine does takes a counter back. -/
theorem value_le_step (r : RtpReceiver) (e : Event) : c.value r ≤ c.value (step cfg r e).1 :=
  engineKeeps_reached.step e [] r le_rfl

end Engine

section Totals
variable {c : LossCounter}

theorem runFeed_snoc (es : List FeedEvent) (e : FeedEvent) :
    runFeed (es ++ [e]) = andThen (runFeed es) (·.step e) := runReport_snoc ..

theorem marks_snoc (es : List FeedEvent) (e : FeedEvent) :
    marks c (es ++ [e]) = marks c es ++ (runFeed es).1.mark c e := by
  have hstate : (runReport (fun (f : StatusFeed) e => ((f.step e).1, f.mark c e)) {} es).1 = (runFeed es).1 := by
    induction es using List.reverseRecOn with
    | nil => rfl
    | append_singleton es e ih => rw [runReport_snoc, runFeed_snoc, andThen_fst, andThen_fst, ih]
  rw [marks, runReport_snoc, andThen_snd, hstate, marks]

/-- Between polls the feed sees nothing and books nothing. -/
theorem StatusFeed.step_quiet {e : FeedEvent} (he : e ≠ .poll) (f : StatusFeed) :
    c.last (f.step e).1 = c.last f ∧ (f.step e).2 = [] := by
  cases e with
  | configure bOpens session vInterfaces nPlayoutDelayMs =>
    refine ⟨?_, rfl⟩
    simp only [StatusFeed.step, StatusFeed.configure]
    split
    · cases c <;> rfl
    · split <;> cases c <;> rfl
  | stop => exact ⟨by cases c <;> rfl, rfl⟩
  | engine e =>
    refine ⟨?_, rfl⟩
    simp only [StatusFeed.step]
    split <;> cases c <;> rfl
  | poll => exact absurd rfl he

/-- The feed is a meter on what each counter shows. -/
theorem run_marks (es : List FeedEvent) :
    run Meter.step {} (marks c es) = ⟨c.last (runFeed es).1, addedTotal c (runFeed es).2⟩ := by
  induction es using List.reverseRecOn with
  | nil => cases c <;> rfl
  | append_singleton es e ih =>
    rw [marks_snoc, run_append, ih, runFeed_snoc, andThen_fst, andThen_snd, addedTotal_append]
    by_cases he : e = .poll
    · subst he
      exact StatusFeed.poll_books ..
    · obtain ⟨hlast, hcalls⟩ := StatusFeed.step_quiet (c := c) he (runFeed es).1
      rw [hlast, hcalls, addedTotal_nil, Nat.add_zero]
      cases e with
      | configure => rfl
      | stop => rfl
      | engine => rfl
      | poll => exact absurd rfl he

/-- What the open session showed so far, the counter has reached. -/
structure Shown (c : LossCounter) (ms : List CounterMark) (f : StatusFeed) : Prop where
  grows : Admits Grows ms
  latest : ∀ k ∈ ((sessions ms).headD []).head?, k ≤ c.value f.receiver

theorem Shown.mono {ms : List CounterMark} {f f' : StatusFeed} (h : Shown c ms f)
    (hle : c.value f.receiver ≤ c.value f'.receiver) : Shown c ms f' :=
  ⟨h.grows, fun k hk => (h.latest k hk).trans hle⟩

theorem StatusFeed.poll_receiver (f : StatusFeed) : f.poll.1.receiver = f.receiver := by
  unfold poll
  split
  · rfl
  · split
    · rfl
    · simp only [andThen_fst, pollLate, pollLink, pollLegs_fst, pollPlayed]

theorem shown (es : List FeedEvent) : Shown c (marks c es) (runFeed es).1 := by
  induction es using List.reverseRecOn with
  | nil => exact ⟨admits_nil, fun k hk => by cases hk⟩
  | append_singleton es e ih =>
    rw [marks_snoc, runFeed_snoc, andThen_fst]
    generalize (runFeed es).1 = f at ih ⊢
    cases e with
    | configure bOpens session vInterfaces nPlayoutDelayMs =>
      simp only [StatusFeed.mark]
      refine ⟨ih.grows.snoc trivial, fun k hk => ?_⟩
      rw [sessions_snoc] at hk
      cases hk
    | stop =>
      rw [StatusFeed.mark, List.append_nil]
      exact ih.mono (by cases c <;> exact le_rfl)
    | engine e =>
      rw [StatusFeed.mark, List.append_nil]
      apply ih.mono
      simp only [StatusFeed.step]
      split
      · exact value_le_step ..
      · exact le_rfl
    | poll =>
      have hreceiver : (f.step .poll).1.receiver = f.receiver := f.poll_receiver
      simp only [StatusFeed.mark]
      split
      · refine ⟨ih.grows.snoc ih.latest, fun k hk => ?_⟩
        rw [sessions_snoc] at hk
        obtain rfl := Option.some.inj hk
        rw [hreceiver]
      · rw [List.append_nil]
        exact ih.mono (congrArg c.value hreceiver).ge

/-- The total added for a counter is what its sessions showed at their last polls
exactly if every first poll of a session finds the counter below what the last poll
before it saw, or that poll saw nothing. -/
theorem addedTotal_eq_iff (c : LossCounter) (es : List FeedEvent) :
    addedTotal c (runFeed es).2 = lastReadings (sessions (marks c es)) ↔ Admits RestartShows (marks c es) := by
  rw [← Meter.nTotal_eq_iff (shown es).grows, run_marks]

/-- A packet of one leg that only counts. -/
def countedPacket (nSeq : BitVec 8) : FeedEvent :=
  .engine (.packet .primary [0x80, 0x60, 0, nSeq, 0, 0, 0, 0, 0, 0, 0, 0, 0] 0)

def configureOneLeg : FeedEvent := .configure (fun _ => true) { vLegs := [{}] } ["eth0"] 20

/-- Five packets are lost and polled; after a restart it is seven before the next poll. -/
def busyRestart : List FeedEvent :=
  [configureOneLeg, countedPacket 1, countedPacket 7, .poll, configureOneLeg, countedPacket 1, countedPacket 9, .poll]

theorem busyRestart_short : addedTotal (.lost .primary) (runFeed busyRestart).2 = 7 ∧
    lastReadings (sessions (marks (.lost .primary) busyRestart)) = 12 := by
  decide +kernel

end Totals

section Server
open Nmos

/-- A counter as the server answers it; one that was never added to stands for 0. -/
def counterOf (sName : String) (mCounters : List (String × BitVec 64)) : BitVec 64 := (findKey sName mCounters).getD 0

theorem counterOf_addTo (sName sKey : String) (n : BitVec 64) (mCounters : List (String × BitVec 64)) :
    counterOf sName (addTo sKey n mCounters) = counterOf sName mCounters + if sKey = sName then n else 0 := by
  by_cases h : sKey = sName
  · subst h
    simp [counterOf, addTo, findKey_setKey_self]
  · simp [counterOf, addTo, findKey_setKey_ne (Ne.symm h), h]

/-- A domain update leaves the counters alone. -/
theorem updateDomain_counters (nDomain : Nmos.Domain) (nStatus : Int) (sMessage : String) (now : Instant)
    (m : McMonitor) : (updateDomain nDomain nStatus sMessage now m).1.mCounters1 = m.mCounters1 ∧
      (updateDomain nDomain nStatus sMessage now m).1.mCounters2 = m.mCounters2 := by
  have status (m : McMonitor) : (enterStatus nDomain nStatus m).1.mCounters1 = m.mCounters1 ∧
      (enterStatus nDomain nStatus m).1.mCounters2 = m.mCounters2 := by
    unfold enterStatus countTransition setStatus
    split
    · simp only [andThen_fst]
      split <;> exact ⟨rfl, rfl⟩
    · exact ⟨rfl, rfl⟩
  have message (m : McMonitor) : (enterMessage nDomain sMessage m).1.mCounters1 = m.mCounters1 ∧
      (enterMessage nDomain sMessage m).1.mCounters2 = m.mCounters2 := by
    unfold enterMessage
    split <;> exact ⟨rfl, rfl⟩
  have worst (m : McMonitor) : (recomputeOverall m).1.mCounters1 = m.mCounters1 ∧
      (recomputeOverall m).1.mCounters2 = m.mCounters2 := by
    simp only [recomputeOverall, andThen_fst, setOverall, setOverallMessage]
    split <;> split <;> exact ⟨rfl, rfl⟩
  have enter (m : McMonitor) : (enterDomain nDomain nStatus sMessage m).1.mCounters1 = m.mCounters1 ∧
      (enterDomain nDomain nStatus sMessage m).1.mCounters2 = m.mCounters2 := by
    simp only [enterDomain, andThen_fst]
    rw [(worst _).1, (worst _).2, (message _).1, (message _).2, (status _).1, (status _).2]
    exact ⟨rfl, rfl⟩
  have pending (m : McMonitor) : (markPending nDomain nStatus now m).mCounters1 = m.mCounters1 ∧
      (markPending nDomain nStatus now m).mCounters2 = m.mCounters2 := by
    unfold markPending
    simp only
    split <;> exact ⟨rfl, rfl⟩
  unfold updateDomain
  split
  · simp only
    split
    · exact pending m
    · rw [(enter _).1, (enter _).2]
      exact pending m
  · exact enter m

/-- What a call of the feed adds under a name of the server. -/
def FeedCall.addedAs (sName : String) : FeedCall → Nat
  | .addReceiverLost _ sLeg nPackets => if sLeg = sName then nPackets else 0
  | _ => 0

theorem counters_step (s : Is12Server) (now : Instant) (call : FeedCall) (sName : String) :
    counterOf sName (s.step (call.operation now)).1.rxMonitor.mCounters1 =
        counterOf sName s.rxMonitor.mCounters1 + BitVec.ofNat 64 (call.addedAs sName) ∧
      counterOf "late" (s.step (call.operation now)).1.rxMonitor.mCounters2 =
        counterOf "late" s.rxMonitor.mCounters2 + BitVec.ofNat 64 (call.added .late) := by
  cases call with
  | updateReceiverDomain nDomain nStatus sMessage =>
    obtain ⟨hlost, hlate⟩ := updateDomain_counters nDomain nStatus sMessage now s.rxMonitor
    simp only [FeedCall.operation, Is12Server.step, Is12Server.withRx, hlost, hlate]
    simp [FeedCall.addedAs, FeedCall.added]
  | addReceiverLost nLeg sLeg nPackets =>
    simp only [FeedCall.operation, Is12Server.step, counterOf_addTo, FeedCall.addedAs, FeedCall.added]
    refine ⟨?_, by simp⟩
    split <;> rfl
  | addReceiverLate nPackets =>
    simp [FeedCall.operation, Is12Server.step, counterOf_addTo, FeedCall.addedAs, FeedCall.added]

/-- The server's counters follow the calls: late packets by their total, lost ones
by the totals of the legs that share the name. -/
theorem counters_runOperations (s : Is12Server) (calls : List (Instant × FeedCall)) (sName : String) :
    let s' := (s.runOperations (calls.map fun x => x.2.operation x.1)).1
    counterOf sName s'.rxMonitor.mCounters1 =
        counterOf sName s.rxMonitor.mCounters1 + BitVec.ofNat 64 (calls.map (·.2.addedAs sName)).sum ∧
      counterOf "late" s'.rxMonitor.mCounters2 =
        counterOf "late" s.rxMonitor.mCounters2 + BitVec.ofNat 64 (addedTotal .late (calls.map Prod.snd)) := by
  induction calls using List.reverseRecOn with
  | nil => simp [Is12Server.runOperations]
  | append_singleton calls x ih =>
    have hsnoc : (s.runOperations ((calls ++ [x]).map fun x => x.2.operation x.1)).1 =
        ((s.runOperations (calls.map fun x => x.2.operation x.1)).1.step (x.2.operation x.1)).1 := by
      rw [List.map_append]
      simp only [Is12Server.runOperations, List.map_cons, List.map_nil, runReport_snoc, andThen_fst]
    obtain ⟨hlost, hlate⟩ := counters_step (s.runOperations (calls.map fun x => x.2.operation x.1)).1 x.1 x.2 sName
    dsimp only at ih ⊢
    rw [hsnoc, hlost, hlate, ih.1, ih.2]
    simp only [List.map_append, List.map_cons, List.map_nil, List.sum_append, List.sum_cons, List.sum_nil,
      addedTotal_append, addedTotal_cons, addedTotal_nil, Nat.add_zero, BitVec.ofNat_add, BitVec.add_assoc, and_self]

end Server

end PiAudioNode
