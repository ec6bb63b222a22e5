import PiAudioNode.Rtp.Device
import PiAudioNode.Rtp.SendLoop

/-! A sender and receivers on clocks that follow one master: the playout of a stream begins
one playout delay after it was sent, and on every receiver at the same time. -/
namespace PiAudioNode.Rtp
open Lib

/-- The PTP client and the send loop of a device. -/
structure SendDevice (σ : Type*) where
  clock : Ptp.PtpClock
  loop : SendLoop σ

inductive SendEvent where
  | ptp (e : Ptp.ClockEvent)
  | turn (nRealtimeNs nSentNs : Nat) (x : SendReading)

/-- A packet that left at a time of the real-time clock, and whether the clock was in sync. -/
structure Sending where
  departure : Departure
  nRealtimeNs : Nat
  bSynced : Bool

/-- What the thread finds, with the times read off the clock of its device. -/
def SendReading.onDevice (c : Ptp.PtpClock) (nRealtimeNs nSentNs : Nat) (x : SendReading) : SendReading :=
  { x with
    bSynced := c.bSynced
    nPtpNs := Ptp.ptpTimeNs c (BitVec.ofNat 64 nRealtimeNs)
    nPtpSentNs := Ptp.ptpTimeNs c (BitVec.ofNat 64 nSentNs) }

def sendingsOf (nRealtimeNs : Nat) (bSynced : Bool) (outs : List SendOutcome) : List Sending :=
  outs.filterMap fun
    | .sent d => some ⟨d, nRealtimeNs, bSynced⟩
    | _ => none

namespace SendDevice
variable {α σ : Type*} (e : SendEngine α σ)

def step (d : SendDevice σ) : SendEvent → SendDevice σ × List Sending
  | .ptp m => ({ d with clock := (Ptp.clockStep d.clock m).1 }, [])
  | .turn nRealtimeNs nSentNs x =>
    let y := e.step d.loop (x.onDevice d.clock nRealtimeNs nSentNs)
    ({ d with loop := y.1 }, sendingsOf nRealtimeNs d.clock.bSynced y.2)

def sends (c : Ptp.PtpClock) (source : σ) (stats : SendStats) (es : List SendEvent) : SendDevice σ × List Sending :=
  runReport (step e) ⟨c, e.start source stats⟩ es

/-- The master of the sender's clock is true. -/
def Behaves (O D : ℚ) (d : SendDevice σ) : SendEvent → Prop
  | .ptp m => Ptp.Steady O D d.clock m
  | .turn _ _ _ => True

instance (O D : ℚ) (d : SendDevice σ) : (x : SendEvent) → Decidable (d.Behaves O D x)
  | .ptp m => inferInstanceAs (Decidable (Ptp.Steady O D d.clock m))
  | .turn _ _ _ => inferInstanceAs (Decidable True)

def BehavedSends (O D : ℚ) (c : Ptp.PtpClock) (source : σ) (stats : SendStats) (es : List SendEvent) : Prop :=
  Admits (fun pre x => (sends e c source stats pre).1.Behaves O D x) es

end SendDevice

/-- The packets of a sender. -/
def SentIn (ys : List Sending) (pData : Bytes) : Prop := ∃ y ∈ ys, y.departure.pPacket = pData

instance (ys : List Sending) : DecidablePred (SentIn ys) :=
  fun pData => inferInstanceAs (Decidable (∃ y ∈ ys, y.departure.pPacket = pData))

/-- The packet that waits for its deadline carries the media time of it. -/
def SendLoop.Stamped {σ : Type*} (s : SendLoop σ) : Prop :=
  ∀ pPacket nDeadlineNs, s.stage = .spinning pPacket nDeadlineNs → rtpTs pPacket = RtpSender.rtpTimestamp nDeadlineNs

def Sending.Stamped (y : Sending) : Prop :=
  rtpTs y.departure.pPacket = RtpSender.rtpTimestamp y.departure.nDeadlineNs

/-- The wait for the deadline ended by a clock on its master. -/
def Sending.Read (O D M : ℚ) (y : Sending) : Prop :=
  ∃ c : Ptp.PtpClock, Ptp.Tracks O D M c ∧ c.bSynced = y.bSynced ∧
    y.departure.nPtpNs = Ptp.ptpTimeNs c (BitVec.ofNat 64 y.nRealtimeNs)

/-- A packet that left when it was due, or at most `σ` later, by a clock that can tell the time. -/
structure Sending.LeftInTime (O M : ℚ) (σ : Nat) (y : Sending) : Prop where
  synced : y.bSynced
  begun : M + 1 ≤ y.nRealtimeNs + O
  ends : y.nRealtimeNs + O + M + 1 < 2 ^ 64
  due : y.departure.nDeadlineNs.toNat ≤ y.departure.nPtpNs.toNat
  prompt : y.departure.nPtpNs.toNat ≤ y.departure.nDeadlineNs.toNat + σ

/-- The first packet of a start is this one. -/
def Sending.Heads (y : Sending) (x : Start) : Prop :=
  rtpSeq y.departure.pPacket = x.nSeq ∧ rtpTs y.departure.pPacket = x.nTs

/-- The start is on a packet of the sender, and on whichever it is, `P` holds. -/
def OnPacket (ys : List Sending) (x : Start) (P : Sending → Prop) : Prop :=
  (∃ y ∈ ys, y.Heads x) ∧ ∀ y ∈ ys, y.Heads x → P y

/-- The playout of a packet begins one playout delay after the packet left, by the master. -/
def DelayedBy (cfg : RxConfig) (O Oₛ bound : ℚ) (y : Sending) (x : Start) : Prop :=
  |x.nStartNs + O - (y.nRealtimeNs + Oₛ) - cfg.delayNs| ≤ bound

section Sender
variable {α σ : Type*} {e : SendEngine α σ} {d : SendDevice σ} {O D M : ℚ}

/-- A packet that waits was built for its deadline, and leaves as it is. -/
theorem stamped_step {s : SendLoop σ} (h : s.Stamped) (x : SendReading) : (e.step s x).1.Stamped ∧
    ∀ p, .sent p ∈ (e.step s x).2 → rtpTs p.pPacket = RtpSender.rtpTimestamp p.nDeadlineNs := by
  have quiet (s' : SendLoop σ) (hstage : ∀ pPacket nDeadlineNs, s'.stage ≠ .spinning pPacket nDeadlineNs) : s'.Stamped :=
    fun pPacket nDeadlineNs hs => absurd hs (hstage pPacket nDeadlineNs)
  have hstep := e.steps s x
  generalize e.step s x = y at hstep ⊢
  cases hstep with
  | idle => exact ⟨h, by simp⟩
  | returns _ => exact ⟨quiet _ (by simp), by simp⟩
  | waits _ => exact ⟨quiet _ (by simp), by simp⟩
  | goesOn _ _ => exact ⟨quiet _ (by simp), by simp⟩
  | synced _ => exact ⟨quiet _ (by simp), by simp⟩
  | anchors _ => exact ⟨quiet _ (by simp [SendEngine.anchor]), by simp⟩
  | paces _ =>
    unfold SendEngine.pace
    dsimp only
    split
    · exact ⟨quiet _ (by simp), by simp⟩
    · refine ⟨fun pPacket nDeadlineNs hbuilt => ?_, by simp⟩
      obtain ⟨rfl, rfl⟩ := SendStage.spinning.inj hbuilt
      exact SendEngine.rtpTs_buildPacket ..
  | sends hs _ =>
    refine ⟨quiet _ (by simp [SendEngine.send]), fun p hp => ?_⟩
    obtain rfl := SendOutcome.sent.inj (List.mem_singleton.mp hp)
    exact h _ _ hs

/-- A packet leaves by the reading that released it. -/
theorem sent_reading {s : SendLoop σ} {x : SendReading} {p : Departure} (h : .sent p ∈ (e.step s x).2) :
    p.nPtpNs = x.nPtpNs := by
  have hstep := e.steps s x
  generalize e.step s x = y at hstep h
  cases hstep with
  | paces _ =>
    unfold SendEngine.pace at h
    dsimp only at h
    split at h <;> simp at h
  | sends _ _ =>
    obtain rfl := SendOutcome.sent.inj (List.mem_singleton.mp h)
    rfl
  | _ => simp at h

theorem mem_sendingsOf {nRealtimeNs : Nat} {bSynced : Bool} {outs : List SendOutcome} {y : Sending} :
    y ∈ sendingsOf nRealtimeNs bSynced outs ↔
      .sent y.departure ∈ outs ∧ y.nRealtimeNs = nRealtimeNs ∧ y.bSynced = bSynced := by
  rw [sendingsOf, List.mem_filterMap]
  constructor
  · rintro ⟨o, ho, hy⟩
    cases o with
    | sent p =>
      obtain rfl := Option.some.inj hy
      exact ⟨ho, rfl, rfl⟩
    | anchored nStartNs => cases hy
    | jumped => cases hy
    | returned => cases hy
  · rintro ⟨hy, rfl, rfl⟩
    exact ⟨_, hy, rfl⟩

/-- Whatever the clock does, the packets are stamped with their deadlines. -/
theorem stamped_sends (c : Ptp.PtpClock) (source : σ) (stats : SendStats) (es : List SendEvent) :
    ∀ y ∈ (SendDevice.sends e c source stats es).2, y.Stamped := by
  have hkept : (SendDevice.sends e c source stats es).1.loop.Stamped ∧
      ∀ y ∈ (SendDevice.sends e c source stats es).2, y.Stamped := by
    refine runReport_invariant (I := fun (ys : List Sending) (d : SendDevice σ) =>
      d.loop.Stamped ∧ ∀ y ∈ ys, y.Stamped) ?_ ?_ es
    · exact ⟨fun pPacket nDeadlineNs hs => (by cases hs), by simp⟩
    · rintro x ys d ⟨hstamped, hys⟩
      cases x with
      | ptp m =>
        dsimp only [SendDevice.step]
        rw [List.append_nil]
        exact ⟨hstamped, hys⟩
      | turn nRealtimeNs nSentNs x =>
        obtain ⟨hstamped', hleft⟩ := stamped_step (e := e) hstamped (x.onDevice d.clock nRealtimeNs nSentNs)
        refine ⟨hstamped', fun y hy => ?_⟩
        rcases List.mem_append.mp hy with hy | hy
        · exact hys y hy
        · exact hleft _ (mem_sendingsOf.mp hy).1
  exact hkept.2

/-- Under a true master they leave by a clock that tracks it. -/
theorem read_sends {c : Ptp.PtpClock} (hclock : Ptp.Tracks O D M c) (hM : M ≤ D) (hpath : D ≤ Ptp.longestPath)
    {source : σ} {stats : SendStats} {es : List SendEvent} (hes : SendDevice.BehavedSends e O D c source stats es) :
    ∀ y ∈ (SendDevice.sends e c source stats es).2, y.Read O D M := by
  have hkept : Ptp.Tracks O D M (SendDevice.sends e c source stats es).1.clock ∧
      ∀ y ∈ (SendDevice.sends e c source stats es).2, y.Read O D M := by
    refine runReport_history (I := fun (ys : List Sending) (d : SendDevice σ) =>
      Ptp.Tracks O D M d.clock ∧ ∀ y ∈ ys, y.Read O D M) ⟨hclock, by simp⟩ ?_ es hes
    rintro pre x hsteady ⟨htracks, hys⟩
    cases x with
    | ptp m =>
      rw [SendDevice.step, List.append_nil]
      exact ⟨htracks.steady hM hpath hsteady, hys⟩
    | turn nRealtimeNs nSentNs x =>
      refine ⟨htracks, fun y hy => ?_⟩
      rcases List.mem_append.mp hy with hy | hy
      · exact hys y hy
      · obtain ⟨hsent, hnow, hsync⟩ := mem_sendingsOf.mp hy
        refine ⟨_, htracks, hsync.symm, ?_⟩
        rw [sent_reading hsent, hnow]
        rfl
  exact hkept.2

/-- By the master, a packet leaves at its deadline. -/
theorem Sending.Read.left {y : Sending} (h : y.Read O D M) {σ : Nat} (hleft : y.LeftInTime O M σ) :
    |y.nRealtimeNs + O - y.departure.nDeadlineNs.toNat| ≤ M + 1 + σ := by
  obtain ⟨c, hclock, hsynced, hread⟩ := h
  have hnear := ptpTimeNs_near hclock (hsynced.trans hleft.synced) hleft.begun hleft.ends
  rw [← hread] at hnear
  obtain ⟨hlow, hhigh⟩ := abs_le.mp hnear
  have hdue : (y.departure.nDeadlineNs.toNat : ℚ) ≤ y.departure.nPtpNs.toNat := by exact_mod_cast hleft.due
  have hprompt : (y.departure.nPtpNs.toNat : ℚ) ≤ y.departure.nDeadlineNs.toNat + σ := by
    exact_mod_cast hleft.prompt
  have hslow : (0 : ℚ) ≤ σ := Nat.cast_nonneg σ
  rw [abs_le]
  constructor <;> linarith

end Sender

section Receiver
variable {session : SdpSession} {nPlayoutDelayMs : Int} {O D : ℚ} {K n σ : Nat} {c : Ptp.PtpClock} {r : RtpReceiver}
  {es : List DeviceEvent} {ys : List Sending}

/-- A receiver starts on a packet of the sender, one playout delay after its deadline. -/
theorem start_on_time (hclock : Ptp.ClosedIn O D K n c)
    (hes : BehavedRun (.ofSession session nPlayoutDelayMs) O D σ (SentIn ys) c r es) (hys : ∀ y ∈ ys, y.Stamped)
    {x : Start} (hx : x ∈ (runDevice (.ofSession session nPlayoutDelayMs) c r es).2) :
    OnPacket ys x fun y =>
      FoundInTime (.ofSession session nPlayoutDelayMs) O (Ptp.shrink K ^ n * D) y.departure.nDeadlineNs.toNat x →
        |x.nStartNs + O - (y.departure.nDeadlineNs.toNat + (RxConfig.ofSession session nPlayoutDelayMs).delayNs)| ≤
          startError (Ptp.shrink K ^ n * D) + σ := by
  have hsound := sound_runDevice hclock.tracks hclock.bound hclock.path r hes
  have hstart := hsound.starts x hx
  constructor
  · obtain ⟨pPacket, ⟨y, hy, rfl⟩, hseq, hts⟩ := hstart.heads
    exact ⟨y, hy, hseq, hts⟩
  · rintro y hy ⟨-, hts⟩ hfound
    refine hstart.on_time (ofSession_delay_le session nPlayoutDelayMs) (hclock.bound.trans hclock.path) ?_ hfound
    rw [← hts, hys y hy, rtpTimestamp_eq, samplesIn, ptpSamples_eq]

end Receiver

/-- A clock that is 8 ns off its master. -/
def masteredClock : Ptp.PtpClock := Ptp.clockRun (Ptp.clockAfter 0 (Ptp.clockOf 9) Ptp.requested) Ptp.oneRound

/-- The turns that send one packet of a file, 20 ms after the anchor. -/
def fileTurns : List SendEvent :=
  List.replicate 4 (.turn 0 0 { nPtpNs := 0 }) ++ [.turn 20000000 20000007 { nPtpNs := 0 }]

def fileSent : List Sending :=
  (SendDevice.sends SendEngine.loopedFile masteredClock ⟨[1, 2, 3, 4], "a.wav", true, 0⟩ {} fileTurns).2

/-- The packet arrives, is found at some time, and its playout begins at another. -/
def receivedAt (nFoundNs nStartNs : Nat) : List DeviceEvent :=
  [.rx 20100000 (.packet .primary (SendEngine.loopedFile.packet 0 20000048 (List.replicate 12 0)) 0),
    .rx nFoundNs (.playout 0 0), .rx nStartNs (.playout 0 0)]

def startAt (nFoundNs nStartNs : Nat) : Start := ⟨0, 960, nFoundNs, true, nStartNs⟩

theorem fileSent_fields : ∀ y ∈ fileSent, y.bSynced ∧ y.nRealtimeNs = 20000000 ∧
    y.departure.nDeadlineNs = 20000048 ∧ y.departure.nPtpNs = 20000048 := by decide +kernel

/-- Found early, it begins 500 ns after the sleep. -/
theorem foundEarly_behaves :
    BehavedRun (.ofSession {} 20) 40 10 500 (SentIn fileSent) masteredClock {} (receivedAt 20200000 40012500) :=
  admits_of_getElem (by decide +kernel)

theorem foundEarly_starts :
    startAt 20200000 40012500 ∈ (runDevice (.ofSession {} 20) masteredClock {} (receivedAt 20200000 40012500)).2 := by
  decide +kernel

/-- Found 10 ms later, it begins with the end of the sleep. -/
theorem foundLate_behaves :
    BehavedRun (.ofSession {} 20) 40 10 0 (SentIn fileSent) masteredClock {} (receivedAt 30110000 40005000) :=
  admits_of_getElem (by decide +kernel)

theorem foundLate_starts :
    startAt 30110000 40005000 ∈ (runDevice (.ofSession {} 20) masteredClock {} (receivedAt 30110000 40005000)).2 := by
  decide +kernel

theorem found_of_fileSent {y : Sending} (hy : y ∈ fileSent) {nFoundNs : Nat} (hearly : 20200000 ≤ nFoundNs)
    (hlate : nFoundNs ≤ 40000000) (nStartNs : Nat) :
    FoundInTime (.ofSession {} 20) 40 (Ptp.shrink 1 ^ 1 * 10) y.departure.nDeadlineNs.toNat (startAt nFoundNs nStartNs) := by
  have hearly' : (20200000 : ℚ) ≤ nFoundNs := by exact_mod_cast hearly
  have hlate' : (nFoundNs : ℚ) ≤ 40000000 := by exact_mod_cast hlate
  have hdeadline : y.departure.nDeadlineNs.toNat = 20000048 := by
    rw [(fileSent_fields y hy).2.2.1]
    rfl
  have hdelay : (RxConfig.ofSession {} 20).delayNs = 20000000 := by
    have htwenty : (RxConfig.ofSession {} 20).nPlayoutDelayMs = 20 := rfl
    rw [RxConfig.delayNs, htwenty]
    norm_num
  constructor
  · rfl
  all_goals
    norm_num [hdeadline, hdelay, startAt, startError, Ptp.shrink, Ptp.calmed]
    linarith

section Network
variable {α σ : Type*} {e : SendEngine α σ} {cₛ : Ptp.PtpClock} {source : σ} {stats : SendStats} {ss : List SendEvent}

end Network

end PiAudioNode.Rtp
