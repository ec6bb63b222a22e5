import PiAudioNode.Rtp.Period

/-! Whether the jitter buffer can hold what waits for playout. Time is counted in
frames from the arrival of the first packet; packets come at the nominal rate or
later, ALSA takes one frame at a time, and the playout thread acts when it is not
asleep or held up by a full device buffer. -/
namespace PiAudioNode.Rtp
open Lib

/-- The device buffer, 100 ms. -/
def nBuffer : Nat := 4800

/-- The 10 ms sleep between two looks for a first packet. -/
def pollFrames : Nat := 480

/-- The short sleep of an iteration, 200 µs, at the next whole frame. -/
def napFrames : Nat := 10

/-- 500 ms without a packet count as silence. -/
def silenceFrames : Nat := 24000

/-- What the PTP client tells the playout thread. -/
inductive PtpClock where
  | unsynced
  | synced (nPtpNs : Nat)

/-- The sleep before the start: on the media clock until the first timestamp is
one playout delay old, without a clock for the whole playout delay. -/
def prerollFrames (cfg : RxConfig) (nFirstTs : BitVec 32) : PtpClock → Nat
  | .unsynced => cfg.nPlayoutDelayMs * sampleRate / 1000
  | .synced nPtpNs =>
    let nPtpSamples := nPtpNs / 1000000000 * sampleRate + nPtpNs % 1000000000 * sampleRate / 1000000000
    let nAge := (BitVec.ofNat 32 nPtpSamples - nFirstTs).toInt
    let nWaitSamples := cfg.nTargetDelayFrames - nAge
    if 0 < nWaitSamples ∧ nWaitSamples < sampleRate then nWaitSamples.toNat else 0

structure Timed where
  line : Line
  nNow : Nat := 0
  nWake : Nat
  nArrived : Nat := 1

inductive Move where
  | tick
  | arrive
  | turn
  deriving DecidableEq

/-- How long the playout thread sleeps where its last turn left it. -/
def sleepFrames (cfg : RxConfig) (clock : PtpClock) (r : RtpReceiver) : Nat :=
  match r.playout with
  | .awaitFirst | .parked => pollFrames
  | .preroll => prerollFrames cfg r.nFirstTs clock
  | .napping => napFrames
  | .loop => 0

/-- The stream the receiver gets and the clock it sees. -/
structure Feed where
  stream : Nat → Arrival
  clock : Nat → PtpClock

def Timed.step (cfg : RxConfig) (feed : Feed) (s : Timed) : Move → Timed × List Outcome
  | .tick => ({ s with nNow := s.nNow + 1, line := { s.line with nQueued := s.line.nQueued - 1 } }, [])
  | .arrive =>
    let x := deliver cfg (feed.stream s.nArrived) s.line
    ({ s with line := x.1, nArrived := s.nArrived + 1 }, x.2)
  | .turn =>
    let x := turn cfg s.line
    ({ s with line := x.1, nWake := s.nNow + sleepFrames cfg (feed.clock s.nNow) x.1.rx }, x.2)

/-- What the next turn of the playout thread hands to ALSA. -/
def Timed.nToWrite (cfg : RxConfig) (s : Timed) : Nat :=
  written (playoutStep cfg s.line.nQueued s.line.nQueued s.line.rx).2

def Timed.Asleep (s : Timed) : Prop := s.line.rx.playout ≠ .loop ∧ s.nNow < s.nWake

/-- A write waits for room in the device buffer. -/
def Timed.Blocked (cfg : RxConfig) (s : Timed) : Prop :=
  0 < s.nToWrite cfg ∧ nBuffer < s.line.nQueued + s.nToWrite cfg

/-- Time passes while the playout thread waits, packets come at the nominal rate
of one every `nFrames` frames or up to the silence timeout later. -/
def Timed.May (cfg : RxConfig) (nFrames : Nat) (s : Timed) : Move → Prop
  | .tick => (s.Asleep ∨ s.Blocked cfg) ∧ s.nNow < s.nArrived * nFrames + silenceFrames
  | .arrive => s.nArrived * nFrames ≤ s.nNow
  | .turn => ¬ s.Asleep ∧ ¬ s.Blocked cfg

/-- A configured engine that has just received the first packet. Its thread next
looks for it after `nPoll` frames. -/
def Timed.start (cfg : RxConfig) (feed : Feed) (r : RtpReceiver) (nQueued nPoll : Nat) : Timed where
  line := (deliver cfg (feed.stream 0) ⟨configure cfg r, nQueued⟩).1
  nWake := nPoll

def runMoves (cfg : RxConfig) (feed : Feed) (s : Timed) (ms : List Move) : Timed × List Outcome :=
  runReport (Timed.step cfg feed) s ms

/-- The run keeps to the schedule. -/
def OnTime (cfg : RxConfig) (nFrames : Nat) (feed : Feed) (s : Timed) : List Move → Prop :=
  Admits fun pre m => (runMoves cfg feed s pre).1.May cfg nFrames m

/-- The numbers playout has left behind since it started. -/
def Outcome.isPassed : Outcome → Bool
  | .played .. | .concealed .. | .dropped _ => true
  | .accepted .. | .duplicate .. | .anchored _ => false

def passed (outs : List Outcome) : Nat := outs.countP Outcome.isPassed

/-- When the packet 1024 places after packet `j` arrives, packet `j` is no longer
waiting in its slot for playout to reach it. -/
def WaitingKept (cfg : RxConfig) (feed : Feed) (nFirst : BitVec 16) (s : Timed) : List Move → Prop :=
  Admits fun pre m => m = .arrive → ∀ j, (runMoves cfg feed s pre).1.nArrived = j + jitterSlots →
    Holds (runMoves cfg feed s pre).1.line.rx (shift nFirst j) → j < passed (runMoves cfg feed s pre).2

variable {cfg : RxConfig} {feed : Feed} {nFirst : BitVec 16} {nFrames : Nat} {t : Nat}
  {outs more : List Outcome} {l : Line}

@[simp] theorem passed_append (outs more : List Outcome) : passed (outs ++ more) = passed outs + passed more :=
  List.countP_append

/-- The number playout stands at, or will start from. -/
def nextToPlay (r : RtpReceiver) : BitVec 16 :=
  match r.playout with
  | .awaitFirst | .preroll | .parked => r.nFirstSeq
  | .loop | .napping => r.nNextSeq

/-- What the engine keeps while it receives. Frames queued and time elapsed are
paid for by the numbers passed and one buffer of slots. -/
structure Supplied (cfg : RxConfig) (feed : Feed) (nFirst : BitVec 16) (nFrames t : Nat) (outs : List Outcome)
    (l : Line) : Prop where
  receiving : l.rx.bReceiving = true
  first : l.rx.bHaveFirst = true
  firstTs : l.rx.nFirstTs = rtpTs (feed.stream 0).pData
  sized : ∀ n, Holds l.rx n → (l.rx.vJitter (slotOf n)).vSamples.length = nFrames
  next : nextToPlay l.rx = shift nFirst (passed outs)
  level : t + l.nQueued < (passed outs + jitterSlots) * nFrames

theorem Supplied.step_next (h : Supplied cfg feed nFirst nFrames t outs l) (hloop : l.rx.playout = .loop) :
    l.rx.nNextSeq + 1 = shift nFirst (passed outs + 1 : Nat) := by
  have hnext := h.next
  simp only [nextToPlay, hloop] at hnext
  rw [hnext, add_one_eq_shift, shift_shift]
  rfl

theorem Supplied.played (h : Supplied cfg feed nFirst nFrames t outs l) (hloop : l.rx.playout = .loop)
    (hheld : Holds l.rx l.rx.nNextSeq) :
    Supplied cfg feed nFirst nFrames t (outs ++ (playLine l).2) (playLine l).1 := by
  have hcount : passed (outs ++ (playLine l).2) = passed outs + 1 := passed_append _ _
  refine ⟨h.receiving, h.first, h.firstTs, fun n hn => ?_, ?_, ?_⟩
  · rw [← h.sized n ((holds_release l.rx _ n).mp hn).1]
    exact congrArg List.length (release_samples l.rx _ _)
  · rw [hcount, ← h.step_next hloop]
    simp [nextToPlay, playLine, play, release, hloop]
  · have hq : (playLine l).1.nQueued = l.nQueued + nFrames := by
      rw [← h.sized _ hheld]
      rfl
    have hmul : (passed outs + 1 + jitterSlots) * nFrames = (passed outs + jitterSlots) * nFrames + nFrames := by ring
    have := h.level
    rw [hcount, hq, hmul]
    omega

theorem Supplied.concealed (h : Supplied cfg feed nFirst nFrames t outs l) (hloop : l.rx.playout = .loop)
    (hsize : cfg.nFramesPerPacket ≤ nFrames) :
    Supplied cfg feed nFirst nFrames t (outs ++ (concealLine cfg l).2) (concealLine cfg l).1 := by
  have hcount : passed (outs ++ (concealLine cfg l).2) = passed outs + 1 := passed_append _ _
  refine ⟨h.receiving, h.first, h.firstTs, h.sized, ?_, ?_⟩
  · rw [hcount, ← h.step_next hloop]
    simp [nextToPlay, concealLine, conceal, hloop]
  · have hmul : (passed outs + 1 + jitterSlots) * nFrames = (passed outs + jitterSlots) * nFrames + nFrames := by ring
    have := h.level
    rw [hcount, hmul]
    simp only [concealLine]
    omega

theorem Supplied.steered (h : Supplied cfg feed nFirst nFrames t outs l) (hloop : l.rx.playout = .loop) :
    Supplied cfg feed nFirst nFrames t (outs ++ (steerLine cfg l).2) (steerLine cfg l).1 := by
  rcases steerLine_cases cfg l with hsteer | ⟨_, _, hsteer⟩
  · rw [hsteer]
    rwa [List.append_nil]
  · have hcount : passed (outs ++ [.dropped l.rx.nNextSeq]) = passed outs + 1 := passed_append _ _
    rw [hsteer]
    refine ⟨h.receiving, h.first, h.firstTs, fun n hn => ?_, ?_, ?_⟩
    · rw [← h.sized n ((holds_release l.rx _ n).mp hn).1]
      exact congrArg List.length (release_samples l.rx _ _)
    · rw [hcount, ← h.step_next hloop]
      simp [nextToPlay, dropLine, release, hloop]
    · have hmul : (passed outs + 1 + jitterSlots) * nFrames = (passed outs + jitterSlots) * nFrames + nFrames := by ring
      have := h.level
      rw [hcount, hmul]
      simp only [dropLine]
      omega

theorem merge_next {r : RtpReceiver} (hfirst : r.bHaveFirst = true) (nLeg : Leg) (nSeq : BitVec 16) (nTs : BitVec 32)
    (v : List Frame) : nextToPlay (merge r nLeg nSeq nTs v).1 = nextToPlay r := by
  by_cases hheld : Holds r nSeq
  · rw [merge, if_pos hheld]
    rfl
  · rw [merge, if_neg hheld, if_pos hfirst]
    rfl

theorem Supplied.delivered (h : Supplied cfg feed nFirst nFrames t outs l) {nSeq : BitVec 16} {a : Arrival}
    (ha : Carries cfg nFrames nSeq a) :
    Supplied cfg feed nFirst nFrames t (outs ++ (deliver cfg a l).2) (deliver cfg a l).1 := by
  have hfirst : (noteArrival l.rx a.nLeg nSeq a.now).bHaveFirst = true := h.first
  have hnext := merge_next hfirst a.nLeg nSeq (rtpTs a.pData) (decodeFrames cfg.session l.rx.monitor a.pData)
  rw [ha.deliver]
  by_cases hheld : Holds (noteArrival l.rx a.nLeg nSeq a.now) nSeq
  · rw [merge, if_pos hheld]
    refine ⟨rfl, h.first, h.firstTs, h.sized, ?_, ?_⟩
    · rw [passed_append]
      exact h.next
    · rw [passed_append]
      exact h.level
  · have hcount : passed (outs ++ [.accepted a.nLeg nSeq (decodeFrames cfg.session l.rx.monitor a.pData)]) =
        passed outs := passed_append _ _
    have hsamples := merge_samples hheld a.nLeg (rtpTs a.pData) (decodeFrames cfg.session l.rx.monitor a.pData)
    have hholds := holds_merge hheld a.nLeg (rtpTs a.pData) (decodeFrames cfg.session l.rx.monitor a.pData)
    have hreport : (merge (noteArrival l.rx a.nLeg nSeq a.now) a.nLeg nSeq (rtpTs a.pData)
        (decodeFrames cfg.session l.rx.monitor a.pData)).2 =
        [.accepted a.nLeg nSeq (decodeFrames cfg.session l.rx.monitor a.pData)] := by
      rw [merge, if_neg hheld]
    rw [hreport]
    refine ⟨?_, ?_, ?_, fun n hn => ?_, ?_, ?_⟩
    · rw [merge, if_neg hheld]
      rfl
    · rw [merge, if_neg hheld]
    · rw [merge, if_neg hheld, hfirst, if_pos rfl]
      exact h.firstTs
    · rw [hsamples]
      rcases (hholds n).mp hn with rfl | ⟨hold, hslot⟩
      · rw [if_pos rfl, ha.length]
      · rw [if_neg hslot]
        exact h.sized n hold
    · rw [hnext, hcount]
      exact h.next
    · rw [hcount]
      exact h.level

/-- Where the playout thread may be, and until when it can stay there. -/
def ThreadFits (nFrames : Nat) (s : Timed) : Prop :=
  match s.line.rx.playout with
  | .awaitFirst => s.nNow ≤ s.nWake ∧ s.nWake ≤ pollFrames
  | .preroll => s.nWake < jitterSlots * nFrames
  | .loop => True
  | .napping => s.nWake < s.nNow + s.line.nQueued
  | .parked => False

/-- The start-up wait is shorter than the packets that fit in the slots, whenever
the thread first looks. -/
def StartFits (cfg : RxConfig) (feed : Feed) (nFrames : Nat) : Prop :=
  ∀ nPoll ≤ pollFrames,
    nPoll + prerollFrames cfg (rtpTs (feed.stream 0).pData) (feed.clock nPoll) < jitterSlots * nFrames

instance (cfg : RxConfig) (feed : Feed) (nFrames : Nat) : Decidable (StartFits cfg feed nFrames) :=
  inferInstanceAs (Decidable (∀ nPoll ≤ pollFrames, _))

theorem turn_awaitFirst (hpc : l.rx.playout = .awaitFirst) (hfirst : l.rx.bHaveFirst = true) :
    turn cfg l = ({ l with rx := { l.rx with playout := .preroll } }, []) := by
  rw [turn_plain fun nDrift => by simp only [playoutStep, hpc, if_pos hfirst]; rfl]
  rfl

theorem turn_preroll (hpc : l.rx.playout = .preroll) :
    turn cfg l = ({ l with rx := (anchor l.rx).1 }, [.anchored l.rx.nFirstSeq]) := by
  rw [turn_plain fun nDrift => by simp only [playoutStep, hpc]; rfl]
  rfl

theorem wakeLine_supplied (h : Supplied cfg feed nFirst nFrames t outs l) (hpc : l.rx.playout = .napping) :
    Supplied cfg feed nFirst nFrames t outs (wakeLine l) := by
  refine ⟨h.receiving, h.first, h.firstTs, h.sized, ?_, h.level⟩
  have hnext := h.next
  simp only [nextToPlay, hpc] at hnext
  exact hnext

/-- What a turn of the playout thread leaves. -/
structure Turned (cfg : RxConfig) (feed : Feed) (nFirst : BitVec 16) (nFrames t : Nat) (outs : List Outcome)
    (x : Line × List Outcome) : Prop where
  supplied : Supplied cfg feed nFirst nFrames t (outs ++ x.2) x.1
  awake : x.1.rx.playout = .loop ∨
    x.1.rx.playout = .napping ∧ 2 * cfg.nFramesPerPacket < x.1.nQueued

theorem steerLine_playout (cfg : RxConfig) (l : Line) : (steerLine cfg l).1.rx.playout = l.rx.playout := by
  rcases steerLine_cases cfg l with h | ⟨_, _, h⟩ <;> rw [h]
  rfl

/-- An iteration that plays or conceals ends with drift steering. -/
theorem Supplied.turned {x : Line × List Outcome}
    (h : Supplied cfg feed nFirst nFrames t (outs ++ x.2) x.1) (hloop : x.1.rx.playout = .loop) :
    Turned cfg feed nFirst nFrames t outs (andThen x (steerLine cfg)) := by
  refine ⟨?_, Or.inl ((steerLine_playout cfg x.1).trans hloop)⟩
  rw [andThen_snd, ← List.append_assoc]
  exact h.steered hloop

theorem Supplied.turn_loop (h : Supplied cfg feed nFirst nFrames t outs l) (hloop : l.rx.playout = .loop)
    (hsize : cfg.nFramesPerPacket ≤ nFrames) : Turned cfg feed nFirst nFrames t outs (turn cfg l) := by
  by_cases hheld : Holds l.rx l.rx.nNextSeq
  · rw [turn_held hloop hheld]
    exact (h.played hloop hheld).turned hloop
  · by_cases hq : 2 * cfg.nFramesPerPacket < l.nQueued
    · rw [turn_nap hloop hheld h.receiving hq]
      refine ⟨⟨h.receiving, h.first, h.firstTs, h.sized, ?_, ?_⟩, Or.inr ⟨rfl, hq⟩⟩
      · have hnext := h.next
        simp only [nextToPlay, hloop] at hnext
        rw [List.append_nil]
        exact hnext
      · rw [List.append_nil]
        exact h.level
    · rw [turn_conceal hloop hheld h.receiving (by omega)]
      exact (h.concealed hloop hsize).turned hloop

theorem Supplied.turn_napping (h : Supplied cfg feed nFirst nFrames t outs l) (hnap : l.rx.playout = .napping)
    (hsize : cfg.nFramesPerPacket ≤ nFrames) : Turned cfg feed nFirst nFrames t outs (turn cfg l) := by
  have hwake := wakeLine_supplied h hnap
  by_cases hlost : Newer l.rx ∧ (l.nQueued : Int) < cfg.nTargetDelayFrames / 2
  · rw [turn_wake_conceal hnap hlost]
    exact (hwake.concealed rfl hsize).turned rfl
  · rw [turn_wake hnap hlost]
    exact ⟨hwake.steered rfl, Or.inl (steerLine_playout cfg (wakeLine l))⟩

/-- A turn writes one packet at most. -/
theorem Supplied.toWrite_le (h : Supplied cfg feed nFirst nFrames t outs l) (hsize : cfg.nFramesPerPacket ≤ nFrames)
    (nDelay nDrift : Int) : written (playoutStep cfg nDelay nDrift l.rx).2 ≤ nFrames := by
  have hconceal (r : RtpReceiver) : written (andThen (conceal cfg r) (steer cfg nDrift)).2 ≤ nFrames := by
    rw [andThen_snd, written_append, written_steer]
    simpa [written, conceal, Outcome.frames, RxConfig.vSilence] using hsize
  have hsteer (r : RtpReceiver) : written (andThen (wake r) (steer cfg nDrift)).2 ≤ nFrames := by
    rw [andThen_snd, written_append, written_steer]
    exact Nat.zero_le _
  unfold playoutStep
  split
  · exact Nat.zero_le _
  · exact Nat.zero_le _
  · split
    · rw [andThen_snd, written_append, written_steer]
      exact (h.sized _ ‹_›).le
    · split
      · split
        · exact Nat.zero_le _
        · exact hconceal _
      · exact Nat.zero_le _
  · split
    · rw [andThen_snd]
      exact hconceal _
    · exact hsteer _
  · split
    · rw [andThen_snd, written_append, written_steer]
      exact Nat.zero_le _
    · exact Nat.zero_le _

/-- The whole of what a run on time keeps when the start-up wait fits. -/
structure Paced (cfg : RxConfig) (feed : Feed) (nFirst : BitVec 16) (nFrames : Nat) (outs : List Outcome)
    (s : Timed) : Prop where
  supplied : Supplied cfg feed nFirst nFrames s.nNow outs s.line
  thread : ThreadFits nFrames s

section
variable {s : Timed}

theorem Paced.tick (h : Paced cfg feed nFirst nFrames outs s) (hsize : cfg.nFramesPerPacket ≤ nFrames)
    (hlarge : 6 ≤ nFrames) (hsmall : nFrames ≤ nBuffer) (hmay : s.May cfg nFrames .tick) :
    Paced cfg feed nFirst nFrames (outs ++ (s.step cfg feed .tick).2) (s.step cfg feed .tick).1 := by
  have hlevel := h.supplied.level
  have hthread := h.thread
  have hwrite : s.nToWrite cfg ≤ nFrames := h.supplied.toWrite_le hsize _ _
  have hslots : jitterSlots * nFrames ≤ (passed outs + jitterSlots) * nFrames :=
    Nat.mul_le_mul_right _ (Nat.le_add_left _ _)
  have hsixth : jitterSlots * 6 ≤ jitterSlots * nFrames := Nat.mul_le_mul_left _ hlarge
  have hslots' : jitterSlots = 1024 := rfl
  have hpoll : pollFrames = 480 := rfl
  have hfits : s.nNow + 1 + (s.line.nQueued - 1) < (passed outs + jitterSlots) * nFrames ∧
      ThreadFits nFrames (s.step cfg feed .tick).1 := by
    simp only [ThreadFits, Timed.step] at hthread ⊢
    rcases hmay.1 with ⟨hpc, hasleep⟩ | ⟨hwrites, hfull⟩
    · cases hplayout : s.line.rx.playout with
      | awaitFirst =>
        simp only [hplayout] at hthread ⊢
        omega
      | preroll =>
        simp only [hplayout] at hthread ⊢
        omega
      | loop => exact absurd hplayout hpc
      | napping =>
        simp only [hplayout] at hthread ⊢
        omega
      | parked => simp [hplayout] at hthread
    · -- a blocked write means frames in the device
      have hqueued : 0 < s.line.nQueued := by omega
      refine ⟨by omega, ?_⟩
      cases hplayout : s.line.rx.playout with
      | awaitFirst =>
        simp [Timed.nToWrite, playoutStep, hplayout, written] at hwrites
      | preroll => simpa only [hplayout] using hthread
      | loop => trivial
      | napping =>
        simp only [hplayout] at hthread ⊢
        omega
      | parked => simp [hplayout] at hthread
  refine ⟨?_, hfits.2⟩
  obtain ⟨hrec, hfirst, hts, hsized, hnext, -⟩ := h.supplied
  simp only [Timed.step, List.append_nil]
  exact ⟨hrec, hfirst, hts, hsized, hnext, hfits.1⟩

theorem Paced.arrive (h : Paced cfg feed nFirst nFrames outs s) {nSeq : BitVec 16}
    (ha : Carries cfg nFrames nSeq (feed.stream s.nArrived)) :
    Paced cfg feed nFirst nFrames (outs ++ (s.step cfg feed .arrive).2) (s.step cfg feed .arrive).1 := by
  refine ⟨h.supplied.delivered ha, ?_⟩
  have hthread := h.thread
  have hline : (s.step cfg feed .arrive).1.line = (deliver cfg (feed.stream s.nArrived) s.line).1 := rfl
  have hpc : (deliver cfg (feed.stream s.nArrived) s.line).1.rx.playout = s.line.rx.playout := by
    rw [ha.deliver, merge]
    split <;> rfl
  have hq : (deliver cfg (feed.stream s.nArrived) s.line).1.nQueued = s.line.nQueued := rfl
  simpa only [ThreadFits, hline, hpc, hq, Timed.step] using hthread

theorem Turned.threadFits {x : Line × List Outcome} (h : Turned cfg feed nFirst nFrames t outs x)
    (hlarge : 6 ≤ cfg.nFramesPerPacket) (k : Nat) (clock : PtpClock) :
    ThreadFits nFrames ⟨x.1, t, t + sleepFrames cfg clock x.1.rx, k⟩ := by
  rcases h.awake with hpc | ⟨hpc, hq⟩
  · simp [ThreadFits, hpc]
  · have hnap : napFrames = 10 := rfl
    simp only [ThreadFits, sleepFrames, hpc]
    omega

theorem Paced.turn (h : Paced cfg feed nFirst nFrames outs s) (hfits : StartFits cfg feed nFrames)
    (hsize : cfg.nFramesPerPacket ≤ nFrames) (hlarge : 6 ≤ cfg.nFramesPerPacket) (hmay : s.May cfg nFrames .turn) :
    Paced cfg feed nFirst nFrames (outs ++ (s.step cfg feed .turn).2) (s.step cfg feed .turn).1 := by
  have hthread := h.thread
  have hready : s.line.rx.playout ≠ .loop → s.nWake ≤ s.nNow := fun hpc => by
    by_contra hlt
    exact hmay.1 ⟨hpc, by omega⟩
  obtain ⟨hrec, hfirst, hts, hsized, hnext, hlevel⟩ := h.supplied
  simp only [ThreadFits] at hthread
  cases hpc : s.line.rx.playout with
  | awaitFirst =>
    simp only [hpc] at hthread
    have hnow : s.nNow ≤ pollFrames := hthread.1.trans hthread.2
    simp only [nextToPlay, hpc] at hnext
    simp only [Timed.step, turn_awaitFirst hpc hfirst, List.append_nil]
    refine ⟨⟨hrec, hfirst, hts, hsized, hnext, hlevel⟩, ?_⟩
    simp only [ThreadFits, sleepFrames, hts]
    exact hfits _ hnow
  | preroll =>
    simp only [nextToPlay, hpc] at hnext
    simp only [Timed.step, turn_preroll hpc]
    have hcount : passed (outs ++ [.anchored s.line.rx.nFirstSeq]) = passed outs := passed_append _ _
    exact ⟨⟨hrec, hfirst, hts, hsized, by rw [hcount]; exact hnext, by rw [hcount]; exact hlevel⟩, trivial⟩
  | loop =>
    have hturned := h.supplied.turn_loop hpc hsize
    exact ⟨hturned.supplied, hturned.threadFits hlarge _ _⟩
  | napping =>
    have hturned := h.supplied.turn_napping hpc hsize
    exact ⟨hturned.supplied, hturned.threadFits hlarge _ _⟩
  | parked => simp [hpc] at hthread

end

/-- A stream of one packet every `nFrames` frames, numbered from the first. -/
def Streams (cfg : RxConfig) (nFrames : Nat) (nFirst : BitVec 16) (feed : Feed) : Prop :=
  ∀ n : Nat, Carries cfg nFrames (shift nFirst n) (feed.stream n)

variable {r : RtpReceiver} {nQueued nPoll : Nat} {ms : List Move}

theorem Streams.started (hstream : Streams cfg nFrames nFirst feed) (r : RtpReceiver) (nQueued nPoll : Nat) :
    (Timed.start cfg feed r nQueued nPoll).line = ⟨(merge (noteArrival (configure cfg r) (feed.stream 0).nLeg nFirst
      (feed.stream 0).now) (feed.stream 0).nLeg nFirst (rtpTs (feed.stream 0).pData)
      (decodeFrames cfg.session r.monitor (feed.stream 0).pData)).1, nQueued⟩ := by
  have hcarries := hstream 0
  rw [Nat.cast_zero, shift_zero] at hcarries
  rw [Timed.start, hcarries.deliver]
  rfl

theorem free_configured (cfg : RxConfig) (r : RtpReceiver) (nLeg : Leg) (nFirst n : BitVec 16) (now : Time) :
    ¬ Holds (noteArrival (configure cfg r) nLeg nFirst now) n := by
  simp [Holds, noteArrival, configure]

theorem Paced.start (hstream : Streams cfg nFrames nFirst feed) (hlarge : 6 ≤ nFrames) (hqueued : nQueued ≤ nBuffer)
    (hpoll : nPoll ≤ pollFrames) : Paced cfg feed nFirst nFrames [] (Timed.start cfg feed r nQueued nPoll) := by
  have hfree := free_configured cfg r (feed.stream 0).nLeg nFirst nFirst (feed.stream 0).now
  have hcarries := hstream 0
  have hlevel : nQueued < jitterSlots * nFrames := by
    have : jitterSlots * 6 ≤ jitterSlots * nFrames := Nat.mul_le_mul_left _ hlarge
    have hbuffer : nBuffer < jitterSlots * 6 := by decide
    omega
  refine ⟨?_, ?_⟩
  · rw [hstream.started]
    refine ⟨?_, ?_, ?_, fun n hn => ?_, ?_, ?_⟩
    · rw [merge, if_neg hfree]
      rfl
    · rw [merge, if_neg hfree]
    · rw [merge, if_neg hfree]
      rfl
    · rw [merge_samples hfree]
      rcases (holds_merge hfree _ _ _ n).mp hn with rfl | ⟨hold, _⟩
      · rw [if_pos rfl, hcarries.length]
      · exact absurd hold (free_configured cfg r _ _ _ _)
    · rw [merge, if_neg hfree, show passed [] = 0 from rfl, Nat.cast_zero, shift_zero]
      rfl
    · simpa [passed, Timed.start] using hlevel
  · rw [ThreadFits, hstream.started, merge, if_neg hfree]
    exact ⟨Nat.zero_le _, hpoll⟩

theorem Paced.run (hstream : Streams cfg nFrames nFirst feed) (hsize : cfg.nFramesPerPacket ≤ nFrames)
    (hlarge : 6 ≤ cfg.nFramesPerPacket) (hsmall : nFrames ≤ nBuffer) (hfits : StartFits cfg feed nFrames) {s : Timed}
    (hstart : Paced cfg feed nFirst nFrames [] s) (htime : OnTime cfg nFrames feed s ms) :
    Paced cfg feed nFirst nFrames (runMoves cfg feed s ms).2 (runMoves cfg feed s ms).1 := by
  refine runReport_history hstart (fun pre m hmay h => ?_) ms htime
  cases m with
  | tick => exact h.tick hsize (hlarge.trans hsize) hsmall hmay
  | arrive => exact h.arrive (hstream _)
  | turn => exact h.turn hfits hsize hlarge hmay

/-- A packet that comes no earlier than its time finds the packet 1024 before it passed. -/
theorem Paced.passed_lt {s : Timed} (h : Paced cfg feed nFirst nFrames outs s) {j : Nat}
    (hmay : s.May cfg nFrames .arrive) (hj : s.nArrived = j + jitterSlots) : j < passed outs := by
  have hlevel := h.supplied.level
  have hdue : (j + jitterSlots) * nFrames ≤ s.nNow := hj ▸ hmay
  have hlt : (j + jitterSlots) * nFrames < (passed outs + jitterSlots) * nFrames := by omega
  have := Nat.lt_of_mul_lt_mul_right hlt
  omega

/-- The start-up wait stretched past the slots: nothing is played while the packets
that come fill every slot. -/
structure Primed (cfg : RxConfig) (feed : Feed) (nFirst : BitVec 16) (nFrames nPoll t k : Nat)
    (x : Timed × List Outcome) : Prop where
  now : x.1.nNow = t
  arrived : x.1.nArrived = k
  idle : passed x.2 = 0
  held : Holds x.1.line.rx nFirst
  first : x.1.line.rx.bHaveFirst = true
  firstTs : x.1.line.rx.nFirstTs = rtpTs (feed.stream 0).pData
  thread : x.1.line.rx.playout = .awaitFirst ∧ x.1.nWake = nPoll ∧ t ≤ nPoll ∨
    x.1.line.rx.playout = .preroll ∧ jitterSlots * nFrames ≤ x.1.nWake

section
variable {t k : Nat} {x : Timed × List Outcome}

theorem not_blocked_of_early {s : Timed} (hpc : s.line.rx.playout = .awaitFirst ∨ s.line.rx.playout = .preroll) :
    ¬ s.Blocked cfg := by
  rintro ⟨hwrites, _⟩
  rcases hpc with hpc | hpc <;> simp [Timed.nToWrite, playoutStep, hpc, anchor, written, Outcome.frames] at hwrites

theorem Primed.start (hstream : Streams cfg nFrames nFirst feed) (r : RtpReceiver) (nQueued nPoll : Nat) :
    Primed cfg feed nFirst nFrames nPoll 0 1 (Timed.start cfg feed r nQueued nPoll, []) := by
  have hfree := free_configured cfg r (feed.stream 0).nLeg nFirst nFirst (feed.stream 0).now
  have hline := hstream.started r nQueued nPoll
  refine ⟨rfl, rfl, rfl, ?_, ?_, ?_, Or.inl ⟨?_, rfl, Nat.zero_le _⟩⟩
  · rw [hline]
    exact (holds_merge hfree _ _ _ _).mpr (Or.inl rfl)
  · rw [hline, merge, if_neg hfree]
  · rw [hline, merge, if_neg hfree]
    rfl
  · rw [hline, merge, if_neg hfree]
    rfl

theorem Primed.turn (h : Primed cfg feed nFirst nFrames nPoll t k x) (hpc : x.1.line.rx.playout = .awaitFirst)
    (hpoll : t = nPoll) (hlong : jitterSlots * nFrames ≤ nPoll +
      prerollFrames cfg (rtpTs (feed.stream 0).pData) (feed.clock nPoll)) :
    x.1.May cfg nFrames .turn ∧ Primed cfg feed nFirst nFrames nPoll t k (andThen x fun s => s.step cfg feed .turn) ∧
      (andThen x fun s => s.step cfg feed .turn).1.line.rx.playout = .preroll := by
  have hwake : x.1.nWake = nPoll := by
    rcases h.thread with ⟨_, hwake, _⟩ | ⟨hpc', _⟩
    · exact hwake
    · rw [hpc] at hpc'
      cases hpc'
  have hnow := h.now
  refine ⟨⟨fun hsleep => ?_, not_blocked_of_early (Or.inl hpc)⟩, ?_⟩
  · have := hsleep.2
    omega
  · simp only [andThen, Timed.step, turn_awaitFirst hpc h.first, List.append_nil]
    refine ⟨⟨hnow, h.arrived, h.idle, h.held, h.first, h.firstTs, Or.inr ⟨rfl, ?_⟩⟩, trivial⟩
    simp only [sleepFrames, h.firstTs, hnow, hpoll]
    exact hlong

theorem Primed.tick (h : Primed cfg feed nFirst nFrames nPoll t k x)
    (hasleep : x.1.line.rx.playout = .preroll ∨ t < nPoll) (ht : t < jitterSlots * nFrames) (hk : t < k * nFrames) :
    x.1.May cfg nFrames .tick ∧
      Primed cfg feed nFirst nFrames nPoll (t + 1) k (andThen x fun s => s.step cfg feed .tick) := by
  have hnow := h.now
  refine ⟨⟨Or.inl ?_, ?_⟩, ?_⟩
  · rcases h.thread with ⟨hpc, hwake, _⟩ | ⟨hpc, hwake⟩
    · have : t < nPoll := hasleep.resolve_left (by simp [hpc])
      exact ⟨by simp [hpc], by omega⟩
    · exact ⟨by simp [hpc], by omega⟩
  · rw [hnow, h.arrived]
    omega
  · simp only [andThen, Timed.step, List.append_nil]
    refine ⟨by rw [hnow], h.arrived, h.idle, h.held, h.first, h.firstTs, ?_⟩
    rcases h.thread with ⟨hpc, hwake, _⟩ | hpre
    · exact Or.inl ⟨hpc, hwake, hasleep.resolve_left (by simp [hpc])⟩
    · exact Or.inr hpre

theorem Primed.arrive (h : Primed cfg feed nFirst nFrames nPoll t k x) (hstream : Streams cfg nFrames nFirst feed)
    (hk : 0 < k) (hslot : k < jitterSlots) :
    Primed cfg feed nFirst nFrames nPoll t (k + 1) (andThen x fun s => s.step cfg feed .arrive) := by
  have hcarries := hstream k
  obtain ⟨hnow, hcount, hidle, hheld, hfirst, hts, hthread⟩ := h
  have hother : slotOf nFirst ≠ slotOf (shift nFirst k) := by
    have hzero : slotOf nFirst = slotOf (shift nFirst 0) := by rw [shift_zero]
    have hslots : (jitterSlots : Int) = 1024 := rfl
    rw [hzero, ne_eq, slotOf_shift, hslots]
    have : k < 1024 := hslot
    omega
  simp only [andThen, Timed.step, hcount]
  rw [hcarries.deliver]
  by_cases hcopy : Holds (noteArrival x.1.line.rx (feed.stream k).nLeg (shift nFirst k) (feed.stream k).now)
      (shift nFirst k)
  · rw [merge, if_pos hcopy]
    refine ⟨hnow, rfl, ?_, hheld, hfirst, hts, hthread⟩
    rw [passed_append, hidle]
    rfl
  · refine ⟨hnow, rfl, ?_, ?_, ?_, ?_, ?_⟩
    · rw [passed_append, hidle, merge, if_neg hcopy]
      rfl
    · exact (holds_merge hcopy _ _ _ _).mpr (Or.inr ⟨hheld, hother⟩)
    · rw [merge, if_neg hcopy]
    · rw [merge, if_neg hcopy]
      simpa [noteArrival, hfirst] using hts
    · rw [merge, if_neg hcopy]
      exact hthread

end

/-- A run on time while the start-up wait lasts. -/
def Waits (cfg : RxConfig) (feed : Feed) (nFirst : BitVec 16) (nFrames nPoll : Nat) (s : Timed) (t k : Nat) : Prop :=
  ∃ ms, OnTime cfg nFrames feed s ms ∧ Primed cfg feed nFirst nFrames nPoll t k (runMoves cfg feed s ms)

theorem runMoves_snoc (cfg : RxConfig) (feed : Feed) (s : Timed) (ms : List Move) (m : Move) :
    runMoves cfg feed s (ms ++ [m]) = andThen (runMoves cfg feed s ms) fun s => s.step cfg feed m :=
  runReport_snoc ..

/-- The thread looked and went to sleep for the pre-roll, or has not looked yet. -/
theorem Waits.asleep {s : Timed} {t k : Nat} (h : Waits cfg feed nFirst nFrames nPoll s t k)
    (hlong : jitterSlots * nFrames ≤ nPoll + prerollFrames cfg (rtpTs (feed.stream 0).pData) (feed.clock nPoll)) :
    ∃ ms, OnTime cfg nFrames feed s ms ∧ Primed cfg feed nFirst nFrames nPoll t k (runMoves cfg feed s ms) ∧
      ((runMoves cfg feed s ms).1.line.rx.playout = .preroll ∨ t < nPoll) := by
  obtain ⟨ms, htime, hprimed⟩ := h
  rcases hprimed.thread with ⟨hpc, _, hle⟩ | ⟨hpc, _⟩
  · rcases Nat.lt_or_eq_of_le hle with hlt | heq
    · exact ⟨ms, htime, hprimed, Or.inr hlt⟩
    · obtain ⟨hmay, hturned, hpre⟩ := hprimed.turn hpc heq hlong
      refine ⟨ms ++ [.turn], htime.snoc hmay, ?_⟩
      rw [runMoves_snoc]
      exact ⟨hturned, Or.inl hpre⟩
  · exact ⟨ms, htime, hprimed, Or.inl hpc⟩

theorem Waits.tick {s : Timed} {t k : Nat} (h : Waits cfg feed nFirst nFrames nPoll s t k)
    (hlong : jitterSlots * nFrames ≤ nPoll + prerollFrames cfg (rtpTs (feed.stream 0).pData) (feed.clock nPoll))
    (ht : t < jitterSlots * nFrames) (hk : t < k * nFrames) : Waits cfg feed nFirst nFrames nPoll s (t + 1) k := by
  obtain ⟨ms, htime, hprimed, hasleep⟩ := h.asleep hlong
  obtain ⟨hmay, hticked⟩ := hprimed.tick hasleep ht hk
  refine ⟨ms ++ [.tick], htime.snoc hmay, ?_⟩
  rwa [runMoves_snoc]

theorem Waits.arrive {s : Timed} {t k : Nat} (h : Waits cfg feed nFirst nFrames nPoll s t k)
    (hstream : Streams cfg nFrames nFirst feed) (hk : 0 < k) (hslot : k < jitterSlots) (hdue : k * nFrames ≤ t) :
    Waits cfg feed nFirst nFrames nPoll s t (k + 1) := by
  obtain ⟨ms, htime, hprimed⟩ := h
  refine ⟨ms ++ [.arrive], htime.snoc ?_, ?_⟩
  · rw [Timed.May, hprimed.arrived, hprimed.now]
    exact hdue
  · rw [runMoves_snoc]
    exact hprimed.arrive hstream hk hslot

/-- One packet time of the wait. -/
theorem Waits.ticks {s : Timed} {t k : Nat} (h : Waits cfg feed nFirst nFrames nPoll s t k)
    (hlong : jitterSlots * nFrames ≤ nPoll + prerollFrames cfg (rtpTs (feed.stream 0).pData) (feed.clock nPoll))
    (n : Nat) (hk : t + n ≤ k * nFrames) (hslot : k ≤ jitterSlots) :
    Waits cfg feed nFirst nFrames nPoll s (t + n) k := by
  have hle : k * nFrames ≤ jitterSlots * nFrames := Nat.mul_le_mul_right _ hslot
  induction n with
  | zero => exact h
  | succ n ih => exact (ih (by omega)).tick hlong (by omega) (by omega)

/-- While the wait lasts, packets on time arrive and none is played. -/
theorem waits_of_long (hstream : Streams cfg nFrames nFirst feed) (r : RtpReceiver)
    (hlong : jitterSlots * nFrames ≤ nPoll + prerollFrames cfg (rtpTs (feed.stream 0).pData) (feed.clock nPoll))
    (k : Nat) (hslot : k < jitterSlots) :
    Waits cfg feed nFirst nFrames nPoll (Timed.start cfg feed r 0 nPoll) ((k + 1) * nFrames) (k + 1) := by
  induction k with
  | zero =>
    have hstart : Waits cfg feed nFirst nFrames nPoll (Timed.start cfg feed r 0 nPoll) 0 1 :=
      ⟨[], admits_nil, Primed.start hstream r 0 nPoll⟩
    have := hstart.ticks hlong nFrames (by omega) (by omega)
    rw [Nat.zero_add, Nat.one_mul]
    rwa [Nat.zero_add] at this
  | succ k ih =>
    have harrived := (ih (by omega)).arrive hstream k.succ_pos (by omega) le_rfl
    have hmul : (k + 1) * nFrames + nFrames = (k + 1 + 1) * nFrames := by ring
    have := harrived.ticks hlong nFrames hmul.le hslot
    rwa [hmul] at this

/-- The packet that finds every slot taken overwrites the first, which still waits. -/
theorem overwrites_of_long (hstream : Streams cfg nFrames nFirst feed) (r : RtpReceiver)
    (hlong : jitterSlots * nFrames ≤ nPoll + prerollFrames cfg (rtpTs (feed.stream 0).pData) (feed.clock nPoll)) :
    ∃ ms, OnTime cfg nFrames feed (.start cfg feed r 0 nPoll) ms ∧
      ¬ WaitingKept cfg feed nFirst (.start cfg feed r 0 nPoll) ms := by
  obtain ⟨ms, htime, hprimed⟩ := waits_of_long hstream r hlong 1023 (by decide)
  have hmay : (runMoves cfg feed (.start cfg feed r 0 nPoll) ms).1.May cfg nFrames .arrive := by
    rw [Timed.May, hprimed.arrived, hprimed.now]
  refine ⟨ms ++ [.arrive], htime.snoc hmay, fun hkept => ?_⟩
  have hheld : Holds (runMoves cfg feed (.start cfg feed r 0 nPoll) ms).1.line.rx (shift nFirst (0 : Nat)) := by
    rw [Nat.cast_zero, shift_zero]
    exact hprimed.held
  have hpassed := hkept.last rfl 0 hprimed.arrived hheld
  rw [hprimed.idle] at hpassed
  exact absurd hpassed (lt_irrefl 0)

/-- What the receiver advertises as packet time is at least 6 frames and at most 192. -/
theorem framesPerPacket_bounds {dPacketTimeMs : ℚ} (hmin : 1 / 8 ≤ dPacketTimeMs) (hmax : dPacketTimeMs ≤ 4) :
    6 ≤ framesPerPacket dPacketTimeMs ∧ framesPerPacket dPacketTimeMs ≤ 192 := by
  have hlow : 6 ≤ ⌊(sampleRate : ℚ) * dPacketTimeMs / 1000⌋ := by
    rw [Int.le_floor]
    norm_num [sampleRate]
    linarith
  have hhigh : ⌊(sampleRate : ℚ) * dPacketTimeMs / 1000⌋ ≤ 192 := by
    have : (sampleRate : ℚ) * dPacketTimeMs / 1000 < 193 := by
      norm_num [sampleRate]
      linarith
    have := Int.floor_lt.mpr (by exact_mod_cast this : (sampleRate : ℚ) * dPacketTimeMs / 1000 < (193 : Int))
    omega
  simp only [framesPerPacket]
  split <;> omega

/-- No packet is overwritten while it waits, whatever the schedule, just when the
start-up wait is shorter than 1024 packet times. -/
theorem waiting_kept_iff {session : SdpSession} {nPlayoutDelayMs : Int} {nFrames : Nat} {nFirst : BitVec 16}
    {feed : Feed} {r : RtpReceiver} (hmin : 1 / 8 ≤ session.dPacketTimeMs) (hmax : session.dPacketTimeMs ≤ 4)
    (hframes : nFrames = framesPerPacket session.dPacketTimeMs ∨ nFrames = framesPerPacket session.dPacketTimeMs + 1)
    (hstream : Streams (.ofSession session nPlayoutDelayMs) nFrames nFirst feed) :
    (∀ nQueued ≤ nBuffer, ∀ nPoll ≤ pollFrames, ∀ ms,
      OnTime (.ofSession session nPlayoutDelayMs) nFrames feed
        (.start (.ofSession session nPlayoutDelayMs) feed r nQueued nPoll) ms →
      WaitingKept (.ofSession session nPlayoutDelayMs) feed nFirst
        (.start (.ofSession session nPlayoutDelayMs) feed r nQueued nPoll) ms) ↔
      StartFits (.ofSession session nPlayoutDelayMs) feed nFrames := by
  obtain ⟨hlow, hhigh⟩ := framesPerPacket_bounds hmin hmax
  have hbuffer : nBuffer = 4800 := rfl
  have hsize : (RxConfig.ofSession session nPlayoutDelayMs).nFramesPerPacket = framesPerPacket session.dPacketTimeMs :=
    rfl
  generalize RxConfig.ofSession session nPlayoutDelayMs = cfg at *
  constructor
  · intro hkept nPoll hpoll
    by_contra hlong
    obtain ⟨ms, htime, hlost⟩ := overwrites_of_long hstream r (not_lt.mp hlong)
    exact hlost (hkept 0 (Nat.zero_le _) nPoll hpoll ms htime)
  · intro hfits nQueued hqueued nPoll hpoll ms htime pre m post hsplit hm j hj hheld
    subst hsplit hm
    have hpre : OnTime cfg nFrames feed (.start cfg feed r nQueued nPoll) pre := htime.of_append
    have hpaced := Paced.run hstream (by omega) (by omega) (by omega) hfits
      (Paced.start hstream (by omega) hqueued hpoll) hpre
    exact hpaced.passed_lt (htime _ _ _ rfl) hj

/-- A stream of silence for a receiver without a PTP clock. -/
def silentFeed (nFrames : Nat) : Feed where
  stream n := ⟨.primary, silentPacket (shift 0 n) nFrames, 0⟩
  clock _ := .unsynced

theorem silentFeed_streams (dPacketTimeMs : ℚ) (nPlayoutDelayMs : Int) {nFrames : Nat} (hframes : 0 < nFrames) :
    Streams (.ofSession { dPacketTimeMs := dPacketTimeMs } nPlayoutDelayMs) nFrames 0 (silentFeed nFrames) :=
  fun n => carries_silentPacket rfl rfl hframes .primary (shift 0 n) 0

/-- With the default playout delay of 20 ms and packets of 1 ms nothing is lost. -/
theorem twentyMs_kept : StartFits (.ofSession {} 20) (silentFeed 48) 48 ∧
    ∀ nQueued ≤ nBuffer, ∀ nPoll ≤ pollFrames, ∀ ms,
      OnTime (.ofSession {} 20) 48 (silentFeed 48) (.start (.ofSession {} 20) (silentFeed 48) {} nQueued nPoll) ms →
        WaitingKept (.ofSession {} 20) (silentFeed 48) 0
          (.start (.ofSession {} 20) (silentFeed 48) {} nQueued nPoll) ms := by
  have hframes : framesPerPacket 1 = 48 := by
    norm_num [framesPerPacket, sampleRate]
    rfl
  have hfits : StartFits (.ofSession {} 20) (silentFeed 48) 48 := by
    intro nPoll hpoll
    have hsleep : prerollFrames (.ofSession {} 20) (rtpTs ((silentFeed 48).stream 0).pData)
        ((silentFeed 48).clock nPoll) = 960 := rfl
    have hslots : jitterSlots * 48 = 49152 := rfl
    have hlook : pollFrames = 480 := rfl
    omega
  have hstream := silentFeed_streams 1 20 (by decide : 0 < 48)
  exact ⟨hfits, (waiting_kept_iff (by norm_num) (by norm_num) (Or.inl hframes.symm) hstream).mpr hfits⟩

/-- With a playout delay of 500 ms and packets of 0.125 ms, 4000 packets come
before playout starts. -/
theorem halfSecond_overwrites : ∃ nPoll ≤ pollFrames, ∃ ms,
    OnTime (.ofSession { dPacketTimeMs := 1 / 8 } 500) 6 (silentFeed 6)
        (.start (.ofSession { dPacketTimeMs := 1 / 8 } 500) (silentFeed 6) {} 0 nPoll) ms ∧
      ¬ WaitingKept (.ofSession { dPacketTimeMs := 1 / 8 } 500) (silentFeed 6) 0
        (.start (.ofSession { dPacketTimeMs := 1 / 8 } 500) (silentFeed 6) {} 0 nPoll) ms := by
  have hsleep : prerollFrames (.ofSession { dPacketTimeMs := 1 / 8 } 500) (rtpTs ((silentFeed 6).stream 0).pData)
      ((silentFeed 6).clock 0) = 24000 := rfl
  refine ⟨0, Nat.zero_le _, overwrites_of_long (silentFeed_streams (1 / 8) 500 (by decide)) {} ?_⟩
  rw [hsleep]
  decide

end PiAudioNode.Rtp
