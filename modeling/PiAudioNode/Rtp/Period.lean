import PiAudioNode.Rtp.Receiver

/-! One packet period at a time: a packet arrives, ALSA takes one packet's worth
of frames from its queue, and the playout thread runs until it waits. -/
namespace PiAudioNode.Rtp
open Lib

/-- The engine and the frames queued in ALSA. -/
structure Line where
  rx : RtpReceiver
  nQueued : Nat

def Outcome.frames : Outcome → Nat
  | .played _ vSamples | .concealed _ vSamples => vSamples.length
  | .accepted .. | .duplicate .. | .anchored _ | .dropped _ => 0

/-- The frames that a report shows written to ALSA. -/
def written (outs : List Outcome) : Nat := (outs.map Outcome.frames).sum

/-- The playout thread to its next sleep or iteration. What it writes is queued
when drift steering reads the level. -/
def turn (cfg : RxConfig) (l : Line) : Line × List Outcome :=
  let nLevel := l.nQueued + written (playoutStep cfg l.nQueued l.nQueued l.rx).2
  let x := playoutStep cfg l.nQueued nLevel l.rx
  (⟨x.1, nLevel⟩, x.2)

/-- The playout thread sleeps, and nothing it waits for has happened yet. -/
def Waiting (r : RtpReceiver) : Prop :=
  match r.playout with
  | .loop => False
  | .preroll | .napping => True
  | .awaitFirst | .parked => r.bHaveFirst = false

instance (r : RtpReceiver) : Decidable (Waiting r) := by
  unfold Waiting
  split <;> infer_instance

def runToWait (cfg : RxConfig) : Nat → Line → Line × List Outcome
  | 0, l => (l, [])
  | n + 1, l => if Waiting l.rx then (l, []) else andThen (turn cfg l) (runToWait cfg n)

structure Arrival where
  nLeg : Leg
  pData : Bytes
  now : Time

def deliver (cfg : RxConfig) (a : Arrival) (l : Line) : Line × List Outcome :=
  let x := step cfg l.rx (.packet a.nLeg a.pData a.now)
  (⟨x.1, l.nQueued⟩, x.2)

def consume (cfg : RxConfig) (l : Line) : Line := { l with nQueued := l.nQueued - cfg.nFramesPerPacket }

/-- More iterations than the slots and a dry queue can ask for. -/
def periodTurns : Nat := 2 * jitterSlots

def period (cfg : RxConfig) (a : Arrival) (l : Line) : Line × List Outcome :=
  andThen (deliver cfg a l) fun l => andThen (turn cfg (consume cfg l)) (runToWait cfg periodTurns)

/-- The line and its report after the first periods of a stream. -/
def lineAt (cfg : RxConfig) (l : Line) (stream : Nat → Arrival) : Nat → Line × List Outcome
  | 0 => (l, [])
  | n + 1 => andThen (lineAt cfg l stream n) (period cfg (stream n))

/-- A packet of the stream is played in the given period, counted from 0. -/
def PlaysIn (cfg : RxConfig) (l : Line) (stream : Nat → Arrival) (n : Nat) : Prop :=
  ∃ o ∈ (period cfg (stream n) (lineAt cfg l stream n).1).2, o.isPlayed

/-- The receiver takes the packet under a number, with this many frames. -/
structure Carries (cfg : RxConfig) (nFrames : Nat) (nSeq : BitVec 16) (a : Arrival) : Prop where
  size : 12 < a.pData.length
  rtp : isRtp a.pData
  seq : rtpSeq a.pData = nSeq
  frames : payloadFrames cfg.session a.pData = nFrames
  whole : 0 < payloadFrames cfg.session a.pData

/-- Lossless and in order, the first number following the given one. -/
def InOrder (cfg : RxConfig) (nBefore : BitVec 16) (stream : Nat → Arrival) : Prop :=
  ∀ n, Carries cfg cfg.nFramesPerPacket (nBefore + BitVec.ofNat 16 (n + 1)) (stream n)

theorem lineAt_succ_fst (cfg : RxConfig) (l : Line) (stream : Nat → Arrival) (n : Nat) :
    (lineAt cfg l stream (n + 1)).1 = (period cfg (stream n) (lineAt cfg l stream n).1).1 := by
  rw [lineAt, andThen_fst]

theorem lineAt_succ_snd (cfg : RxConfig) (l : Line) (stream : Nat → Arrival) (n : Nat) :
    (lineAt cfg l stream (n + 1)).2 =
      (lineAt cfg l stream n).2 ++ (period cfg (stream n) (lineAt cfg l stream n).1).2 := by
  rw [lineAt, andThen_snd]

def playLine (l : Line) : Line × List Outcome :=
  (⟨(play l.rx).1, l.nQueued + (l.rx.vJitter (slotOf l.rx.nNextSeq)).vSamples.length⟩, (play l.rx).2)

def concealLine (cfg : RxConfig) (l : Line) : Line × List Outcome :=
  (⟨(conceal cfg l.rx).1, l.nQueued + cfg.nFramesPerPacket⟩, (conceal cfg l.rx).2)

def steerLine (cfg : RxConfig) (l : Line) : Line × List Outcome :=
  (⟨(steer cfg l.nQueued l.rx).1, l.nQueued⟩, (steer cfg l.nQueued l.rx).2)

/-- The number playout stands at leaves its slot unplayed. -/
def dropLine (l : Line) : Line := { l with rx := { release l.rx l.rx.nNextSeq with nNextSeq := l.rx.nNextSeq + 1 } }

def napLine (l : Line) : Line := { l with rx := { l.rx with playout := .napping } }

def wakeLine (l : Line) : Line := { l with rx := { l.rx with playout := .loop } }

variable {cfg : RxConfig} {l : Line}

/-- A packet with frames goes to its slot, or is discarded as a copy. -/
theorem Carries.deliver {nFrames : Nat} {nSeq : BitVec 16} {a : Arrival} (h : Carries cfg nFrames nSeq a) (l : Line) :
    deliver cfg a l =
      (⟨(merge (noteArrival l.rx a.nLeg nSeq a.now) a.nLeg nSeq (rtpTs a.pData)
          (decodeFrames cfg.session l.rx.monitor a.pData)).1, l.nQueued⟩,
        (merge (noteArrival l.rx a.nLeg nSeq a.now) a.nLeg nSeq (rtpTs a.pData)
          (decodeFrames cfg.session l.rx.monitor a.pData)).2) := by
  have hsome : decodeFrames cfg.session l.rx.monitor a.pData ≠ [] := by
    intro he
    have hlen := decodeFrames_length cfg.session l.rx.monitor a.pData
    rw [he, List.length_nil] at hlen
    have := h.whole
    omega
  simp only [Rtp.deliver, step, handlePacket]
  rw [if_pos h.size, if_neg (by simp [h.rtp]), if_neg hsome, h.seq]

theorem Carries.length {nFrames : Nat} {nSeq : BitVec 16} {a : Arrival} (h : Carries cfg nFrames nSeq a)
    (monitor : Monitor) : (decodeFrames cfg.session monitor a.pData).length = nFrames := by
  rw [decodeFrames_length, h.frames]

theorem carries_silentPacket (hbytes : bytesPerSample cfg.session = 3) (hchannels : channels cfg.session = 2)
    {nFrames : Nat} (hframes : 0 < nFrames) (nLeg : Leg) (nSeq : BitVec 16) (now : Time) :
    Carries cfg nFrames nSeq ⟨nLeg, silentPacket nSeq nFrames, now⟩ := by
  have hpayload := payloadFrames_silentPacket hbytes hchannels nSeq nFrames
  refine ⟨?_, isRtp_silentPacket _ _, rtpSeq_silentPacket _ _, hpayload, ?_⟩
  · rw [length_silentPacket]
    omega
  · rwa [hpayload]

theorem written_append (outs more : List Outcome) : written (outs ++ more) = written outs + written more := by
  simp [written]

/-- Drift steering writes nothing. -/
@[simp] theorem written_steer (nDrift : Int) (r : RtpReceiver) : written (steer cfg nDrift r).2 = 0 := by
  unfold steer
  split <;> rfl

/-- An iteration whose writes come before drift steering. -/
theorem turn_steered {x : RtpReceiver × List Outcome}
    (h : ∀ nDrift, playoutStep cfg l.nQueued nDrift l.rx = andThen x (steer cfg nDrift)) :
    turn cfg l = andThen (⟨x.1, l.nQueued + written x.2⟩, x.2) (steerLine cfg) := by
  have hwritten (nDrift : Int) : written (andThen x (steer cfg nDrift)).2 = written x.2 := by
    rw [andThen_snd, written_append, written_steer, Nat.add_zero]
  unfold turn
  dsimp only
  rw [h, h, hwritten, andThen_fst, andThen_snd, andThen, steerLine]

theorem turn_plain {x : RtpReceiver × List Outcome} (h : ∀ nDrift, playoutStep cfg l.nQueued nDrift l.rx = x) :
    turn cfg l = (⟨x.1, l.nQueued + written x.2⟩, x.2) := by
  simp only [turn, h]

theorem turn_held (hloop : l.rx.playout = .loop) (hheld : Holds l.rx l.rx.nNextSeq) :
    turn cfg l = andThen (playLine l) (steerLine cfg) := by
  rw [turn_steered fun nDrift => by simp only [playoutStep, hloop, hheld, if_true]; rfl]
  rfl

theorem turn_nap (hloop : l.rx.playout = .loop) (hfree : ¬ Holds l.rx l.rx.nNextSeq) (hrx : l.rx.bReceiving = true)
    (hq : 2 * cfg.nFramesPerPacket < l.nQueued) :
    turn cfg l = (napLine l, []) := by
  have hq' : 2 * (cfg.nFramesPerPacket : Int) < l.nQueued := by omega
  have hnap : ∀ nDrift, playoutStep cfg l.nQueued nDrift l.rx = ({ l.rx with playout := .napping }, []) := by
    intro nDrift
    simp only [playoutStep, hloop]
    rw [if_neg hfree, if_pos hrx, if_pos hq']
  rw [turn_plain hnap]
  rfl

theorem turn_conceal (hloop : l.rx.playout = .loop) (hfree : ¬ Holds l.rx l.rx.nNextSeq)
    (hrx : l.rx.bReceiving = true) (hq : l.nQueued ≤ 2 * cfg.nFramesPerPacket) :
    turn cfg l = andThen (concealLine cfg l) (steerLine cfg) := by
  have hq' : ¬ 2 * (cfg.nFramesPerPacket : Int) < l.nQueued := by omega
  rw [turn_steered fun nDrift => by simp only [playoutStep, hloop, hfree, hrx, hq', if_true, if_false]; rfl]
  simp [concealLine, conceal, written, Outcome.frames, RxConfig.vSilence]

theorem turn_wake (hnap : l.rx.playout = .napping)
    (hwait : ¬ (Newer l.rx ∧ (l.nQueued : Int) < cfg.nTargetDelayFrames / 2)) :
    turn cfg l = steerLine cfg (wakeLine l) := by
  rw [turn_steered fun nDrift => by simp only [playoutStep, hnap, hwait, if_false]; rfl]
  simp [wake, written, andThen, wakeLine]

theorem turn_wake_conceal (hnap : l.rx.playout = .napping)
    (hlost : Newer l.rx ∧ (l.nQueued : Int) < cfg.nTargetDelayFrames / 2) :
    turn cfg l = andThen (concealLine cfg (wakeLine l)) (steerLine cfg) := by
  rw [turn_steered fun nDrift => by
    simp only [playoutStep, hnap, hlost, and_self, if_true, wake, andThen, List.nil_append]; rfl]
  simp [concealLine, conceal, written, Outcome.frames, RxConfig.vSilence, wakeLine]

/-- Drift steering does nothing, or drops the next number of an overfull queue. -/
theorem steerLine_cases (cfg : RxConfig) (l : Line) : steerLine cfg l = (l, []) ∨
    (cfg.nTargetDelayFrames + 4 * cfg.nFramesPerPacket < l.nQueued ∧ Holds l.rx l.rx.nNextSeq ∧
      steerLine cfg l = (dropLine l, [.dropped l.rx.nNextSeq])) := by
  unfold steerLine steer
  split
  · exact Or.inr ⟨(‹_ ∧ _›).1, (‹_ ∧ _›).2, rfl⟩
  · exact Or.inl rfl

theorem steerLine_low (h : (l.nQueued : Int) ≤ cfg.nTargetDelayFrames + 4 * cfg.nFramesPerPacket) :
    steerLine cfg l = (l, []) := by
  rcases steerLine_cases cfg l with hs | ⟨hover, _⟩
  · exact hs
  · omega

theorem steerLine_free (h : ¬ Holds l.rx l.rx.nNextSeq) : steerLine cfg l = (l, []) := by
  rcases steerLine_cases cfg l with hs | ⟨_, hheld, _⟩
  · exact hs
  · exact absurd hheld h

end PiAudioNode.Rtp
