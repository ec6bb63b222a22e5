import PiAudioNode.Ptp.Convergence
import PiAudioNode.Ptp.Mapping
import PiAudioNode.Ptp.Pairing

/-! The clock on a master that tells the truth over a path that takes as long either way:
its messages move the filters, and the clock closes in on the master. -/
namespace PiAudioNode.Ptp
open Lib

/-- The times fit an offset `O` and a path delay `D`. -/
def Sample.TrueOn (O D : ℚ) : Sample → Prop
  | .offset nT1 nT2 => ((nT1 - nT2).toInt : ℚ) = O - D
  | .pathDelay nT4 nT3 => ((nT4 - nT3).toInt : ℚ) = O + D

instance (O D : ℚ) : (s : Sample) → Decidable (s.TrueOn O D)
  | .offset .. => inferInstanceAs (Decidable (_ = _))
  | .pathDelay .. => inferInstanceAs (Decidable (_ = _))

deriving instance DecidableEq for Heard

def Sample.heard : Sample → Heard
  | .offset .. => .measurement
  | .pathDelay .. => .delayResp

/-- What an event is to the filters. -/
def movesOf (c : PtpClock) (e : ClockEvent) : List (Option Heard) :=
  match (clockStep c e).2 with
  | some s => [some s.heard]
  | none =>
    if (clockStep c e).1.qOffsetWindow = c.qOffsetWindow ∧ (clockStep c e).1.bSynced = c.bSynced then [] else [none]

def movesIn : PtpClock → List ClockEvent → List (Option Heard)
  | _, [] => []
  | c, e :: es => movesOf c e ++ movesIn (clockStep c e).1 es

/-- The times are true and the master stays; sync may be lost once the path delay is known. -/
structure Steady (O D : ℚ) (c : PtpClock) (e : ClockEvent) : Prop where
  times : ∀ s ∈ (clockStep c e).2, s.TrueOn O D
  stays : c.bHaveDelay → (clockStep c e).1.bHaveDelay
  starts : ¬ c.bHaveDelay → none ∉ movesOf c e

instance (O D : ℚ) (c : PtpClock) (e : ClockEvent) : Decidable (Steady O D c e) :=
  decidable_of_iff ((∀ s ∈ (clockStep c e).2, s.TrueOn O D) ∧ (c.bHaveDelay → (clockStep c e).1.bHaveDelay) ∧
      (¬ c.bHaveDelay → none ∉ movesOf c e))
    ⟨fun h => ⟨h.1, h.2.1, h.2.2⟩, fun h => ⟨h.times, h.stays, h.starts⟩⟩

def SteadyRun (O D : ℚ) : PtpClock → List ClockEvent → Prop
  | _, [] => True
  | c, e :: es => Steady O D c e ∧ SteadyRun O D (clockStep c e).1 es

instance decidableSteadyRun (O D : ℚ) : (c : PtpClock) → (es : List ClockEvent) → Decidable (SteadyRun O D c es)
  | _, [] => inferInstanceAs (Decidable True)
  | c, e :: es =>
    have := decidableSteadyRun O D (clockStep c e).1 es
    inferInstanceAs (Decidable (Steady O D c e ∧ SteadyRun O D (clockStep c e).1 es))

def clockRun (c : PtpClock) (es : List ClockEvent) : PtpClock := run (fun c e => (clockStep c e).1) c es

/-- The fields the filters work on. -/
structure SameServo (c d : PtpClock) : Prop extends SameMapping c d where
  delay : c.dMeanPathDelayNs = d.dMeanPathDelayNs
  haveDelay : c.bHaveDelay = d.bHaveDelay
  mapping : c.nMappingNs = d.nMappingNs

section Servo
variable {c d : PtpClock} {O D : ℚ}

theorem SameServo.refl (c : PtpClock) : SameServo c c := ⟨⟨rfl, rfl, rfl⟩, rfl, rfl, rfl⟩

theorem SameServo.trans {e : PtpClock} (h : SameServo c d) (h' : SameServo d e) : SameServo c e :=
  ⟨⟨h.window.trans h'.window, h.offset.trans h'.offset, h.synced.trans h'.synced⟩, h.delay.trans h'.delay,
    h.haveDelay.trans h'.haveDelay, h.mapping.trans h'.mapping⟩

theorem SameServo.addOffsetSample (h : SameServo c d) (dOffsetNs : ℚ) :
    SameServo (addOffsetSample c dOffsetNs) (addOffsetSample d dOffsetNs) := by
  refine ⟨sameMapping_addOffsetSample h.toSameMapping dOffsetNs, by simpa using h.delay, by simpa using h.haveDelay, ?_⟩
  have hpush : pushOffset c.qOffsetWindow c.dSmoothedOffsetNs dOffsetNs =
      pushOffset d.qOffsetWindow d.dSmoothedOffsetNs dOffsetNs := by rw [h.window, h.offset]
  by_cases hlong : 4 ≤ (pushOffset d.qOffsetWindow d.dSmoothedOffsetNs dOffsetNs).length
  · simp only [PiAudioNode.Ptp.addOffsetSample, hpush, if_pos hlong]
    rw [h.offset, h.synced]
  · simp only [PiAudioNode.Ptp.addOffsetSample, hpush, if_neg hlong]
    exact h.mapping

theorem SameServo.addM2S (h : SameServo c d) (dM2S : ℚ) : SameServo (addM2S c dM2S) (addM2S d dM2S) := by
  have hadded := h.addOffsetSample (dM2S + if d.bHaveDelay then d.dMeanPathDelayNs else 0)
  rw [PiAudioNode.Ptp.addM2S, PiAudioNode.Ptp.addM2S, h.haveDelay, h.delay]
  exact ⟨⟨hadded.window, hadded.offset, hadded.synced⟩, hadded.delay, hadded.haveDelay, hadded.mapping⟩

theorem SameServo.addS2M (h : SameServo c d) (dS2M : ℚ) : SameServo (addS2M c dS2M) (addS2M d dS2M) := by
  have hbelieved : Plausible c dS2M ↔ Plausible d dS2M := by rw [Plausible, Plausible, delayOf, delayOf, h.offset]
  simp only [PiAudioNode.Ptp.addS2M, hbelieved]
  by_cases hrange : Plausible d dS2M
  · rw [if_pos hrange, if_pos hrange]
    exact ⟨⟨h.window, h.offset, h.synced⟩, by simp only [delayOf, h.offset, h.delay, h.haveDelay], rfl, h.mapping⟩
  · rw [if_neg hrange, if_neg hrange]
    exact h

theorem SameServo.move (h : SameServo c d) (m : Option Heard) : SameServo (move O D c m) (move O D d m) := by
  cases m with
  | none => exact ⟨⟨rfl, h.offset, rfl⟩, h.delay, h.haveDelay, h.mapping⟩
  | some e =>
    cases e with
    | measurement => exact h.addM2S _
    | delayResp => exact h.addS2M _

theorem Tracks.of_same {M : ℚ} (h : Tracks O D M d) (hsame : SameServo c d) : Tracks O D M c := by
  refine ⟨⟨?_, ?_, ?_⟩, ?_, ?_, ?_⟩
  · rw [hsame.offset]
    exact h.within.offset
  · rw [hsame.haveDelay, hsame.delay]
    exact h.within.delay
  · rw [hsame.window]
    exact h.within.window
  · rw [hsame.haveDelay]
    exact h.haveDelay
  · rw [hsame.window]
    exact h.short
  · rw [hsame.mapping, hsame.offset]
    exact h.mapping

end Servo

section Moves
variable {c : PtpClock} {e : ClockEvent} {O D : ℚ}

/-- What an event without a sample may do to the client: keep what was measured, lose
sync, or lose the master and with it the path delay. -/
def LosesSync (c d : PtpClient) : Prop :=
  d.bHaveDelay → c.bHaveDelay ∧
    ((d.qOffsetWindow = c.qOffsetWindow ∧ d.bSynced = c.bSynced) ∨ (d.qOffsetWindow = [] ∧ d.bSynced = false))

theorem LosesSync.refl (c : PtpClient) : LosesSync c c := fun h => ⟨h, Or.inl ⟨rfl, rfl⟩⟩

theorem LosesSync.runBmca {c d : PtpClient} (h : LosesSync c d) (t : ForeignTable) :
    LosesSync c (runBmca { d with mForeign := t }) := by
  unfold PiAudioNode.Ptp.runBmca changeMaster
  dsimp only
  split
  · exact h
  · exact fun hdelay => absurd hdelay Bool.false_ne_true

theorem losesSync_timerTick (c : PtpClient) (now : Time) : LosesSync c (timerTick c now) := by
  refine timerTick_keeps (fun d id h => h.runBmca _) (fun d h => ?_) (.refl c) now
  exact fun hdelay => ⟨(h hdelay).1, Or.inr ⟨rfl, rfl⟩⟩

/-- An event without a sample. -/
structure NoSample (c d : PtpClock) : Prop where
  offset : d.dSmoothedOffsetNs = c.dSmoothedOffsetNs
  delay : d.dMeanPathDelayNs = c.dMeanPathDelayNs
  mapping : d.nMappingNs = c.nMappingNs
  loses : LosesSync c.toPtpClient d.toPtpClient

theorem noSample (h : (clockStep c e).2 = none) : NoSample c (clockStep c e).1 := by
  cases e with
  | rx m =>
    have hfollow : ¬ FollowUpTaken c m := by
      intro hf
      rw [hf.step] at h
      cases h
    have hresp : ¬ DelayRespTaken c m := by
      intro hr
      rw [hr.step] at h
      cases h
    by_cases hsync : SyncTaken c m
    · have htwo : TwoStep m.pData := by
        by_contra hone
        rw [hsync.step, if_neg hone] at h
        cases h
      rw [hsync.step, if_pos htwo]
      exact ⟨rfl, rfl, rfl, fun hdelay => ⟨hdelay, Or.inl ⟨rfl, rfl⟩⟩⟩
    · rcases clockStep_not_taken hsync hfollow hresp with hstep | hstep
      · rw [hstep]
        exact ⟨rfl, rfl, rfl, .refl _⟩
      · rw [hstep]
        refine ⟨rfl, rfl, rfl, ?_⟩
        unfold handleAnnounce
        split
        · exact .refl _
        · exact (LosesSync.refl _).runBmca _
  | tick now => exact ⟨rfl, rfl, rfl, losesSync_timerTick _ now⟩
  | sendDelayReq nTxNs => exact ⟨rfl, rfl, rfl, .refl _⟩
  | setDomain nDomain =>
    rw [clockStep, setDomain]
    split
    · exact ⟨rfl, rfl, rfl, .refl _⟩
    · exact ⟨rfl, rfl, rfl, fun hdelay => absurd hdelay Bool.false_ne_true⟩

/-- A sample moves the filters by what was heard. -/
theorem clockStep_sample {s : Sample} (h : (clockStep c e).2 = some s) (hs : s.TrueOn O D) :
    SameServo (clockStep c e).1 (heardStep O D c s.heard) := by
  cases e with
  | rx m =>
    rcases sample_iff.mp h with ⟨hsync, htwo, rfl⟩ | ⟨hfollow, rfl⟩ | ⟨hresp, rfl⟩
    · have hrecorded : SameServo
          { c with lastSyncSeen := m.now, nSyncSeq := sequenceId m.pData, nSyncRxNs := m.nRxNs } c :=
        ⟨⟨rfl, rfl, rfl⟩, rfl, rfl, rfl⟩
      rw [hsync.step, if_neg htwo, completeMeasurement, hs]
      exact hrecorded.addM2S _
    · have hawaited : SameServo { c with bAwaitFollowUp := false } c := ⟨⟨rfl, rfl, rfl⟩, rfl, rfl, rfl⟩
      rw [hfollow.step, completeMeasurement, hs]
      exact hawaited.addM2S _
    · rw [hresp.step, hs]
      exact .refl _
  | tick now => cases h
  | sendDelayReq nTxNs => cases h
  | setDomain nDomain => cases h

theorem Steady.same (h : Steady O D c e) {d : PtpClock} (hsame : SameServo c d) :
    SameServo (clockStep c e).1 (run (move O D) d (movesOf c e)) := by
  have hstarts := h.starts
  unfold movesOf at hstarts ⊢
  cases hsample : (clockStep c e).2 with
  | some s => exact (clockStep_sample hsample (h.times s hsample)).trans (hsame.move (some s.heard))
  | none =>
    have hno := noSample hsample
    rw [hsample] at hstarts
    dsimp only at hstarts ⊢
    split_ifs at hstarts ⊢ with hkept
    · refine SameServo.trans ⟨⟨hkept.1, hno.offset, hkept.2⟩, hno.delay, ?_, hno.mapping⟩ hsame
      rw [Bool.eq_iff_iff]
      exact ⟨fun hdelay => (hno.loses hdelay).1, h.stays⟩
    · have hdelay : c.bHaveDelay := by
        by_contra hnone
        exact hstarts hnone List.mem_cons_self
      have hnext := h.stays hdelay
      obtain ⟨hempty, hlost⟩ := (hno.loses hnext).2.resolve_left hkept
      have hdropped : SameServo (clockStep c e).1 (dropSync c) :=
        ⟨⟨hempty, hno.offset, hlost⟩, hno.delay, hnext.trans hdelay.symm, hno.mapping⟩
      exact hdropped.trans (hsame.move (O := O) (D := D) none)

/-- The clock does what the filters do with what it heard. -/
theorem SteadyRun.same {es : List ClockEvent} (h : SteadyRun O D c es) {d : PtpClock} (hsame : SameServo c d) :
    SameServo (clockRun c es) (run (move O D) d (movesIn c es)) := by
  induction es generalizing c d with
  | nil => exact hsame
  | cons e es ih =>
    obtain ⟨hsteady, hrest⟩ := h
    rw [movesIn, run_append]
    exact ih hrest (hsteady.same hsame)

end Moves

/-- The mapping is the offset without its fraction. -/
theorem truncate_near (d : ℚ) : |(truncate d : ℚ) - d| ≤ 1 := by
  have hden : (0 : Int) < d.den := Int.natCast_pos.mpr d.den_pos
  have hsplit : d.num.tdiv d.den * d.den + d.num.tmod d.den = d.num := Int.tdiv_mul_add_tmod ..
  have hhigh : d.num.tmod d.den < d.den := Int.tmod_lt_of_pos _ hden
  have hlow : - (d.den : Int) < d.num.tmod d.den := by
    have hneg := Int.tmod_lt_of_pos (-d.num) hden
    rw [Int.neg_tmod] at hneg
    omega
  have hrest : (truncate d : ℚ) - d = - ((d.num.tmod d.den : Int) : ℚ) / d.den := by
    have hcast : (d.num.tdiv d.den : ℚ) * d.den + (d.num.tmod d.den : Int) = d.num := by exact_mod_cast hsplit
    have hne : (d.den : ℚ) ≠ 0 := by exact_mod_cast d.den_nz
    rw [truncate, eq_div_iff hne, sub_mul, Rat.mul_den_eq_num, ← hcast]
    ring
  have hpos : (0 : ℚ) < d.den := by exact_mod_cast hden
  rw [hrest, abs_div, abs_neg, abs_of_pos hpos, div_le_one hpos, abs_le]
  constructor
  · exact_mod_cast hlow.le
  · exact_mod_cast hhigh.le

section Mapping
variable {O D M : ℚ} {c : PtpClock} {e : ClockEvent}

theorem Tracks.mapping_near (h : Tracks O D M c) : |(c.nMappingNs : ℚ) - O| ≤ M + 1 := by
  rw [h.mapping]
  calc |((truncate c.dSmoothedOffsetNs : Int) : ℚ) - O|
      ≤ |((truncate c.dSmoothedOffsetNs : Int) : ℚ) - c.dSmoothedOffsetNs| + |c.dSmoothedOffsetNs - O| := abs_sub_le _ _ _
    _ ≤ 1 + M := add_le_add (truncate_near _) h.within.offset
    _ = M + 1 := add_comm _ _

theorem Tracks.steady (h : Tracks O D M c) (hM : M ≤ D) (hpath : D ≤ longestPath) (hsteady : Steady O D c e) :
    Tracks O D M (clockStep c e).1 := by
  have hmoved : Tracks O D M (Lib.run (PiAudioNode.Ptp.move O D) c (movesOf c e)) :=
    invariant h (fun _ m hc => hc.move hM hpath m) (movesOf c e)
  exact hmoved.of_same (hsteady.same (.refl c))

/-- The clock has locked on to a true master over a path of at most 25 ms, and been
through `n` rounds since. -/
structure ClosedIn (O D : ℚ) (K n : Nat) (c : PtpClock) : Prop where
  nonneg : 0 ≤ D
  path : D ≤ longestPath
  run : ∃ (c₀ : PtpClock) (es : List ClockEvent) (ms : List (Option Heard)), Unmeasured c₀ ∧ SteadyRun O D c₀ es ∧
    movesIn c₀ es = lockOn ++ ms ∧ Rounds K n ms ∧ clockRun c₀ es = c

theorem ClosedIn.tracks {K n : Nat} (h : ClosedIn O D K n c) : Tracks O D (shrink K ^ n * D) c := by
  obtain ⟨c₀, es, ms, hc, hes, hms, hrounds, rfl⟩ := h.run
  have hsame := hes.same (.refl c₀)
  rw [hms, run_append] at hsame
  exact ((tracks_lockOn hc h.nonneg h.path).rounds h.path hrounds).of_same hsame

theorem ClosedIn.bound {K n : Nat} (h : ClosedIn O D K n c) : shrink K ^ n * D ≤ D := by
  have hshrink := shrink_mem K
  exact mul_le_of_le_one_left h.nonneg (pow_le_one₀ hshrink.1 hshrink.2.le)

end Mapping

/-- Once it has locked on to a true master over a path of at most 25 ms, the clock is off by
no more than the path delay, and every round takes its part of the error away. -/
theorem closes_in {O D : ℚ} {c : PtpClock} {es : List ClockEvent} {ms : List (Option Heard)} {K n : Nat} (hD : 0 ≤ D)
    (hpath : D ≤ longestPath) (hc : Unmeasured c) (hes : SteadyRun O D c es) (hms : movesIn c es = lockOn ++ ms)
    (hrounds : Rounds K n ms) : Within O D (shrink K ^ n * D) (clockRun c es) ∧
      |((clockRun c es).nMappingNs : ℚ) - O| ≤ shrink K ^ n * D + 1 := by
  have hclosed : ClosedIn O D K n (clockRun c es) := ⟨hD, hpath, c, es, ms, hc, hes, hms, hrounds, rfl⟩
  exact ⟨hclosed.tracks.within, hclosed.tracks.mapping_near⟩

/-- Master 1 is 40 ns ahead and 10 ns away. -/
def trueSync : ClockEvent := received (syncFrom 0 1 5 130) 100

def oneRound : List ClockEvent :=
  List.replicate 4 trueSync ++ [received (delayRespFrom 1 1 150) 0] ++ List.replicate 17 trueSync ++
    [.sendDelayReq 100, received (delayRespFrom 1 2 150) 0] ++ List.replicate 17 trueSync

theorem oneRound_unmeasured : Unmeasured (clockAfter 0 (clockOf 9) requested) := by
  constructor
  · decide +kernel
  · decide +kernel
  · decide +kernel

theorem oneRound_steady : SteadyRun 40 10 (clockAfter 0 (clockOf 9) requested) oneRound := by decide +kernel

def roundMoves : List (Option Heard) :=
  (List.replicate 17 Heard.measurement ++ .delayResp :: List.replicate 17 Heard.measurement).map some

theorem oneRound_moves : movesIn (clockAfter 0 (clockOf 9) requested) oneRound = lockOn ++ roundMoves := by decide +kernel

theorem oneRound_rounds : Rounds 1 1 roundMoves :=
  .round (List.replicate 17 .measurement) (List.replicate 17 .measurement) .start (by decide) (by decide) (by decide)

theorem path_of_ten_nanoseconds : (10 : ℚ) ≤ longestPath := by norm_num [longestPath, offsetJump]

theorem oneRound_closed : ClosedIn 40 10 1 1 (clockRun (clockAfter 0 (clockOf 9) requested) oneRound) :=
  ⟨by norm_num, path_of_ten_nanoseconds, _, _, _, oneRound_unmeasured, oneRound_steady, oneRound_moves, oneRound_rounds, rfl⟩

theorem oneRound_closes_in :
    Within 40 10 (shrink 1 ^ 1 * 10) (clockRun (clockAfter 0 (clockOf 9) requested) oneRound) ∧
      |((clockRun (clockAfter 0 (clockOf 9) requested) oneRound).nMappingNs : ℚ) - 40| ≤ shrink 1 ^ 1 * 10 + 1 :=
  closes_in (by norm_num) path_of_ten_nanoseconds oneRound_unmeasured oneRound_steady oneRound_moves oneRound_rounds

end PiAudioNode.Ptp
