import PiAudioNode.Ptp.FalseLock

/-! How the coupled filters close in on the truth: a delay response between two stretches of
measurements, each longer than the window, takes a fixed part off the largest error. -/
namespace PiAudioNode.Ptp
open Lib

/-- The path delay up to which a true measurement is never taken for a jump. -/
def longestPath : ℚ := offsetJump / 2

/-- How far below the largest error the path delay is, as a part of it, after `n` more delay
responses. -/
def calmed (n : Nat) : ℚ := 1 - (9 / 10) ^ n / 51

/-- What a round with `K` delay responses leaves of the largest error. -/
def shrink (K : Nat) : ℚ := 9 / 10 + calmed K / 10

def Heard.isDelay : Heard → Bool
  | .measurement => false
  | .delayResp => true

def delays (hs : List Heard) : Nat := hs.countP Heard.isDelay

def measurements (hs : List Heard) : Nat := hs.countP (!·.isDelay)

/-- What the filters take in: something heard, or that sync was lost. -/
def move (O D : ℚ) (c : PtpClock) : Option Heard → PtpClock
  | some e => heardStep O D c e
  | none => dropSync c

/-- Moves with a number of rounds in them, and anything between the rounds. -/
inductive Rounds (K : Nat) : Nat → List (Option Heard) → Prop where
  | start : Rounds K 0 []
  | other {n : Nat} {ms : List (Option Heard)} (m : Option Heard) (h : Rounds K n ms) : Rounds K n (ms ++ [m])
  | round {n : Nat} {ms : List (Option Heard)} (pre post : List Heard) (h : Rounds K n ms)
      (hpre : 17 ≤ measurements pre) (hpost : 17 ≤ measurements post) (hdelays : delays (pre ++ .delayResp :: post) ≤ K) :
      Rounds K (n + 1) (ms ++ (pre ++ .delayResp :: post).map some)

/-- A clock that knows the path delay, with every error at most `M`. -/
structure Tracks (O D M : ℚ) (c : PtpClock) : Prop where
  within : Within O D M c
  haveDelay : c.bHaveDelay
  short : c.qOffsetWindow.length ≤ 16
  mapping : c.nMappingNs = truncate c.dSmoothedOffsetNs

/-- The last `k` samples of a window, or all of them. -/
def Recent (k : Nat) (P : ℚ → Prop) (q : List ℚ) : Prop :=
  min k 16 ≤ q.length ∧ ∃ old new, q = old ++ new ∧ (∀ w ∈ new, P w) ∧ (k ≤ new.length ∨ old = [])

section Window
variable {P : ℚ → Prop} {q : List ℚ} {k : Nat} {w : ℚ}

theorem recent_zero (q : List ℚ) : Recent 0 P q := ⟨by simp, q, [], by simp, by simp, Or.inl (Nat.zero_le _)⟩

theorem Recent.mono {P' : ℚ → Prop} {k' : Nat} (h : Recent k P q) (hP : ∀ w, P w → P' w) (hk : k' ≤ k) :
    Recent k' P' q := by
  obtain ⟨hlen, old, new, rfl, hnew, hcount⟩ := h
  exact ⟨by omega, old, new, rfl, fun w hw => hP w (hnew w hw), hcount.imp_left hk.trans⟩

/-- A sample more: the oldest one goes when there are sixteen. -/
theorem Recent.push (h : Recent k P q) (hlen : q.length ≤ 16) (hw : P w) :
    Recent (k + 1) P (if 16 ≤ q.length then (q ++ [w]).tail else q ++ [w]) := by
  obtain ⟨hmin, old, new, rfl, hnew, hcount⟩ := h
  have hnext : ∀ x ∈ new ++ [w], P x := by
    intro x hx
    rcases List.mem_append.mp hx with hx | hx
    · exact hnew x hx
    · rw [List.mem_singleton.mp hx]
      exact hw
  split_ifs with hfull
  · cases old with
    | nil =>
      refine ⟨?_, [], (new ++ [w]).tail, by simp, fun x hx => hnext x (List.mem_of_mem_tail hx), Or.inr rfl⟩
      simp at hfull hlen ⊢
      omega
    | cons x old =>
      refine ⟨?_, old, new ++ [w], by simp, hnext, Or.inl ?_⟩
      · simp at hfull hlen ⊢
        omega
      · rw [List.length_append, List.length_singleton]
        exact Nat.succ_le_succ (hcount.resolve_right (List.cons_ne_nil x old))
  · refine ⟨?_, old, new ++ [w], by simp, hnext, hcount.imp_left fun hk => ?_⟩
    · simp at hfull hlen hmin ⊢
      omega
    · simpa using hk

/-- Sixteen new samples are the whole window. -/
theorem Recent.all (h : Recent k P q) (hk : 16 ≤ k) (hlen : q.length ≤ 16) : ∀ w ∈ q, P w := by
  obtain ⟨-, old, new, rfl, hnew, hcount⟩ := h
  have hold : old = [] := by
    rcases hcount with hcount | hnone
    · apply List.eq_nil_of_length_eq_zero
      rw [List.length_append] at hlen
      omega
    · exact hnone
  rw [hold, List.nil_append]
  exact hnew

end Window

section Factors
variable (n : Nat)

theorem calmed_succ : calmed (n + 1) = 9 / 10 * calmed n + 1 / 10 := by
  unfold calmed
  ring

theorem calmed_zero : calmed 0 = 50 / 51 := by norm_num [calmed]

theorem calmed_mem : calmed n ∈ Set.Icc (50 / 51) 1 := by
  induction n with
  | zero => norm_num [calmed]
  | succ n ih =>
    rw [calmed_succ]
    obtain ⟨hlow, hhigh⟩ := ih
    constructor <;> linarith

theorem calmed_mono {m n : Nat} (h : m ≤ n) : calmed m ≤ calmed n := by
  induction n, h using Nat.le_induction with
  | base => rfl
  | succ n _ ih =>
    rw [calmed_succ]
    linarith [(calmed_mem n).2]

theorem calmed_le_shrink : calmed n ≤ shrink n := by
  unfold shrink
  linarith [(calmed_mem n).2]

theorem shrink_mem : shrink n ∈ Set.Ico 0 1 := by
  have hlt : calmed n < 1 := by
    unfold calmed
    have hpos : (0 : ℚ) < (9 / 10) ^ n := by positivity
    linarith
  unfold shrink
  constructor
  · linarith [(calmed_mem n).1]
  · linarith

end Factors

section Steps
variable {O D M : ℚ} {c : PtpClock}

@[simp] theorem addM2S_dMeanPathDelayNs (c : PtpClock) (d : ℚ) : (addM2S c d).dMeanPathDelayNs = c.dMeanPathDelayNs := by
  simp [addM2S]

@[simp] theorem addM2S_bHaveDelay (c : PtpClock) (d : ℚ) : (addM2S c d).bHaveDelay = c.bHaveDelay := by
  simp [addM2S]

theorem mapping_addM2S (h : c.nMappingNs = truncate c.dSmoothedOffsetNs) (d : ℚ) :
    (addM2S c d).nMappingNs = truncate (addM2S c d).dSmoothedOffsetNs := by
  simp only [addM2S, addOffsetSample]
  split_ifs
  · rfl
  · rfl
  · exact h
  · rfl
  · rfl
  · exact h

theorem Tracks.nonneg (h : Tracks O D M c) : 0 ≤ M := (abs_nonneg _).trans h.within.offset

/-- A measurement errs by the error of the path delay. -/
theorem Tracks.sample (h : Tracks O D M c) : |O - D + c.dMeanPathDelayNs - O| ≤ M := by
  have heq : O - D + c.dMeanPathDelayNs - O = c.dMeanPathDelayNs - D := by ring
  rw [heq]
  exact h.within.delay h.haveDelay

theorem Tracks.not_jump (h : Tracks O D M c) (hM : M ≤ D) (hpath : D ≤ longestPath) :
    ¬ offsetJump < |O - D + c.dMeanPathDelayNs - c.dSmoothedOffsetNs| := by
  obtain ⟨hlow, hhigh⟩ := abs_le.mp h.sample
  obtain ⟨hlow', hhigh'⟩ := abs_le.mp h.within.offset
  unfold longestPath at hpath
  rw [not_lt, abs_le]
  constructor <;> linarith

theorem Tracks.window (h : Tracks O D M c) (hM : M ≤ D) (hpath : D ≤ longestPath) :
    (addM2S c (O - D)).qOffsetWindow = if 16 ≤ c.qOffsetWindow.length
      then (c.qOffsetWindow ++ [O - D + c.dMeanPathDelayNs]).tail else c.qOffsetWindow ++ [O - D + c.dMeanPathDelayNs] := by
  simp only [addM2S, h.haveDelay, if_true, addOffsetSample_qOffsetWindow]
  exact push_steady (h.not_jump hM hpath)

/-- A window with a median: the offset goes to it, or a tenth of the way. -/
theorem Tracks.offset (h : Tracks O D M c) (hlen : 4 ≤ (addM2S c (O - D)).qOffsetWindow.length) :
    ∃ w ∈ (addM2S c (O - D)).qOffsetWindow, (addM2S c (O - D)).dSmoothedOffsetNs = w ∨
      (addM2S c (O - D)).dSmoothedOffsetNs = lowPass c.dSmoothedOffsetNs w := by
  simp only [addM2S, h.haveDelay, if_true, addOffsetSample_qOffsetWindow] at hlen ⊢
  refine ⟨_, median_mem (List.ne_nil_of_length_pos (by omega)) 0, ?_⟩
  rw [(addOffsetSample_long hlen).1]
  split_ifs
  · exact Or.inr rfl
  · exact Or.inl rfl

theorem Tracks.measurement (h : Tracks O D M c) (hM : M ≤ D) (hpath : D ≤ longestPath) :
    Tracks O D M (addM2S c (O - D)) := by
  refine ⟨?_, ?_, ?_, mapping_addM2S h.mapping _⟩
  · have hadded := h.within.addOffsetSample h.sample
    simp only [addM2S, h.haveDelay, if_true]
    exact ⟨hadded.offset, hadded.delay, hadded.window⟩
  · rw [addM2S_bHaveDelay]
    exact h.haveDelay
  · have hshort := h.short
    rw [h.window hM hpath]
    split_ifs
    · simpa using hshort
    · rw [List.length_append, List.length_singleton]
      omega

/-- No response is implausible. -/
theorem Tracks.response (h : Tracks O D M c) (hM : M ≤ D) (hpath : D ≤ longestPath) :
    addS2M c (O + D) =
      { c with dMeanPathDelayNs := lowPass c.dMeanPathDelayNs (delayOf c (O + D)), bHaveDelay := true } := by
  have hbelieved : Plausible c (O + D) := by
    obtain ⟨hlow, hhigh⟩ := abs_le.mp h.within.offset
    unfold longestPath offsetJump at hpath
    unfold Plausible delayOf delayLimit
    constructor <;> linarith
  rw [addS2M, if_pos hbelieved, if_pos h.haveDelay]

theorem Tracks.delayResp (h : Tracks O D M c) (hM : M ≤ D) (hpath : D ≤ longestPath) :
    Tracks O D M (addS2M c (O + D)) := by
  have hwithin := h.within.addS2M (D := D)
  rw [h.response hM hpath] at hwithin ⊢
  exact ⟨hwithin, rfl, h.short, h.mapping⟩

theorem Tracks.heard (h : Tracks O D M c) (hM : M ≤ D) (hpath : D ≤ longestPath) (e : Heard) :
    Tracks O D M (heardStep O D c e) := by
  cases e with
  | measurement => exact h.measurement hM hpath
  | delayResp => exact h.delayResp hM hpath

theorem Tracks.move (h : Tracks O D M c) (hM : M ≤ D) (hpath : D ≤ longestPath) (m : Option Heard) :
    Tracks O D M (move O D c m) := by
  cases m with
  | some e => exact h.heard hM hpath e
  | none => exact ⟨h.within.dropSync, h.haveDelay, Nat.zero_le _, h.mapping⟩

end Steps

/-- The path delay is off its extreme since `n` delay responses, and has been for `k` measurements. -/
structure Calm (O D M : ℚ) (n k : Nat) (c : PtpClock) : Prop where
  delay : |c.dMeanPathDelayNs - D| ≤ calmed n * M
  recent : Recent k (fun w => |w - O| ≤ calmed n * M) c.qOffsetWindow
  offset : 17 ≤ k → |c.dSmoothedOffsetNs - O| ≤ shrink n * M

/-- The path delay is at its extreme on one side, and has been for `k` measurements: they
have drawn the offset to that side. -/
structure Extreme (σ O D M : ℚ) (k : Nat) (c : PtpClock) : Prop where
  delay : calmed 0 * M < σ * (c.dMeanPathDelayNs - D)
  recent : Recent k (fun w => calmed 0 * M < σ * (w - O)) c.qOffsetWindow
  offset : 17 ≤ k → - (41 / 51 * M) ≤ σ * (c.dSmoothedOffsetNs - O)

section Phases
variable {O D M σ : ℚ} {c : PtpClock} {n k : Nat}

theorem Calm.mono {n' k' : Nat} (h : Calm O D M n k c) (hpos : 0 ≤ M) (hn : n ≤ n') (hk : k' ≤ k) : Calm O D M n' k' c := by
  have hfactor : calmed n * M ≤ calmed n' * M := mul_le_mul_of_nonneg_right (calmed_mono hn) hpos
  refine ⟨h.delay.trans hfactor, h.recent.mono (fun w hw => hw.trans hfactor) hk, fun hlong => ?_⟩
  refine (h.offset (hlong.trans hk)).trans ?_
  unfold shrink
  linarith

theorem calm_start (h : |c.dMeanPathDelayNs - D| ≤ calmed n * M) : Calm O D M n 0 c :=
  ⟨h, recent_zero _, fun hlong => absurd hlong (by omega)⟩

/-- The seventeenth measurement finds a window that is off the extreme throughout. -/
theorem Calm.measurement (hc : Calm O D M n k c) (h : Tracks O D M c) (hM : M ≤ D) (hpath : D ≤ longestPath) :
    Calm O D M n (k + 1) (addM2S c (O - D)) := by
  have hsample : |O - D + c.dMeanPathDelayNs - O| ≤ calmed n * M := by
    have heq : O - D + c.dMeanPathDelayNs - O = c.dMeanPathDelayNs - D := by ring
    rw [heq]
    exact hc.delay
  have hrecent := hc.recent.push h.short hsample
  rw [← h.window hM hpath] at hrecent
  refine ⟨by simpa using hc.delay, hrecent, fun hlong => ?_⟩
  have hall := hrecent.all (by omega) (h.measurement hM hpath).short
  obtain ⟨w, hw, hnext⟩ := h.offset (by have := hrecent.1; omega)
  have hpos := h.nonneg
  rcases hnext with hnext | hnext
  · rw [hnext]
    exact (hall w hw).trans (mul_le_mul_of_nonneg_right (calmed_le_shrink n) hpos)
  · rw [hnext]
    have hnear := lowPass_within h.within.offset (hall w hw)
    unfold shrink
    linarith

theorem Calm.delayResp (hc : Calm O D M n k c) (h : Tracks O D M c) (hM : M ≤ D) (hpath : D ≤ longestPath) :
    Calm O D M (n + 1) k (addS2M c (O + D)) := by
  have hlater := hc.mono h.nonneg (Nat.le_succ n) le_rfl
  have hoffset : |delayOf c (O + D) - D| ≤ M := by
    have heq : delayOf c (O + D) - D = - (c.dSmoothedOffsetNs - O) := by
      unfold delayOf
      ring
    rw [heq, abs_neg]
    exact h.within.offset
  rw [h.response hM hpath]
  refine ⟨?_, hlater.recent, hlater.offset⟩
  have hnear := lowPass_within hc.delay hoffset
  rw [calmed_succ]
  linarith

/-- The samples are at the extreme, and after sixteen of them the window is. -/
theorem Extreme.measurement (hσ : σ = 1 ∨ σ = -1) (he : Extreme σ O D M k c) (h : Tracks O D M c) (hM : M ≤ D)
    (hpath : D ≤ longestPath) : Extreme σ O D M (k + 1) (addM2S c (O - D)) := by
  have hsample : calmed 0 * M < σ * (O - D + c.dMeanPathDelayNs - O) := by
    have heq : O - D + c.dMeanPathDelayNs - O = c.dMeanPathDelayNs - D := by ring
    rw [heq]
    exact he.delay
  have hrecent := he.recent.push h.short hsample
  rw [← h.window hM hpath] at hrecent
  refine ⟨by simpa using he.delay, hrecent, fun hlong => ?_⟩
  have hall := hrecent.all (by omega) (h.measurement hM hpath).short
  obtain ⟨w, hw, hnext⟩ := h.offset (by have := hrecent.1; omega)
  have hextreme := hall w hw
  have hpos := h.nonneg
  obtain ⟨hlow, hhigh⟩ := abs_le.mp h.within.offset
  rw [calmed_zero] at hextreme
  rcases hnext with hnext | hnext
  · rw [hnext]
    linarith
  · rw [hnext, lowPass]
    rcases hσ with rfl | rfl <;> linarith

/-- A delay response leaves the path delay at its extreme, or takes it off; it takes it
off once the offset has been drawn to that side. -/
theorem Extreme.delayResp (hσ : σ = 1 ∨ σ = -1) (he : Extreme σ O D M k c) (h : Tracks O D M c) (hM : M ≤ D)
    (hpath : D ≤ longestPath) : (k < 17 ∧ Extreme σ O D M k (addS2M c (O + D))) ∨ Calm O D M 0 0 (addS2M c (O + D)) := by
  rw [h.response hM hpath]
  have hextreme := he.delay
  have hpos := h.nonneg
  obtain ⟨hlow, hhigh⟩ := abs_le.mp h.within.offset
  obtain ⟨hlow', hhigh'⟩ := abs_le.mp (h.within.delay h.haveDelay)
  by_cases hnext : |lowPass c.dMeanPathDelayNs (delayOf c (O + D)) - D| ≤ calmed 0 * M
  · exact Or.inr (calm_start hnext)
  · left
    have hdrawn : ¬ 17 ≤ k := by
      intro hlong
      have hoffset := he.offset hlong
      apply hnext
      rw [calmed_zero] at hextreme ⊢
      rw [abs_le, lowPass, delayOf]
      rcases hσ with rfl | rfl <;> constructor <;> linarith
    refine ⟨not_le.mp hdrawn, ?_, he.recent, he.offset⟩
    rw [not_le, lt_abs, lowPass, delayOf] at hnext
    rw [calmed_zero] at hextreme hnext ⊢
    change _ < σ * (lowPass c.dMeanPathDelayNs (delayOf c (O + D)) - D)
    rw [lowPass, delayOf]
    rcases hσ with rfl | rfl <;> rcases hnext with hnext | hnext <;> linarith

end Phases

section Runs
variable {O D M : ℚ} {c : PtpClock} {n k K : Nat}

@[simp] theorem delays_snoc (hs : List Heard) (e : Heard) : delays (hs ++ [e]) = delays hs + if e.isDelay then 1 else 0 := by
  cases e <;> simp [delays, Heard.isDelay]

@[simp] theorem measurements_snoc (hs : List Heard) (e : Heard) :
    measurements (hs ++ [e]) = measurements hs + if e.isDelay then 0 else 1 := by
  cases e <;> simp [measurements, Heard.isDelay]

theorem delays_round (pre post : List Heard) : delays (pre ++ .delayResp :: post) = delays pre + 1 + delays post := by
  simp only [delays, List.countP_append, List.countP_cons, Heard.isDelay, if_true]
  omega

theorem Tracks.run (h : Tracks O D M c) (hM : M ≤ D) (hpath : D ≤ longestPath) (hs : List Heard) :
    Tracks O D M (run (heardStep O D) c hs) :=
  invariant h (fun _ e hc => hc.heard hM hpath e) hs

theorem Calm.run (hc : Calm O D M n k c) (h : Tracks O D M c) (hM : M ≤ D) (hpath : D ≤ longestPath) (hs : List Heard) :
    Calm O D M (n + delays hs) (k + measurements hs) (run (heardStep O D) c hs) := by
  induction hs using List.reverseRecOn with
  | nil => exact hc
  | append_singleton hs e ih =>
    have htracks := h.run hM hpath hs
    rw [run_snoc, delays_snoc, measurements_snoc]
    cases e with
    | measurement => exact ih.measurement htracks hM hpath
    | delayResp => exact ih.delayResp htracks hM hpath

/-- At its extreme on either side, or off it. -/
def Drawn (O D M : ℚ) (n k : Nat) (c : PtpClock) : Prop :=
  (∃ σ, (σ = 1 ∨ σ = -1) ∧ Extreme σ O D M k c) ∨ Calm O D M n 0 c

theorem drawn_start (c : PtpClock) : Drawn O D M 0 0 c := by
  by_cases hcalm : |c.dMeanPathDelayNs - D| ≤ calmed 0 * M
  · exact Or.inr (calm_start hcalm)
  · left
    rw [not_le, lt_abs] at hcalm
    rcases hcalm with hhigh | hlow
    · refine ⟨1, Or.inl rfl, by rwa [one_mul], recent_zero _, fun hlong => absurd hlong (by omega)⟩
    · refine ⟨-1, Or.inr rfl, by rwa [neg_one_mul], recent_zero _, fun hlong => absurd hlong (by omega)⟩

theorem Drawn.heard (hd : Drawn O D M n k c) (h : Tracks O D M c) (hM : M ≤ D) (hpath : D ≤ longestPath) (e : Heard) :
    Drawn O D M (n + if e.isDelay then 1 else 0) (k + if e.isDelay then 0 else 1) (heardStep O D c e) := by
  have hpos := h.nonneg
  rcases hd with ⟨σ, hσ, hextreme⟩ | hcalm
  · cases e with
    | measurement => exact Or.inl ⟨σ, hσ, hextreme.measurement hσ h hM hpath⟩
    | delayResp =>
      rcases hextreme.delayResp hσ h hM hpath with ⟨-, hstill⟩ | hcalm
      · exact Or.inl ⟨σ, hσ, hstill⟩
      · exact Or.inr (hcalm.mono hpos (Nat.zero_le _) le_rfl)
  · cases e with
    | measurement => exact Or.inr ((hcalm.measurement h hM hpath).mono hpos le_rfl (Nat.zero_le _))
    | delayResp => exact Or.inr (hcalm.delayResp h hM hpath)

theorem Drawn.run (h : Tracks O D M c) (hM : M ≤ D) (hpath : D ≤ longestPath) (hs : List Heard) :
    Drawn O D M (delays hs) (measurements hs) (run (heardStep O D) c hs) := by
  induction hs using List.reverseRecOn with
  | nil => exact drawn_start c
  | append_singleton hs e ih =>
    rw [run_snoc, delays_snoc, measurements_snoc]
    exact ih.heard (h.run hM hpath hs) hM hpath e

/-- After enough measurements the delay response takes the path delay off its extreme. -/
theorem Drawn.delayResp (hd : Drawn O D M n k c) (hlong : 17 ≤ k) (h : Tracks O D M c) (hM : M ≤ D)
    (hpath : D ≤ longestPath) : Calm O D M (n + 1) 0 (addS2M c (O + D)) := by
  rcases hd with ⟨σ, hσ, hextreme⟩ | hcalm
  · rcases hextreme.delayResp hσ h hM hpath with ⟨hshort, -⟩ | hcalm
    · omega
    · exact hcalm.mono h.nonneg (Nat.zero_le _) le_rfl
  · exact hcalm.delayResp h hM hpath

/-- Measurements that follow spread it to the window, and to the offset. -/
theorem Calm.within (hc : Calm O D M n k c) (hlong : 17 ≤ k) (h : Tracks O D M c) : Within O D (shrink n * M) c := by
  have hfactor : calmed n * M ≤ shrink n * M := mul_le_mul_of_nonneg_right (calmed_le_shrink n) h.nonneg
  refine ⟨hc.offset hlong, fun _ => hc.delay.trans hfactor, fun w hw => ?_⟩
  exact (hc.recent.all (by omega) h.short w hw).trans hfactor

theorem Tracks.round (h : Tracks O D M c) (hM : M ≤ D) (hpath : D ≤ longestPath) {pre post : List Heard}
    (hpre : 17 ≤ measurements pre) (hpost : 17 ≤ measurements post) (hdelays : delays (pre ++ .delayResp :: post) ≤ K) :
    Tracks O D (shrink K * M) (Lib.run (heardStep O D) c (pre ++ .delayResp :: post)) := by
  have hbefore := h.run hM hpath pre
  have hafter := hbefore.delayResp hM hpath
  have hcalm := ((Drawn.run h hM hpath pre).delayResp hpre hbefore hM hpath).run hafter hM hpath post
  rw [run_append]
  change Tracks O D _ (Lib.run (heardStep O D) (addS2M _ (O + D)) post)
  have hend := hafter.run hM hpath post
  refine ⟨?_, hend.haveDelay, hend.short, hend.mapping⟩
  apply (hcalm.mono h.nonneg _ _).within (by omega) hend
  · rw [delays_round] at hdelays
    omega
  · omega

/-- However the rounds are spread over the run, each takes its part. -/
theorem Tracks.rounds {ms : List (Option Heard)} (h : Tracks O D D c) (hpath : D ≤ longestPath) (hms : Rounds K n ms) :
    Tracks O D (shrink K ^ n * D) (Lib.run (PiAudioNode.Ptp.move O D) c ms) := by
  have hshrink := shrink_mem K
  have hbound (n : Nat) : shrink K ^ n * D ≤ D := by
    have hle : shrink K ^ n ≤ 1 := pow_le_one₀ hshrink.1 hshrink.2.le
    calc shrink K ^ n * D ≤ 1 * D := mul_le_mul_of_nonneg_right hle h.nonneg
      _ = D := one_mul D
  induction hms with
  | start => simpa using h
  | other m _ ih =>
    rw [run_snoc]
    exact ih.move (hbound _) hpath m
  | @round n ms pre post _ hpre hpost hdelays ih =>
    have hround := ih.round (hbound n) hpath hpre hpost hdelays
    rw [run_append, pow_succ', mul_assoc]
    have hheard (hs : List Heard) (c : PtpClock) :
        Lib.run (PiAudioNode.Ptp.move O D) c (hs.map some) = Lib.run (heardStep O D) c hs := by
      rw [Lib.run, List.foldl_map]
      rfl
    rw [hheard]
    exact hround

end Runs

section Start
variable {O D : ℚ} {c : PtpClock}

/-- A clock that has measured nothing against its master yet. -/
structure Unmeasured (c : PtpClock) : Prop where
  synced : c.bSynced = false
  delay : c.bHaveDelay = false
  window : c.qOffsetWindow = []

/-- Four measurements bring the clock into sync, then the path delay is measured. -/
def lockOn : List (Option Heard) := List.replicate 4 (some .measurement) ++ [some .delayResp]

/-- The first measurements, before the window has its median. -/
theorem first_measurements (h : Unmeasured c) {n : Nat} (hn : n ≤ 3) :
    (run (move O D) c (List.replicate n (some .measurement))).qOffsetWindow = List.replicate n (O - D) ∧
      (run (move O D) c (List.replicate n (some .measurement))).bSynced = false ∧
      (run (move O D) c (List.replicate n (some .measurement))).bHaveDelay = false := by
  induction n with
  | zero => exact ⟨h.window, h.synced, h.delay⟩
  | succ n ih =>
    obtain ⟨hwindow, hsynced, hdelay⟩ := ih (by omega)
    rw [List.replicate_succ', run_snoc]
    generalize run (move O D) c (List.replicate n (some .measurement)) = d at hwindow hsynced hdelay ⊢
    have hpush : pushOffset d.qOffsetWindow d.dSmoothedOffsetNs (O - D) = List.replicate (n + 1) (O - D) := by
      have hshort : ¬ (8 ≤ (List.replicate n (O - D)).length ∧ offsetJump < |O - D - d.dSmoothedOffsetNs|) := by
        rw [List.length_replicate]
        omega
      rw [hwindow, pushOffset, if_neg hshort, ← List.replicate_succ', if_neg (by rw [List.length_replicate]; omega)]
    have hlength : (pushOffset d.qOffsetWindow d.dSmoothedOffsetNs (O - D)).length < 4 := by
      rw [hpush, List.length_replicate]
      omega
    simp only [move, heardStep, addM2S, hdelay, Bool.false_eq_true, if_false, add_zero, addOffsetSample_qOffsetWindow,
      addOffsetSample_bHaveDelay, (addOffsetSample_short hlength).2, hsynced, hpush, and_self]

/-- The offset is short by the path delay, which the response makes up for. -/
theorem tracks_lockOn (hc : Unmeasured c) (hD : 0 ≤ D) (hpath : D ≤ longestPath) :
    Tracks O D D (run (move O D) c lockOn) := by
  obtain ⟨hwindow, hsynced, hdelay⟩ := first_measurements (O := O) (D := D) hc (n := 3) le_rfl
  have horder : lockOn = List.replicate 3 (some .measurement) ++ [some .measurement] ++ [some .delayResp] := rfl
  rw [horder, run_snoc, run_snoc]
  generalize run (move O D) c (List.replicate 3 (some .measurement)) = d at hwindow hsynced hdelay ⊢
  have hpush : pushOffset d.qOffsetWindow d.dSmoothedOffsetNs (O - D) = List.replicate 4 (O - D) := by
    rw [hwindow, pushOffset, if_neg (by simp)]
    rfl
  have hmedian : median (List.replicate 4 (O - D)) 0 = O - D :=
    Uniform.median (fun x hx => List.eq_of_mem_replicate hx) (by simp)
  have hlocked : addOffsetSample d (O - D) = { d with
      qOffsetWindow := List.replicate 4 (O - D), dSmoothedOffsetNs := O - D, nMappingNs := truncate (O - D),
      bSynced := true } := by
    simp only [addOffsetSample, hpush, List.length_replicate, le_refl, if_true, hmedian, hsynced, Bool.false_eq_true,
      if_false]
  have hbelieved (c : PtpClock) (hoffset : c.dSmoothedOffsetNs = O - D) : Plausible c (O + D) := by
    unfold longestPath offsetJump at hpath
    rw [Plausible, delayOf, hoffset, delayLimit]
    constructor <;> linarith
  have hresponse : O + D - (O - D) - D = D := by ring
  have hshort : O - D - O = -D := by ring
  simp only [move, heardStep, addM2S, hdelay, Bool.false_eq_true, if_false, add_zero, hlocked]
  rw [addS2M, if_pos (hbelieved _ rfl)]
  refine ⟨⟨?_, fun _ => ?_, fun w hw => ?_⟩, rfl, by simp, rfl⟩
  · rw [hshort, abs_neg, abs_of_nonneg hD]
  · simp only [Bool.false_eq_true, if_false, delayOf]
    rw [hresponse, abs_of_nonneg hD]
  · rw [List.eq_of_mem_replicate hw, hshort, abs_neg, abs_of_nonneg hD]

end Start

end PiAudioNode.Ptp
