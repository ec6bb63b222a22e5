import Mathlib
import PiAudioNode.Lib.Loop

/-! The output: frames are converted to 32 bits and written to the device until it has
taken all of them, over short writes and over errors it recovers from. -/
namespace PiAudioNode.Audio
open Lib

/-- A device as its calls see it: how many frames the i-th write takes of so many or what
it fails with, and what the recovery from that error returns. -/
structure Pcm where
  writei : Nat → Nat → Int
  recover : Nat → Int → Int
  taken_le : ∀ i nFrames, writei i nFrames ≤ nFrames

/-- The part of a number before its point. -/
def truncate (x : ℚ) : Int := x.num.tdiv x.den

/-- A sample with its gain, clamped to full scale. -/
def convert (fGain x : ℚ) : Int := truncate (max (-1) (min (x * fGain) 1) * 2147483392)

/-- `device` is what the device has taken since it was opened. -/
structure AlsaOut where
  pcm : Option Pcm := none
  nCalls : Nat := 0
  nUnderruns : Nat := 0
  device : List (Int × Int) := []

/-- The loop of a write: the frames taken so far, and its answer. -/
structure Writing where
  out : AlsaOut
  nWritten : Nat := 0
  bResult : Bool := false

/-- An error is counted. -/
def Writing.failed (s : Writing) : Writing :=
  { s with out := { s.out with nCalls := s.out.nCalls + 1, nUnderruns := s.out.nUnderruns + 1 } }

/-- The device took some of the frames that were left. -/
def Writing.took (vConvert : List (Int × Int)) (nResult : Nat) (s : Writing) : Writing :=
  { s with
    out := { s.out with
      nCalls := s.out.nCalls + 1
      device := s.out.device ++ (vConvert.drop s.nWritten).take nResult }
    nWritten := s.nWritten + nResult }

/-- One pass of the loop. -/
def writeTurn (pcm : Pcm) (vConvert : List (Int × Int)) (s : Writing) : Turn Writing :=
  if vConvert.length ≤ s.nWritten then .ends { s with bResult := true }
  else if pcm.writei s.out.nCalls (vConvert.length - s.nWritten) < 0 then
    if pcm.recover s.out.nCalls (pcm.writei s.out.nCalls (vConvert.length - s.nWritten)) < 0 then
      .ends { s.failed with bResult := false }
    else .goes s.failed
  else .goes (s.took vConvert (pcm.writei s.out.nCalls (vConvert.length - s.nWritten)).toNat)

namespace AlsaOut

/-- A write that may take so many passes. -/
def write (nTurns : Nat) (out : AlsaOut) (fGain : ℚ) (vInterleaved : List (ℚ × ℚ)) : Option (Bool × AlsaOut) :=
  match out.pcm with
  | none => some (false, out)
  | some pcm =>
    let vConvert := vInterleaved.map fun frame => (convert fGain frame.1, convert fGain frame.2)
    (loop (writeTurn pcm vConvert) nTurns { out }).map fun s => (s.bResult, s.out)

end AlsaOut

/-- Writes one after the other, with their answers. -/
def writeAll (nTurns : Nat) (out : AlsaOut) : List (ℚ × List (ℚ × ℚ)) → Option (List Bool × AlsaOut)
  | [] => some ([], out)
  | (fGain, vInterleaved) :: rest =>
    (out.write nTurns fGain vInterleaved).bind fun x =>
      (writeAll nTurns x.2 rest).map fun y => (x.1 :: y.1, y.2)

/-- The frames of a write as the device gets them. -/
def converted (block : ℚ × List (ℚ × ℚ)) : List (Int × Int) :=
  block.2.map fun frame => (convert block.1 frame.1, convert block.1 frame.2)

section Conversion
variable {fGain x y : ℚ}

theorem truncate_eq_floor (hx : 0 ≤ x) : truncate x = ⌊x⌋ := by
  rw [Rat.floor_def', truncate, Int.tdiv_eq_ediv_of_nonneg (Rat.num_nonneg.mpr hx)]

theorem truncate_neg (x : ℚ) : truncate (-x) = -truncate x := by
  rw [truncate, truncate, Rat.neg_num, Rat.neg_den, Int.neg_tdiv]

theorem truncate_mono (h : x ≤ y) : truncate x ≤ truncate y := by
  rcases le_total 0 x with hx | hx
  · rw [truncate_eq_floor hx, truncate_eq_floor (hx.trans h)]
    exact Int.floor_le_floor h
  · have hleft : truncate x ≤ 0 := by
      have hfloor := Int.floor_nonneg.mpr (neg_nonneg.mpr hx)
      rw [← truncate_eq_floor (neg_nonneg.mpr hx), truncate_neg] at hfloor
      omega
    rcases le_total 0 y with hy | hy
    · have hfloor := Int.floor_nonneg.mpr hy
      rw [← truncate_eq_floor hy] at hfloor
      omega
    · have hfloor := Int.floor_le_floor (neg_le_neg h)
      rw [← truncate_eq_floor (neg_nonneg.mpr hx), ← truncate_eq_floor (neg_nonneg.mpr hy), truncate_neg, truncate_neg]
        at hfloor
      omega

/-- A sample of any height, with any gain, fits the 32 bits of the device. -/
theorem convert_mem_Icc (fGain x : ℚ) : convert fGain x ∈ Set.Icc (-2147483392) 2147483392 := by
  have hfull : truncate 2147483392 = 2147483392 := by
    rw [truncate_eq_floor (by norm_num)]
    norm_num
  have hlow : -1 ≤ max (-1) (min (x * fGain) 1) := le_max_left _ _
  have hhigh : max (-1) (min (x * fGain) 1) ≤ 1 := max_le (by norm_num) (min_le_right _ _)
  have hleast : truncate (-2147483392) ≤ convert fGain x := truncate_mono (by linarith)
  have hmost : convert fGain x ≤ truncate 2147483392 := truncate_mono (by linarith)
  rw [truncate_neg, hfull] at hleast
  rw [hfull] at hmost
  exact ⟨hleast, hmost⟩

end Conversion

section Delivery
variable {pcm : Pcm} {vConvert : List (Int × Int)} {out : AlsaOut} {s t : Writing} {nTurns : Nat}

/-- What the loop keeps: the device has taken the frames up to the count, and no others. -/
structure Taken (pcm : Pcm) (vConvert : List (Int × Int)) (out : AlsaOut) (s : Writing) : Prop where
  pcm : s.out.pcm = some pcm
  device : s.out.device = out.device ++ vConvert.take s.nWritten
  count : s.nWritten ≤ vConvert.length

/-- How a write ends: all frames were taken just when it says so. -/
def Done (pcm : Pcm) (vConvert : List (Int × Int)) (out : AlsaOut) (s : Writing) : Prop :=
  Taken pcm vConvert out s ∧ (s.bResult = true ↔ s.nWritten = vConvert.length)

/-- A pass that goes on had frames left, and counts an error or hands over some of them. -/
theorem writeTurn_goes (h : writeTurn pcm vConvert s = .goes t) : s.nWritten < vConvert.length ∧
    (pcm.writei s.out.nCalls (vConvert.length - s.nWritten) < 0 ∧ t = s.failed ∨
      ∃ k : Nat, pcm.writei s.out.nCalls (vConvert.length - s.nWritten) = k ∧ t = s.took vConvert k) := by
  unfold writeTurn at h
  split_ifs at h with hall hfailed hlost
  · cases h
    exact ⟨not_le.mp hall, Or.inl ⟨hfailed, rfl⟩⟩
  · cases h
    exact ⟨not_le.mp hall, Or.inr ⟨_, (Int.toNat_of_nonneg (not_lt.mp hfailed)).symm, rfl⟩⟩

/-- A pass that ends has handed over everything, or gives up what is left. -/
theorem writeTurn_ends (h : writeTurn pcm vConvert s = .ends t) :
    vConvert.length ≤ s.nWritten ∧ t = { s with bResult := true } ∨
      s.nWritten < vConvert.length ∧ t = { s.failed with bResult := false } := by
  unfold writeTurn at h
  split_ifs at h with hall hfailed hlost
  · cases h
    exact Or.inl ⟨hall, rfl⟩
  · cases h
    exact Or.inr ⟨not_le.mp hall, rfl⟩

theorem Taken.goes (h : Taken pcm vConvert out s) (hturn : writeTurn pcm vConvert s = .goes t) : Taken pcm vConvert out t := by
  obtain ⟨hmore, ⟨-, rfl⟩ | ⟨k, hk, rfl⟩⟩ := writeTurn_goes hturn
  · exact ⟨h.pcm, h.device, h.count⟩
  · have hasked := pcm.taken_le s.out.nCalls (vConvert.length - s.nWritten)
    refine ⟨h.pcm, ?_, ?_⟩
    · simp only [Writing.took]
      rw [h.device, List.append_assoc, List.take_add]
    · simp only [Writing.took]
      omega

theorem Taken.ends (h : Taken pcm vConvert out s) (hturn : writeTurn pcm vConvert s = .ends t) : Done pcm vConvert out t := by
  obtain ⟨hall, rfl⟩ | ⟨hmore, rfl⟩ := writeTurn_ends hturn
  · exact ⟨⟨h.pcm, h.device, h.count⟩, iff_of_true rfl (le_antisymm h.count hall)⟩
  · exact ⟨⟨h.pcm, h.device, h.count⟩, iff_of_false Bool.false_ne_true hmore.ne⟩

/-- From some call on, the device takes something whenever it is asked to. -/
def Settles (pcm : Pcm) (nFrom : Nat) : Prop := ∀ i nFrames, nFrom ≤ i → 0 < nFrames → 0 < pcm.writei i nFrames

/-- The calls that may still fail, and the frames that are left. -/
def leftToWrite (nFrom : Nat) (vConvert : List (Int × Int)) (s : Writing) : Nat :=
  (nFrom - s.out.nCalls) + (vConvert.length - s.nWritten)

theorem left_decreases {nFrom : Nat} (hsettles : Settles pcm nFrom) (hturn : writeTurn pcm vConvert s = .goes t) :
    leftToWrite nFrom vConvert t < leftToWrite nFrom vConvert s := by
  have hlater := hsettles s.out.nCalls (vConvert.length - s.nWritten)
  unfold leftToWrite
  obtain ⟨hmore, ⟨hfailed, rfl⟩ | ⟨k, hk, rfl⟩⟩ := writeTurn_goes hturn
  · simp only [Writing.failed]
    omega
  · simp only [Writing.took]
    omega

theorem write_progress {nFrom : Nat} (hsettles : Settles pcm nFrom) (vConvert : List (Int × Int)) (out : AlsaOut) :
    Progress (writeTurn pcm vConvert) (Taken pcm vConvert out) (Done pcm vConvert out) (leftToWrite nFrom vConvert) where
  kept := Taken.goes
  less := fun _ hturn => left_decreases hsettles hturn
  reached := Taken.ends

/-- A write ends, with a part of its frames at the device, and with all of them just when
it says so. -/
theorem write_spec {nFrom : Nat} (hsettles : Settles pcm nFrom) (hopen : out.pcm = some pcm) (block : ℚ × List (ℚ × ℚ))
    (hturns : nFrom + block.2.length < nTurns) : ∃ bResult out' k, out.write nTurns block.1 block.2 = some (bResult, out') ∧
      out'.pcm = some pcm ∧ out'.device = out.device ++ (converted block).take k ∧ k ≤ (converted block).length ∧
      (bResult = true ↔ k = (converted block).length) := by
  have hlength : (converted block).length = block.2.length := List.length_map _
  have hstart : Taken pcm (converted block) out { out } := ⟨hopen, (List.append_nil _).symm, Nat.zero_le _⟩
  have henough : leftToWrite nFrom (converted block) { out } < nTurns := by
    simp only [leftToWrite]
    omega
  obtain ⟨t, hloop, htaken, hresult⟩ := (write_progress hsettles (converted block) out).exists_loop hstart henough
  refine ⟨t.bResult, t.out, t.nWritten, ?_, htaken.pcm, htaken.device, htaken.count, hresult⟩
  have hwrite : out.write nTurns block.1 block.2 =
      (loop (writeTurn pcm (converted block)) nTurns { out }).map fun s => (s.bResult, s.out) := by
    simp only [AlsaOut.write, hopen]
    rfl
  rw [hwrite, hloop]
  rfl

/-- What the device gets of some writes: of each the frames from its first on, all of them
just when the write says so. -/
inductive Delivered : List (ℚ × List (ℚ × ℚ)) → List Bool → List (Int × Int) → Prop where
  | nil : Delivered [] [] []
  | cons {block rest bResult results frames k} : k ≤ (converted block).length →
      (bResult = true ↔ k = (converted block).length) → Delivered rest results frames →
      Delivered (block :: rest) (bResult :: results) ((converted block).take k ++ frames)

/-- If every write succeeds, nothing is missing. -/
theorem Delivered.all {blocks : List (ℚ × List (ℚ × ℚ))} {results : List Bool} {frames : List (Int × Int)}
    (h : Delivered blocks results frames) (hall : ∀ bResult ∈ results, bResult = true) :
    frames = blocks.flatMap converted := by
  induction h with
  | nil => rfl
  | cons hk hresult hrest ih =>
    have hwhole := hresult.mp (hall _ List.mem_cons_self)
    rw [hwhole, List.take_length, List.flatMap_cons, ih fun bResult hmem => hall bResult (List.mem_cons_of_mem _ hmem)]

theorem Delivered.inRange {blocks : List (ℚ × List (ℚ × ℚ))} {results : List Bool} {frames : List (Int × Int)}
    (h : Delivered blocks results frames) : ∀ frame ∈ frames,
      frame.1 ∈ Set.Icc (-2147483392) 2147483392 ∧ frame.2 ∈ Set.Icc (-2147483392) 2147483392 := by
  induction h with
  | nil =>
    intro frame hmem
    cases hmem
  | cons hk hresult hrest ih =>
    intro frame hmem
    rcases List.mem_append.mp hmem with hmem | hmem
    · obtain ⟨source, -, rfl⟩ := List.mem_map.mp (List.mem_of_mem_take hmem)
      exact ⟨convert_mem_Icc _ _, convert_mem_Icc _ _⟩
    · exact ih frame hmem

/-- A device that takes one frame a call, after one call that fails. -/
def slowPcm : Pcm where
  writei i nFrames := if i = 0 then -32 else min 1 nFrames
  recover _ _ := 0
  taken_le i nFrames := by
    split_ifs
    · exact le_trans (by norm_num) (Int.natCast_nonneg nFrames)
    · exact min_le_right _ _

end Delivery

end PiAudioNode.Audio
