import PiAudioNode.Audio.Memory
import PiAudioNode.Audio.Sources
import PiAudioNode.Lib.Files

/-! A file as a source: it is decoded, brought to two channels and to the rate of the
node, and read from memory. -/
namespace PiAudioNode.Audio
open Lib
variable {α β : Type*}

/-- What the decoder makes of an mp3 file: samples of 16 bits, frame by frame. -/
structure Mp3Pcm where
  nChannels : Nat
  nRate : Nat
  vPcm : List (BitVec 16)

structure WavPcm (α : Type*) where
  nChannels : Nat
  nRate : Nat
  nFrames : Nat
  vFrames : List α

/-- The libraries: each decoder fails on a file that is not its own, and the resampler
may fail on a rate. -/
structure Codecs (α β : Type*) where
  mp3 : List β → Option Mp3Pcm
  wav : List β → Option (WavPcm α)
  srcSimple : List α → Nat → Option (List α)
  /-- A sample over 32768. -/
  fromPcm : BitVec 16 → α

section Decode
variable [Zero α]

/-- One channel goes to both sides, and of more than one the first two. -/
def toStereo (pIn : List α) (nFrames nChannels : Nat) : List α :=
  (List.range nFrames).flatMap fun i =>
    if nChannels = 1 then [pIn.getD i 0, pIn.getD i 0]
    else [pIn.getD (i * nChannels) 0, pIn.getD (i * nChannels + 1) 0]

namespace Codecs
variable (d : Codecs α β)

def resample (vIn : List α) (nInRate : Nat) : List α :=
  if nInRate = 48000 then vIn else (d.srcSimple vIn nInRate).getD vIn

def IsMp3 (sPath : List Char) : Prop := 4 < sPath.length ∧ sPath.drop (sPath.length - 4) = ".mp3".toList

instance (sPath : List Char) : Decidable (IsMp3 sPath) :=
  inferInstanceAs (Decidable (_ ∧ _))

/-- The name tells the decoder. -/
def load (sPath : String) (vBytes : List β) : Option (List α) :=
  if IsMp3 sPath.toList then
    (d.mp3 vBytes).map fun dec =>
      let vFloat := dec.vPcm.map d.fromPcm
      d.resample (toStereo vFloat (vFloat.length / dec.nChannels) dec.nChannels) dec.nRate
  else
    (d.wav vBytes).map fun wav => d.resample (toStereo wav.vFrames wav.nFrames wav.nChannels) wav.nRate

/-- The source a path stands for, with its samples. -/
def openFile (disk : Disk β) (cwd : Folder) (sPath : String) (bLoop : Bool) : Option (MemorySource α) :=
  ((disk.read cwd sPath.toList).bind (d.load sPath)).map fun vSamples =>
    { vSamples, sDescription := fileName sPath, bLoop }

def readable (disk : Disk β) (cwd : Folder) (sPath : String) : Bool := (d.openFile disk cwd sPath true).isSome

/-- The source that is chosen by name is the one with the samples of its file. -/
theorem createFile_readable (disk : Disk β) (cwd : Folder) (sPath : String) (bLoop : Bool) :
    createFile (d.readable disk cwd) sPath bLoop =
      (d.openFile disk cwd sPath bLoop).map fun s => .memory s.sDescription s.bLoop := by
  rw [createFile, readable, openFile, openFile]
  cases (disk.read cwd sPath.toList).bind (d.load sPath) with
  | none => rfl
  | some vSamples => rfl

end Codecs

section Frames
variable {frame pIn : List α} {frames : List (List α)} {nFrames nChannels nRate : Nat}

/-- Both sides of a frame. -/
def bothSides (frame : List α) : List α := [frame.getD 0 0, frame.getD (if frame.length = 1 then 0 else 1) 0]

theorem toStereo_append (hframe : frame.length = nChannels) (hchannels : 0 < nChannels) :
    toStereo (frame ++ pIn) (nFrames + 1) nChannels = bothSides frame ++ toStereo pIn nFrames nChannels := by
  have hskip (i k : Nat) : (frame ++ pIn).getD ((i + 1) * nChannels + k) 0 = pIn.getD (i * nChannels + k) 0 := by
    rw [List.getD_append_right _ _ _ _ (by rw [hframe, Nat.succ_mul]; omega), hframe]
    congr 1
    rw [Nat.succ_mul]
    omega
  have hfirst : (frame ++ pIn).getD 0 0 = frame.getD 0 0 := List.getD_append _ _ _ _ (by omega)
  rw [toStereo, List.range_succ_eq_map, List.flatMap_cons, List.flatMap_map, toStereo, bothSides, hframe]
  by_cases hmono : nChannels = 1
  · subst hmono
    have hmove (i : Nat) : (frame ++ pIn).getD (i + 1) 0 = pIn.getD i 0 := by
      have h := hskip i 0
      rwa [Nat.mul_one, Nat.mul_one] at h
    simp only [if_pos, hfirst, Nat.succ_eq_add_one, hmove]
  · have hsecond : (frame ++ pIn).getD (0 + 1) 0 = frame.getD 1 0 := List.getD_append _ _ _ _ (by omega)
    have hstart (i : Nat) : (frame ++ pIn).getD ((i + 1) * nChannels) 0 = pIn.getD (i * nChannels) 0 := hskip i 0
    simp only [if_neg hmono, Nat.succ_eq_add_one, hskip, hstart, Nat.zero_mul, hfirst, hsecond]

/-- Frames of some channels become frames of two. -/
theorem toStereo_flatten (hframes : ∀ frame ∈ frames, frame.length = nChannels) (hchannels : 0 < nChannels) :
    toStereo frames.flatten frames.length nChannels = frames.flatMap bothSides := by
  induction frames with
  | nil => rfl
  | cons frame frames ih =>
    rw [List.flatten_cons, List.length_cons, toStereo_append (hframes frame List.mem_cons_self) hchannels,
      ih fun other hmem => hframes other (List.mem_cons_of_mem _ hmem), List.flatMap_cons]

namespace Codecs
variable {d : Codecs α β} {sPath : String} {vBytes : List β}

/-- The decoder of a file finds whole frames in it. -/
structure Decodes (d : Codecs α β) (sPath : String) (vBytes : List β) (nRate : Nat) (frames : List (List α)) : Prop where
  whole : ∃ nChannels, 0 < nChannels ∧ (∀ frame ∈ frames, frame.length = nChannels) ∧
    if IsMp3 sPath.toList then ∃ vPcm, d.mp3 vBytes = some ⟨nChannels, nRate, vPcm⟩ ∧ vPcm.map d.fromPcm = frames.flatten
    else d.wav vBytes = some ⟨nChannels, nRate, frames.length, frames.flatten⟩

theorem Decodes.load (h : d.Decodes sPath vBytes nRate frames) :
    d.load sPath vBytes = some (d.resample (frames.flatMap bothSides) nRate) := by
  obtain ⟨nChannels, hchannels, hframes, hdecoded⟩ := h.whole
  rw [Codecs.load]
  split_ifs at hdecoded ⊢ with hmp3
  · obtain ⟨vPcm, hdec, hfloat⟩ := hdecoded
    have hlength : frames.flatten.length = frames.length * nChannels := by
      rw [List.length_flatten, List.map_congr_left hframes, List.map_const', List.sum_replicate, smul_eq_mul]
    rw [hdec, Option.map_some]
    dsimp only
    rw [hfloat, hlength, Nat.mul_div_cancel _ hchannels, toStereo_flatten hframes hchannels]
  · rw [hdecoded, Option.map_some]
    dsimp only
    rw [toStereo_flatten hframes hchannels]

end Codecs

end Frames

end Decode

end PiAudioNode.Audio
