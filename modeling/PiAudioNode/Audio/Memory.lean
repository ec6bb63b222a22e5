import PiAudioNode.Lib.Cursor

/-! A file source: samples in memory that are read packet by packet. -/
namespace PiAudioNode.Audio
open Lib Stream'

/-- The samples are interleaved, two to a frame. -/
structure MemorySource (α : Type*) where
  vSamples : List α
  sDescription : String
  bLoop : Bool
  nPosition : Nat := 0

namespace MemorySource
variable {α : Type*}

/-- Nothing is left to copy, and the source does not start over. -/
def Finished (s : MemorySource α) : Prop := s.vSamples.length ≤ s.nPosition ∧ (s.bLoop = false ∨ s.vSamples = [])

instance (s : MemorySource α) : Decidable s.Finished :=
  inferInstanceAs (Decidable (_ ∧ (_ ∨ _)))

def rewound (s : MemorySource α) : MemorySource α :=
  if s.vSamples.length ≤ s.nPosition then { s with nPosition := 0 } else s

/-- What one pass of the loop copies. -/
def nChunk (s : MemorySource α) (nWanted : Nat) : Nat := min nWanted (s.vSamples.length - s.nPosition)

theorem rewound_lt {s : MemorySource α} (h : ¬ s.Finished) : s.rewound.nPosition < s.vSamples.length := by
  unfold rewound
  split_ifs with hend
  · have hne : s.vSamples ≠ [] := fun hnil => h ⟨hend, Or.inr hnil⟩
    exact List.length_pos_iff.mpr hne
  · exact not_le.mp hend

@[simp] theorem rewound_vSamples (s : MemorySource α) : s.rewound.vSamples = s.vSamples := by
  unfold rewound
  split_ifs <;> rfl

@[simp] theorem rewound_bLoop (s : MemorySource α) : s.rewound.bLoop = s.bLoop := by
  unfold rewound
  split_ifs <;> rfl

theorem nChunk_pos {s : MemorySource α} {nWanted : Nat} (hwanted : nWanted ≠ 0) (h : ¬ s.Finished) :
    0 < s.rewound.nChunk nWanted := by
  have hlt := rewound_lt h
  rw [nChunk, rewound_vSamples]
  omega

theorem length_chunk (s : MemorySource α) (nWanted : Nat) :
    ((s.vSamples.drop s.nPosition).take (s.nChunk nWanted)).length = s.nChunk nWanted := by
  rw [List.length_take, List.length_drop, nChunk]
  omega

section Read
variable [Zero α]

/-- The loop of a read, with so many samples still wanted. Every pass copies something,
so it ends. -/
def fill (s : MemorySource α) (nWanted : Nat) : (List α × Bool) × MemorySource α :=
  if _ : nWanted = 0 then (([], true), s)
  else if _ : s.Finished then ((List.replicate nWanted 0, false), s)
  else
    let s' := s.rewound
    let nChunk := s'.nChunk nWanted
    let x := fill { s' with nPosition := s'.nPosition + nChunk } (nWanted - nChunk)
    (((s'.vSamples.drop s'.nPosition).take nChunk ++ x.1.1, x.1.2), x.2)
termination_by nWanted
decreasing_by
  have := nChunk_pos ‹nWanted ≠ 0› ‹¬ s.Finished›
  omega

def read (s : MemorySource α) (nFrames : Nat) : (List α × Bool) × MemorySource α := s.fill (nFrames * 2)

/-- What follows the last sample: the samples over and over, or silence. -/
def afterLast (vSamples : List α) (bLoop : Bool) : Stream' α :=
  if h : bLoop ∧ vSamples ≠ [] then cycle vSamples h.2 else const 0

/-- What is still to come. -/
def toCome (s : MemorySource α) : Stream' α := s.vSamples.drop s.nPosition ++ₛ afterLast s.vSamples s.bLoop

/-- The samples repeated without end where they loop, and followed by silence where not. -/
def ideal (vSamples : List α) (bLoop : Bool) : Stream' α :=
  if h : bLoop ∧ vSamples ≠ [] then cycle vSamples h.2 else vSamples ++ₛ const 0

theorem toCome_start (vSamples : List α) (sDescription : String) (bLoop : Bool) :
    (⟨vSamples, sDescription, bLoop, 0⟩ : MemorySource α).toCome = ideal vSamples bLoop := by
  simp only [toCome, afterLast, ideal, List.drop_zero]
  split_ifs with h
  · exact (cycle_eq vSamples h.2).symm
  · rfl

variable {s : MemorySource α} {nWanted : Nat}

theorem toCome_of_finished (h : s.Finished) : s.toCome = const 0 := by
  obtain ⟨hend, hstop⟩ := h
  rw [toCome, List.drop_eq_nil_of_le hend, nil_append_stream, afterLast, dif_neg]
  rintro ⟨hloop, hne⟩
  rcases hstop with hstop | hnil
  · rw [hstop] at hloop
    cases hloop
  · exact hne hnil

/-- Starting over changes nothing of what is to come. -/
theorem toCome_rewound (h : ¬ s.Finished) : s.rewound.toCome = s.toCome := by
  unfold rewound
  split_ifs with hend
  · have hloop : s.bLoop ∧ s.vSamples ≠ [] :=
      ⟨by simpa using fun hstop => h ⟨hend, Or.inl hstop⟩, fun hnil => h ⟨hend, Or.inr hnil⟩⟩
    rw [toCome, toCome, List.drop_eq_nil_of_le hend, nil_append_stream, afterLast, dif_pos hloop, List.drop_zero]
    exact (cycle_eq s.vSamples hloop.2).symm
  · rfl

/-- A pass copies what comes next. -/
theorem toCome_chunk (s : MemorySource α) (nCopied : Nat) :
    s.toCome = (s.vSamples.drop s.nPosition).take nCopied ++ₛ { s with nPosition := s.nPosition + nCopied }.toCome := by
  rw [toCome, toCome, ← append_append_stream, ← List.drop_drop, List.take_append_drop]

/-- The induction is on the passes of the loop. -/
theorem fill_toCome (s : MemorySource α) (nWanted : Nat) :
    (s.fill nWanted).1.1 = s.toCome.take nWanted ∧ (s.fill nWanted).2.toCome = s.toCome.drop nWanted := by
  induction s, nWanted using fill.induct with
  | case1 s =>
    rw [fill, dif_pos rfl]
    exact ⟨rfl, rfl⟩
  | case2 s nWanted hwanted hfinished =>
    rw [fill, dif_neg hwanted, dif_pos hfinished, toCome_of_finished hfinished, drop_const]
    exact ⟨(take_const 0 nWanted).symm, rfl⟩
  | case3 s nWanted hwanted hfinished s' nCopied ih =>
    have hlength : ((s'.vSamples.drop s'.nPosition).take nCopied).length = nCopied := length_chunk s' nWanted
    have hle : ((s'.vSamples.drop s'.nPosition).take nCopied).length ≤ nWanted := hlength.trans_le (min_le_left _ _)
    obtain ⟨hout, hnext⟩ := ih
    rw [fill, dif_neg hwanted, dif_neg hfinished, ← toCome_rewound hfinished, toCome_chunk s.rewound nCopied,
      Lib.take_append _ hle, Lib.drop_append _ hle, hlength, ← hout, ← hnext]
    exact ⟨rfl, rfl⟩

/-- A source reads itself off what is to come, two samples a frame. -/
theorem serves : Serves read (· * 2) (toCome (α := α)) (fun _ => True) where
  taken s nFrames _ := (s.fill_toCome (nFrames * 2)).1
  dropped s nFrames _ := (s.fill_toCome (nFrames * 2)).2
  valid _ _ _ := trivial

/-- A source that does not loop stays at its end, and reports each time that more was
wanted. -/
theorem fill_once (hloop : s.bLoop = false) (hpos : s.nPosition ≤ s.vSamples.length) :
    (s.fill nWanted).1.2 = decide (nWanted = 0 ∨ s.nPosition + nWanted ≤ s.vSamples.length) ∧
      (s.fill nWanted).2 = { s with nPosition := min (s.nPosition + nWanted) s.vSamples.length } := by
  induction s, nWanted using fill.induct with
  | case1 s =>
    rw [fill, dif_pos rfl, Nat.add_zero, min_eq_left hpos]
    exact ⟨rfl, rfl⟩
  | case2 s nWanted hwanted hfinished =>
    have hend : s.nPosition = s.vSamples.length := le_antisymm hpos hfinished.1
    rw [fill, dif_neg hwanted, dif_pos hfinished, min_eq_right (by omega), ← hend]
    refine ⟨(decide_eq_false ?_).symm, rfl⟩
    omega
  | case3 s nWanted hwanted hfinished s' nCopied ih =>
    have hlt : s.nPosition < s.vSamples.length := by
      by_contra hend
      exact hfinished ⟨not_lt.mp hend, Or.inl hloop⟩
    have hrewound : s.rewound = s := if_neg (not_le.mpr hlt)
    have hcopied : nCopied = s.nChunk nWanted := congrArg (fun r => nChunk r nWanted) hrewound
    have hchunk : s.nChunk nWanted = min nWanted (s.vSamples.length - s.nPosition) := rfl
    simp only [s', hrewound, hcopied] at ih
    obtain ⟨hflag, hnext⟩ := ih hloop (by omega)
    rw [fill, dif_neg hwanted, dif_neg hfinished]
    simp only [hrewound, hflag, hnext]
    constructor
    · congr 1
      rw [eq_iff_iff]
      omega
    · congr 1
      omega

/-- Where a source that does not loop has come after some packets. -/
theorem reads_once (hloop : s.bLoop = false) (hpos : s.nPosition ≤ s.vSamples.length) (lengths : List Nat) :
    (reads read s lengths).2 =
      { s with nPosition := min (s.nPosition + lengths.sum * 2) s.vSamples.length } := by
  induction lengths generalizing s with
  | nil => rw [reads, List.sum_nil, Nat.zero_mul, Nat.add_zero, min_eq_left hpos]
  | cons nFrames lengths ih =>
    have hnext : (s.read nFrames).2 = { s with nPosition := min (s.nPosition + nFrames * 2) s.vSamples.length } :=
      (fill_once hloop hpos).2
    have hrest := ih (s := { s with nPosition := min (s.nPosition + nFrames * 2) s.vSamples.length }) hloop
      (min_le_right _ _)
    simp only [reads, hnext, hrest, List.sum_cons]
    congr 1
    omega

end Read

/-- However the reads cut it, a source gives the same sound: its samples without end, or
once and then silence. One that does not loop reports the reads that went beyond its
samples, and no others. -/
theorem reads_ideal {α : Type*} [Zero α] (vSamples : List α) (sDescription : String) (bLoop : Bool) (lengths : List Nat) :
    (reads read ⟨vSamples, sDescription, bLoop, 0⟩ lengths).1.flatMap Prod.fst =
        (ideal vSamples bLoop).take (lengths.sum * 2) ∧
      ((reads read ⟨vSamples, sDescription, bLoop, 0⟩ lengths).1.flatMap Prod.fst).length = lengths.sum * 2 ∧
      (bLoop = false → ∀ i nFrames, lengths[i]? = some nFrames →
        ((reads read ⟨vSamples, sDescription, bLoop, 0⟩ lengths).1[i]?.map Prod.snd = some false ↔
          0 < nFrames ∧ vSamples.length < (lengths.take (i + 1)).sum * 2)) := by
  have hsum : (lengths.map (· * 2)).sum = lengths.sum * 2 := by
    rw [List.sum_map_mul_right, List.map_id']
  have hsound := serves.flatMap_reads (s := ⟨vSamples, sDescription, bLoop, 0⟩) trivial lengths
  rw [hsum, toCome_start] at hsound
  refine ⟨hsound, by rw [hsound, Stream'.length_take], ?_⟩
  intro hloop i nFrames hi
  subst hloop
  rw [reads_getElem? hi, reads_once rfl (Nat.zero_le _), Option.map_some, Option.some.injEq, read,
    (fill_once rfl (min_le_right _ _)).1, decide_eq_false_iff_not]
  rw [List.take_add_one, hi, List.sum_append]
  simp only [Option.toList_some, List.sum_singleton]
  omega

/-- Two frames, read as one, two and none. -/
theorem reads_ideal_once :
    ((reads read ⟨[1, 2, 3, 4], "a.wav", false, 0⟩ [1, 2, 0]).1[1]?.map Prod.snd = some false ↔
      0 < 2 ∧ [1, 2, 3, 4].length < ([1, 2, 0].take (1 + 1)).sum * 2) :=
  (reads_ideal [1, 2, 3, 4] "a.wav" false [1, 2, 0]).2.2 rfl 1 2 rfl

end MemorySource

end PiAudioNode.Audio
