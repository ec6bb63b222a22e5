import Mathlib
import PiAudioNode.Lib.Run

/-! A counter that restarts from zero now and then, and a reader that books how far it
grew since the last reading, taking a smaller value for a restart. -/
namespace PiAudioNode.Lib

/-- What happens to the counter as its reader meets it. -/
inductive CounterMark where
  | restart
  | reading (n : Nat)
  deriving DecidableEq

/-- The readings of every session: the latest session first, its latest reading first. -/
def noteReading (sessions : List (List Nat)) : CounterMark → List (List Nat)
  | .restart => [] :: sessions
  | .reading n => (n :: sessions.headD []) :: sessions.tail

def sessions (ms : List CounterMark) : List (List Nat) := run noteReading [] ms

/-- What the sessions counted, as far as they were read. -/
def lastReadings (sessions : List (List Nat)) : Nat := (sessions.map (·.headD 0)).sum

/-- The last reading of all. -/
def lastReading (ms : List CounterMark) : Nat :=
  run (fun last m => match m with | .restart => last | .reading n => n) 0 ms

/-- What a reading adds to the books. -/
def booked (nLast n : Nat) : Nat := if n < nLast then n else n - nLast

structure Meter where
  nLast : Nat := 0
  nTotal : Nat := 0
  deriving DecidableEq

def Meter.step (m : Meter) : CounterMark → Meter
  | .restart => m
  | .reading n => ⟨n, m.nTotal + booked m.nLast n⟩

/-- Within a session the counter only grows. -/
def Grows (ms : List CounterMark) : CounterMark → Prop
  | .restart => True
  | .reading n => ∀ k ∈ ((sessions ms).headD []).head?, k ≤ n

/-- The first reading of a session shows that the counter restarted, or there was
nothing to start from. -/
def RestartShows (ms : List CounterMark) : CounterMark → Prop
  | .restart => True
  | .reading n => (sessions ms).headD [] = [] → n < lastReading ms ∨ lastReading ms = 0

instance (ms : List CounterMark) (m : CounterMark) : Decidable (RestartShows ms m) :=
  match m with
  | .restart => isTrue trivial
  | .reading n => inferInstanceAs (Decidable ((sessions ms).headD [] = [] → n < lastReading ms ∨ lastReading ms = 0))

@[simp] theorem sessions_nil : sessions [] = [] := rfl

@[simp] theorem sessions_snoc (ms : List CounterMark) (m : CounterMark) :
    sessions (ms ++ [m]) = noteReading (sessions ms) m := by
  simp [sessions]

@[simp] theorem lastReading_snoc_restart (ms : List CounterMark) : lastReading (ms ++ [.restart]) = lastReading ms := by
  simp [lastReading]

@[simp] theorem lastReading_snoc_reading (ms : List CounterMark) (n : Nat) : lastReading (ms ++ [.reading n]) = n := by
  simp [lastReading]

theorem lastReadings_restart (ss : List (List Nat)) : lastReadings (noteReading ss .restart) = lastReadings ss := by
  simp [lastReadings, noteReading]

/-- A reading replaces the one before it in its session. -/
theorem lastReadings_reading (ss : List (List Nat)) (n : Nat) :
    lastReadings (noteReading ss (.reading n)) + (ss.headD []).headD 0 = lastReadings ss + n := by
  cases ss with
  | nil => simp [lastReadings, noteReading]
  | cons s ss =>
    simp only [lastReadings, noteReading, List.headD_cons, List.tail_cons, List.map_cons, List.sum_cons]
    omega

theorem Meter.nLast_run (ms : List CounterMark) : (run Meter.step {} ms).nLast = lastReading ms := by
  induction ms using List.reverseRecOn with
  | nil => rfl
  | append_singleton ms m ih =>
    rw [run_snoc]
    cases m with
    | restart => rw [lastReading_snoc_restart, ← ih]; rfl
    | reading n => rw [lastReading_snoc_reading]; rfl

/-- The latest reading of the open session is the last reading of all. -/
theorem lastReading_of_session {ms : List CounterMark} {n : Nat} {s : List Nat} (h : (sessions ms).headD [] = n :: s) :
    lastReading ms = n := by
  induction ms using List.reverseRecOn with
  | nil => cases h
  | append_singleton ms m ih =>
    rw [sessions_snoc] at h
    cases m with
    | restart => cases h
    | reading k =>
      obtain ⟨rfl, -⟩ := List.cons.inj h
      rw [lastReading_snoc_reading]

/-- What one reading does to the books and to what they should say. -/
theorem booked_reading {ms : List CounterMark} {n : Nat} (hgrows : Grows ms (.reading n)) :
    lastReadings (sessions ms) + booked (lastReading ms) n ≤ lastReadings (noteReading (sessions ms) (.reading n)) ∧
      (lastReadings (sessions ms) + booked (lastReading ms) n = lastReadings (noteReading (sessions ms) (.reading n)) ↔
        RestartShows ms (.reading n)) := by
  have hsum := lastReadings_reading (sessions ms) n
  cases hsession : (sessions ms).headD [] with
  | nil =>
    -- the first reading of its session is due in full
    rw [hsession, List.headD_nil, Nat.add_zero] at hsum
    simp only [hsum, booked, RestartShows, hsession, true_implies]
    split <;> omega
  | cons k s =>
    -- a later one is due as far as it goes beyond the one before
    have hk : k ≤ n := hgrows k (by rw [hsession]; rfl)
    rw [hsession, List.headD_cons] at hsum
    have hbooked : booked k n = n - k := if_neg (Nat.not_lt.mpr hk)
    simp only [lastReading_of_session hsession, hbooked, RestartShows, hsession, reduceCtorEq, false_implies, iff_true]
    omega

theorem Meter.nTotal_le {ms : List CounterMark} (h : Admits Grows ms) :
    (run Meter.step {} ms).nTotal ≤ lastReadings (sessions ms) := by
  induction ms using List.reverseRecOn with
  | nil => rfl
  | append_singleton ms m ih =>
    have hle := ih h.of_append
    rw [run_snoc, sessions_snoc]
    cases m with
    | restart => rwa [lastReadings_restart]
    | reading n =>
      have hdue := (booked_reading h.last).1
      rw [← Meter.nLast_run] at hdue
      exact (Nat.add_le_add_right hle _).trans hdue

/-- The books are complete exactly if every restart shows: what a hidden one costs is
never made up. -/
theorem Meter.nTotal_eq_iff {ms : List CounterMark} (h : Admits Grows ms) :
    (run Meter.step {} ms).nTotal = lastReadings (sessions ms) ↔ Admits RestartShows ms := by
  induction ms using List.reverseRecOn with
  | nil => exact ⟨fun _ => admits_nil, fun _ => rfl⟩
  | append_singleton ms m ih =>
    have hsofar := ih h.of_append
    have hle := Meter.nTotal_le h.of_append
    rw [admits_snoc, ← hsofar, run_snoc, sessions_snoc]
    cases m with
    | restart =>
      rw [lastReadings_restart]
      exact ⟨fun he => ⟨he, trivial⟩, fun he => he.1⟩
    | reading n =>
      obtain ⟨hdue, hfull⟩ := booked_reading h.last
      rw [← Meter.nLast_run] at hdue hfull
      rw [← hfull]
      simp only [Meter.step]
      omega

end PiAudioNode.Lib
