import PiAudioNode.Ptp.Selection

/-! The monitored network and the selection: a run compared with the same run
without what was announced on the blue interface. -/
namespace PiAudioNode.Ptp
open Lib Lib.Tournament

/-- What stays when the announces on interface 1 are erased. -/
def Event.onPrimary : Event → Bool
  | .announce _ _ nInterface _ => nInterface ≠ .blue
  | .tick _ => true

def primaryOnly (es : List Event) : List Event := es.filter Event.onPrimary

def amberSeen (id : PortIdentity) (seen : Option Time) : Event → Option Time
  | .announce pData _ nInterface now =>
    if nInterface = .amber ∧ 64 ≤ pData.length ∧ (parseAnnounce pData).source = id then some now else seen
  | .tick _ => seen

/-- When a master was last announced on interface 0. -/
def lastAmber (es : List Event) (id : PortIdentity) : Option Time := run (amberSeen id) none es

def SilentOnAmber (es : List Event) (id : PortIdentity) (now : Time) : Prop :=
  ∀ seen ∈ lastAmber es id, Stale now seen

instance (es : List Event) (id : PortIdentity) (now : Time) : Decidable (SilentOnAmber es id now) :=
  inferInstanceAs (Decidable (∀ seen ∈ lastAmber es id, Stale now seen))

/-- At a timer tick the shared `lastSeen` expires the masters announced on amber
just when their amber announces have. -/
def ExpiresByAmber (es : List Event) : Event → Prop
  | .announce .. => True
  | .tick now => ∀ e ∈ (after es).mForeign.toList, 0 < e.2.nAnnounceCount →
      (Stale now e.2.lastSeen ↔ SilentOnAmber es e.1 now)

/-- The part of a record that amber announces alone decide. -/
def ForeignMaster.amber (f : ForeignMaster) : Option (Nat × AnnounceDataset) :=
  if f.nAnnounceCount = 0 then none else some (f.nAnnounceCount, f.dataset)

def amberPart (t : ForeignTable) (id : PortIdentity) : Option (Nat × AnnounceDataset) :=
  t[id]?.bind ForeignMaster.amber

theorem mem_candidates_iff_amberPart {t : ForeignTable} {a : Candidate} :
    a ∈ candidates t ↔ ∃ n, 2 ≤ n ∧ amberPart t a.1 = some (n, a.2) := by
  obtain ⟨id, ds⟩ := a
  rw [mem_candidates]
  constructor
  · rintro ⟨f, hf, hq, rfl⟩
    have hpos : f.nAnnounceCount ≠ 0 := by unfold ForeignMaster.Qualified at hq; omega
    exact ⟨f.nAnnounceCount, hq, by simp [amberPart, hf, ForeignMaster.amber, hpos]⟩
  · rintro ⟨n, hn, h⟩
    obtain ⟨f, hf, hamber⟩ := Option.bind_eq_some_iff.mp h
    unfold ForeignMaster.amber at hamber
    split at hamber
    · cases hamber
    · obtain ⟨rfl, hds⟩ := Prod.mk.inj (Option.some.inj hamber)
      exact ⟨f, hf, hn, hds⟩

theorem candidates_sorted (t : ForeignTable) : (candidates t).Pairwise (fun a b => a.1 < b.1) := by
  rw [candidates, List.pairwise_map]
  refine List.Pairwise.filter _ (List.Pairwise.imp ?_ (Std.TreeMap.ordered_keys_toList (t := t)))
  intro a b h
  exact compare_lt_iff_lt.mp h

/-- The selection sees the amber part of the table and nothing else. -/
theorem candidates_congr {t u : ForeignTable} (h : ∀ id, amberPart t id = amberPart u id) :
    candidates t = candidates u := by
  refine List.Perm.eq_of_pairwise ?_ (candidates_sorted t) (candidates_sorted u) ?_
  · intro a b _ _ hab hba
    exact absurd hab (lt_asymm hba)
  · refine (List.perm_ext_iff_of_nodup ?_ ?_).mpr fun a => ?_
    · exact (candidates_sorted t).imp fun hab he => absurd hab (by simp [he])
    · exact (candidates_sorted u).imp fun hab he => absurd hab (by simp [he])
    · rw [mem_candidates_iff_amberPart, mem_candidates_iff_amberPart, h]

@[simp] theorem amberPart_annotate (best : Option Candidate) (t : ForeignTable) (id : PortIdentity) :
    amberPart (t.map (annotate best)) id = amberPart t id := by
  rw [amberPart, amberPart, Std.TreeMap.getElem?_map]
  cases t[id]? <;> rfl

theorem amberPart_dropMaster (c : PtpClient) (id q : PortIdentity) :
    amberPart (dropMaster c id).mForeign q = if id = q then none else amberPart c.mForeign q := by
  rw [dropMaster, runBmca_mForeign, amberPart_annotate, amberPart, Std.TreeMap.getElem?_erase]
  simp only [compare_eq_iff_eq]
  split
  · rfl
  · rfl

theorem amberPart_drops (ids : List PortIdentity) (c : PtpClient) (q : PortIdentity) :
    amberPart (ids.foldl dropMaster c).mForeign q = if q ∈ ids then none else amberPart c.mForeign q := by
  induction ids generalizing c with
  | nil => simp
  | cons id ids ih =>
    rw [List.foldl_cons, ih, amberPart_dropMaster]
    by_cases hq : q ∈ ids
    · simp [hq]
    · by_cases hid : q = id <;> simp [hq, hid, Ne.symm]

theorem mem_staleMasters {t : ForeignTable} {now : Time} {id : PortIdentity} :
    id ∈ staleMasters t now ↔ ∃ f : ForeignMaster, t[id]? = some f ∧ Stale now f.lastSeen := by
  simp [staleMasters, Std.TreeMap.mem_toList_iff_getElem?_eq_some]

theorem timerTick_mForeign (c : PtpClient) (now : Time) : (timerTick c now).mForeign = (ageOut c now).mForeign := by
  unfold timerTick
  dsimp only
  split <;> rfl

/-- A tick takes out the stale records and leaves the amber part of the others. -/
theorem amberPart_timerTick (c : PtpClient) (now : Time) (id : PortIdentity) :
    amberPart (timerTick c now).mForeign id =
      if id ∈ staleMasters c.mForeign now then none else amberPart c.mForeign id := by
  rw [timerTick_mForeign, ageOut, amberPart_drops]

theorem amber_noteAnnounce_primary (f : ForeignMaster) (ds : AnnounceDataset) (sFrom : String) (now : Time) :
    (noteAnnounce f ds sFrom .amber now).amber = some (f.nAnnounceCount + 1, ds) := by
  simp [noteAnnounce, ForeignMaster.amber]

theorem amber_noteAnnounce_blue (f : ForeignMaster) (ds : AnnounceDataset) (sFrom : String) (now : Time) :
    (noteAnnounce f ds sFrom .blue now).amber = f.amber := by
  by_cases h : f.nAnnounceCount = 0 <;> simp [noteAnnounce, ForeignMaster.amber, h]

theorem amber_getD (t : ForeignTable) (id : PortIdentity) : (t.getD id default).amber = amberPart t id := by
  rw [Std.TreeMap.getD_eq_getD_getElem?, amberPart]
  cases t[id]? <;> rfl

theorem count_getD (t : ForeignTable) (id : PortIdentity) :
    (t.getD id default).nAnnounceCount = ((amberPart t id).map Prod.fst).getD 0 := by
  rw [← amber_getD, ForeignMaster.amber]
  split
  · assumption
  · rfl

/-- An announce touches the record of its source; the blue one not even the
amber part of that. -/
theorem amberPart_handleAnnounce (c : PtpClient) {pData : Bytes} (hlen : 64 ≤ pData.length) (sFrom : String)
    (i : Interface) (now : Time) (id : PortIdentity) :
    amberPart (handleAnnounce c pData sFrom i now).mForeign id =
      if i = .amber ∧ (parseAnnounce pData).source = id then
        some (((amberPart c.mForeign id).map Prod.fst).getD 0 + 1, parseAnnounce pData)
      else amberPart c.mForeign id := by
  rw [handleAnnounce, if_neg (Nat.not_lt.mpr hlen), runBmca_mForeign, amberPart_annotate]
  rw [amberPart, Std.TreeMap.getElem?_insert]
  by_cases hid : (parseAnnounce pData).source = id
  · subst hid
    cases i
    · simp [amber_noteAnnounce_primary, count_getD]
    · simp [amber_noteAnnounce_blue, amber_getD]
  · simp [hid, amberPart]

/-- The run on the left heard what the run on the right heard, and blue announces
besides: their amber parts agree, and the right one's records are dated by amber. -/
structure SameAmber (es : List Event) (c d : PtpClient) : Prop where
  part : ∀ id, amberPart c.mForeign id = amberPart d.mForeign id
  dated : ∀ (id : PortIdentity) (f : ForeignMaster), d.mForeign[id]? = some f →
    0 < f.nAnnounceCount ∧ lastAmber es id = some f.lastSeen

theorem SameAmber.selected {es : List Event} {c d : PtpClient} (h : SameAmber es c d) (hc : Settled c)
    (hd : Settled d) : c.selectedMaster = d.selectedMaster := by
  rw [hc.selected, hd.selected, bestMaster, bestMaster, candidates_congr h.part]

@[simp] theorem lastAmber_tick (es : List Event) (now : Time) (id : PortIdentity) :
    lastAmber (es ++ [.tick now]) id = lastAmber es id := run_snoc ..

theorem lastAmber_announce (es : List Event) (pData : Bytes) (sFrom : String) (i : Interface) (now : Time)
    (id : PortIdentity) : lastAmber (es ++ [.announce pData sFrom i now]) id =
      if i = .amber ∧ 64 ≤ pData.length ∧ (parseAnnounce pData).source = id then some now else lastAmber es id :=
  run_snoc ..

/-- A record of the table after the selection was run is one from before, notes apart. -/
theorem record_runBmca {c : PtpClient} {id : PortIdentity} {f : ForeignMaster}
    (h : (runBmca c).mForeign[id]? = some f) : ∃ g : ForeignMaster, c.mForeign[id]? = some g ∧
      g.nAnnounceCount = f.nAnnounceCount ∧ g.lastSeen = f.lastSeen := by
  rw [runBmca_mForeign, Std.TreeMap.getElem?_map] at h
  obtain ⟨g, hg, rfl⟩ := Option.map_eq_some_iff.mp h
  exact ⟨g, hg, rfl, rfl⟩

theorem record_drops {ids : List PortIdentity} {c : PtpClient} {q : PortIdentity} {f : ForeignMaster}
    (h : (ids.foldl dropMaster c).mForeign[q]? = some f) : q ∉ ids ∧ ∃ g : ForeignMaster,
      c.mForeign[q]? = some g ∧ g.nAnnounceCount = f.nAnnounceCount ∧ g.lastSeen = f.lastSeen := by
  induction ids generalizing c with
  | nil => exact ⟨List.not_mem_nil, f, h, rfl, rfl⟩
  | cons id ids ih =>
    obtain ⟨hq, g, hg, hcount, hseen⟩ := ih h
    obtain ⟨g', hg', hcount', hseen'⟩ := record_runBmca hg
    rw [Std.TreeMap.getElem?_erase] at hg'
    split at hg'
    · cases hg'
    · rename_i hid
      have hne : q ≠ id := by
        rintro rfl
        exact hid (compare_eq_iff_eq.mpr rfl)
      exact ⟨by simp [hne, hq], g', hg', hcount'.trans hcount, hseen'.trans hseen⟩

/-- What a tick leaves was there before it and is not stale. -/
theorem record_timerTick {c : PtpClient} {now : Time} {id : PortIdentity} {f : ForeignMaster}
    (h : (timerTick c now).mForeign[id]? = some f) : ¬ Stale now f.lastSeen ∧ ∃ g : ForeignMaster,
      c.mForeign[id]? = some g ∧ g.nAnnounceCount = f.nAnnounceCount ∧ g.lastSeen = f.lastSeen := by
  rw [timerTick_mForeign] at h
  obtain ⟨hid, g, hg, hcount, hseen⟩ := record_drops h
  exact ⟨fun hs => hid (mem_staleMasters.mpr ⟨g, hg, hseen ▸ hs⟩), g, hg, hcount, hseen⟩

theorem record_amberAnnounce {d : PtpClient} {pData : Bytes} (hlen : 64 ≤ pData.length) {sFrom : String}
    {now : Time} {id : PortIdentity} {f : ForeignMaster}
    (h : (handleAnnounce d pData sFrom .amber now).mForeign[id]? = some f) :
    ((parseAnnounce pData).source = id ∧ 0 < f.nAnnounceCount ∧ f.lastSeen = now) ∨
      ((parseAnnounce pData).source ≠ id ∧ ∃ g : ForeignMaster, d.mForeign[id]? = some g ∧
        g.nAnnounceCount = f.nAnnounceCount ∧ g.lastSeen = f.lastSeen) := by
  rw [handleAnnounce, if_neg (Nat.not_lt.mpr hlen)] at h
  obtain ⟨g, hg, hcount, hseen⟩ := record_runBmca h
  rw [Std.TreeMap.getElem?_insert] at hg
  split at hg
  · obtain rfl := Option.some.inj hg
    refine Or.inl ⟨compare_eq_iff_eq.mp ‹_›, ?_, hseen.symm⟩
    rw [← hcount]
    simp [noteAnnounce]
  · rename_i hid
    exact Or.inr ⟨fun he => hid (compare_eq_iff_eq.mpr he), g, hg, hcount, hseen⟩

theorem SameAmber.amber_announce {es : List Event} {c d : PtpClient} (h : SameAmber es c d) (pData : Bytes)
    (sFrom : String) (now : Time) : SameAmber (es ++ [.announce pData sFrom .amber now])
      (handleAnnounce c pData sFrom .amber now) (handleAnnounce d pData sFrom .amber now) := by
  by_cases hlen : 64 ≤ pData.length
  · refine ⟨fun id => ?_, fun id f hf => ?_⟩
    · rw [amberPart_handleAnnounce c hlen, amberPart_handleAnnounce d hlen, h.part]
    · rw [lastAmber_announce]
      obtain ⟨hid, hcount, hseen⟩ | ⟨hid, g, hg, hcount, hseen⟩ := record_amberAnnounce hlen hf
      · exact ⟨hcount, by simp [hlen, hid, hseen]⟩
      · obtain ⟨hpos, hdate⟩ := h.dated id g hg
        exact ⟨hcount ▸ hpos, by simp [hid, hdate, hseen]⟩
  · have short (b : PtpClient) : handleAnnounce b pData sFrom .amber now = b := if_pos (Nat.not_le.mp hlen)
    rw [short, short]
    exact ⟨h.part, fun id f hf => by simpa [lastAmber_announce, hlen] using h.dated id f hf⟩

/-- The blue network is heard by the left run only, and changes nothing that counts. -/
theorem SameAmber.blue_announce {es : List Event} {c d : PtpClient} (h : SameAmber es c d) (pData : Bytes)
    (sFrom : String) (now : Time) :
    SameAmber (es ++ [.announce pData sFrom .blue now]) (handleAnnounce c pData sFrom .blue now) d := by
  refine ⟨fun id => ?_, fun id f hf => by simpa [lastAmber_announce] using h.dated id f hf⟩
  by_cases hlen : 64 ≤ pData.length
  · rw [amberPart_handleAnnounce c hlen, if_neg (by simp), h.part]
  · rw [handleAnnounce, if_pos (Nat.not_le.mp hlen), h.part]

theorem SameAmber.stale_iff {es : List Event} {c d : PtpClient} (h : SameAmber es c d) {now : Time}
    (guard : ∀ e ∈ c.mForeign.toList, 0 < e.2.nAnnounceCount →
      (Stale now e.2.lastSeen ↔ SilentOnAmber es e.1 now))
    {id : PortIdentity} {x : Nat × AnnounceDataset} (hx : amberPart c.mForeign id = some x) :
    id ∈ staleMasters c.mForeign now ↔ id ∈ staleMasters d.mForeign now := by
  have entry {t : ForeignTable} (ht : amberPart t id = some x) :
      ∃ f : ForeignMaster, t[id]? = some f ∧ 0 < f.nAnnounceCount := by
    obtain ⟨f, hf, hamber⟩ := Option.bind_eq_some_iff.mp ht
    refine ⟨f, hf, Nat.pos_of_ne_zero fun h0 => ?_⟩
    simp [ForeignMaster.amber, h0] at hamber
  obtain ⟨f, hf, hpos⟩ := entry hx
  obtain ⟨g, hg, _⟩ := entry (h.part id ▸ hx)
  have hdate := (h.dated id g hg).2
  have hf_iff : id ∈ staleMasters c.mForeign now ↔ Stale now f.lastSeen := by
    simp [mem_staleMasters, hf]
  have hg_iff : id ∈ staleMasters d.mForeign now ↔ Stale now g.lastSeen := by
    simp [mem_staleMasters, hg]
  rw [hf_iff, hg_iff, guard (id, f) (Std.TreeMap.mem_toList_iff_getElem?_eq_some.mpr hf) hpos]
  simp [SilentOnAmber, hdate]

theorem SameAmber.tick {es : List Event} {c d : PtpClient} (h : SameAmber es c d) {now : Time}
    (guard : ∀ e ∈ c.mForeign.toList, 0 < e.2.nAnnounceCount →
      (Stale now e.2.lastSeen ↔ SilentOnAmber es e.1 now)) :
    SameAmber (es ++ [.tick now]) (timerTick c now) (timerTick d now) := by
  refine ⟨fun id => ?_, fun id f hf => ?_⟩
  · rw [amberPart_timerTick, amberPart_timerTick, ← h.part]
    cases hx : amberPart c.mForeign id with
    | none => simp
    | some x => simp only [h.stale_iff guard hx]
  · obtain ⟨_, g, hg, hcount, hseen⟩ := record_timerTick hf
    rw [lastAmber_tick, ← hcount, ← hseen]
    exact h.dated id g hg

theorem sameAmber_after (es : List Event) (h : Admits ExpiresByAmber es) :
    SameAmber es (after es) (after (primaryOnly es)) := by
  refine erasure (R := SameAmber) ⟨fun _ => rfl, fun id f hf => absurd hf (by simp)⟩ ?_ ?_ es h
  · intro es e d guard hkeep hrel
    cases e with
    | tick now => exact hrel.tick guard
    | announce pData sFrom i now =>
      cases i
      · exact hrel.amber_announce pData sFrom now
      · simp [Event.onPrimary] at hkeep
  · intro es e d _ hdrop hrel
    cases e with
    | tick now => simp [Event.onPrimary] at hdrop
    | announce pData sFrom i now =>
      cases i
      · simp [Event.onPrimary] at hdrop
      · exact hrel.blue_announce pData sFrom now

/-- As long as no blue announce keeps an amber-silent master alive or ages one
that amber still announces, the blue network is monitored and nothing else. -/
theorem selection_ignores_blue (es : List Event) (h : Admits ExpiresByAmber es) :
    (after es).selectedMaster = (after (primaryOnly es)).selectedMaster ∧
      ∀ pre now p, es = pre ++ [.tick now] → (after es).selectedMaster = some p →
        ∃ seen, lastAmber pre p = some seen ∧ ¬ Stale now seen := by
  have hsame : (after es).selectedMaster = (after (primaryOnly es)).selectedMaster :=
    (sameAmber_after es h).selected (settled_after _) (settled_after _)
  refine ⟨hsame, ?_⟩
  rintro pre now p rfl hp
  rw [hsame] at hp
  obtain ⟨ds, hbest⟩ : ∃ ds, bestMaster (after (primaryOnly (pre ++ [.tick now]))).mForeign = some (p, ds) := by
    rw [(settled_after _).selected] at hp
    obtain ⟨⟨_, ds⟩, hbest, rfl⟩ := Option.map_eq_some_iff.mp hp
    exact ⟨ds, hbest⟩
  obtain ⟨f, hf, _, _⟩ := mem_candidates.mp (champion_mem hbest)
  have hdate := ((sameAmber_after _ h).dated p f hf).2
  rw [lastAmber_tick] at hdate
  have hticked : after (primaryOnly (pre ++ [.tick now])) = timerTick (after (primaryOnly pre)) now := by
    rw [after, primaryOnly, List.filter_append]
    exact run_snoc ..
  rw [hticked] at hf
  exact ⟨f.lastSeen, hdate, (record_timerTick hf).1⟩

/-- Announced on both networks a second apart. -/
def healthyRun : List Event :=
  [.announce (announceOf 1 7 10 1) "10.0.0.1" .amber 0, .announce (announceOf 1 7 10 1) "10.1.0.1" .blue 1000000000,
    .announce (announceOf 1 7 10 1) "10.0.0.1" .amber 2000000000, .tick 3000000000]

instance (es : List Event) : DecidablePred (ExpiresByAmber es)
  | .announce .. => isTrue trivial
  | .tick now => inferInstanceAs (Decidable (∀ e ∈ (after es).mForeign.toList, 0 < e.2.nAnnounceCount →
      (Stale now e.2.lastSeen ↔ SilentOnAmber es e.1 now)))

theorem selection_ignores_blue_healthy :
    (after healthyRun).selectedMaster = (after (primaryOnly healthyRun)).selectedMaster ∧
      ∀ pre now p, healthyRun = pre ++ [.tick now] → (after healthyRun).selectedMaster = some p →
        ∃ seen, lastAmber pre p = some seen ∧ ¬ Stale now seen := by
  refine selection_ignores_blue healthyRun ?_
  simp only [healthyRun, admits_cons, admits_nil, and_true]
  decide +kernel

/-- Two announces on amber, then one on blue seven seconds later and a tick. -/
def blueKeepsAlive : List Event :=
  [.announce (announceOf 1 7 10 1) "10.0.0.1" .amber 0, .announce (announceOf 1 7 10 1) "10.0.0.1" .amber 0,
    .announce (announceOf 1 7 10 1) "10.1.0.1" .blue 7000000000, .tick 7000000000]

theorem blueKeepsAlive_selected :
    (after blueKeepsAlive).selectedMaster = some (portOf 1) ∧
      (after (primaryOnly blueKeepsAlive)).selectedMaster = none ∧
      SilentOnAmber blueKeepsAlive (portOf 1) 7000000000 := by
  decide +kernel

end PiAudioNode.Ptp
