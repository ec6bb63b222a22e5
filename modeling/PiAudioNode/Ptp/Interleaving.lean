import PiAudioNode.Ptp.MonitorOnly

/-! Announces of different sources, or of one source on the two networks, in any
order: the table they leave, times apart, and the master selected from it. -/
namespace PiAudioNode.Ptp
open Lib Lib.Tournament

/-- One call of the announce handler. -/
structure Announce where
  pData : Bytes
  sFrom : String
  nInterface : Interface
  now : Time

/-- The table after some announces, with no timer tick in between. -/
def announced (c : PtpClient) (es : List Announce) : PtpClient :=
  run (fun c a => handleAnnounce c a.pData a.sFrom a.nInterface a.now) c es

/-- Announces too short to read have no source. -/
def Announce.From (a : Announce) (id : PortIdentity) : Prop :=
  64 ≤ a.pData.length ∧ (parseAnnounce a.pData).source = id

instance (a : Announce) (id : PortIdentity) : Decidable (a.From id) := inferInstanceAs (Decidable (_ ∧ _))

def announcesOf (id : PortIdentity) (es : List Announce) : List Announce := es.filter fun a => a.From id

/-- What was announced by one port on one network, in the order it came. -/
def heardOn (id : PortIdentity) (nInterface : Interface) (es : List Announce) : List (Bytes × String) :=
  ((announcesOf id es).filter fun a => a.nInterface = nInterface).map fun a => (a.pData, a.sFrom)

/-- A record without the times it was seen. -/
def ForeignMaster.undated (f : ForeignMaster) : ForeignMaster := { f with firstSeen := 0, lastSeen := 0 }

/-- A record without what the selection writes into it. -/
def ForeignMaster.bare (f : ForeignMaster) : ForeignMaster :=
  { f with firstSeen := 0, lastSeen := 0, sBmcaInfo := "", bSelected := false }

/-- The record of a source after one more announce of it. -/
def book (foreign : Option ForeignMaster) (a : Announce) : Option ForeignMaster :=
  some (noteAnnounce (foreign.getD default) (parseAnnounce a.pData) a.sFrom a.nInterface a.now).bare

@[simp] theorem bare_annotate (best : Option Candidate) (id : PortIdentity) (f : ForeignMaster) :
    (annotate best id f).bare = f.bare := rfl

theorem bare_noteAnnounce (f : ForeignMaster) (ds : AnnounceDataset) (sFrom : String) (i : Interface)
    (now now' : Time) : (noteAnnounce f.bare ds sFrom i now).bare = (noteAnnounce f ds sFrom i now').bare := by
  cases i
  · rfl
  · by_cases h : f.nAnnounceCount = 0 <;> simp [noteAnnounce, ForeignMaster.bare, h]

/-- Only what is announced counts, not when. -/
theorem book_congr {o : Option ForeignMaster} {a b : Announce} (hdata : a.pData = b.pData) (hfrom : a.sFrom = b.sFrom)
    (hi : a.nInterface = b.nInterface) : book o a = book o b := by
  unfold book
  rw [hdata, hfrom, hi, ← bare_noteAnnounce _ _ _ _ 0 a.now, ← bare_noteAnnounce _ _ _ _ 0 b.now]

/-- The precedence of amber makes the two networks commute. -/
theorem book_commute (o : Option ForeignMaster) {x y : Announce} (hx : x.nInterface = .amber)
    (hy : ¬ y.nInterface = .amber) : book (book o y) x = book (book o x) y := by
  have hblue : y.nInterface = .blue := by
    cases h : y.nInterface
    · exact absurd h hy
    · rfl
  simp only [book, Option.getD_some, bare_noteAnnounce _ _ _ _ _ 0, hx, hblue]
  by_cases h : (o.getD default).nAnnounceCount = 0
  · simp [noteAnnounce, ForeignMaster.bare, h, Function.update_comm]
  · simp [noteAnnounce, ForeignMaster.bare, h, Function.update_comm]

theorem bare_getD (o : Option ForeignMaster) :
    ((o.map ForeignMaster.bare).getD default).bare = (o.getD default).bare := by
  cases o <;> rfl

theorem book_bare (o : Option ForeignMaster) (a : Announce) : book (o.map ForeignMaster.bare) a = book o a := by
  unfold book
  rw [← bare_noteAnnounce _ _ _ _ a.now, bare_getD, bare_noteAnnounce _ _ _ _ _ a.now]

section Table
variable (c : PtpClient) (es : List Announce)

theorem announced_snoc (a : Announce) :
    announced c (es ++ [a]) = handleAnnounce (announced c es) a.pData a.sFrom a.nInterface a.now := run_snoc ..

/-- One announce reaches the record of its source and no other. -/
theorem bare_handleAnnounce (a : Announce) (id : PortIdentity) :
    (handleAnnounce c a.pData a.sFrom a.nInterface a.now).mForeign[id]?.map ForeignMaster.bare =
      if a.From id then book c.mForeign[id]? a else c.mForeign[id]?.map ForeignMaster.bare := by
  have hrun (d : PtpClient) :
      (runBmca d).mForeign[id]?.map ForeignMaster.bare = d.mForeign[id]?.map ForeignMaster.bare := by
    simp [Function.comp_def]
  unfold handleAnnounce
  split
  · rename_i hlen
    rw [if_neg fun hfrom => by have := hfrom.1; omega]
  · rename_i hlen
    rw [hrun, Std.TreeMap.getElem?_insert]
    by_cases hid : (parseAnnounce a.pData).source = id
    · rw [if_pos (compare_eq_iff_eq.mpr hid), if_pos ⟨not_lt.mp hlen, hid⟩, hid,
        Std.TreeMap.getD_eq_getD_getElem?]
      rfl
    · rw [if_neg (mt compare_eq_iff_eq.mp hid), if_neg fun hfrom => hid hfrom.2]

/-- A record depends on the announces of its source alone. -/
theorem bare_announced (id : PortIdentity) :
    (announced c es).mForeign[id]?.map ForeignMaster.bare =
      run book (c.mForeign[id]?.map ForeignMaster.bare) (announcesOf id es) := by
  induction es using List.reverseRecOn with
  | nil => rfl
  | append_singleton es a ih =>
    rw [announced_snoc, bare_handleAnnounce, announcesOf, List.filter_append, ← announcesOf]
    by_cases ha : a.From id
    · rw [if_pos ha, List.filter_cons_of_pos (by simpa using ha), List.filter_nil, run_snoc, ← ih, book_bare]
    · rw [if_neg ha, List.filter_cons_of_neg (by simpa using ha), List.filter_nil, List.append_nil, ih]

end Table

theorem run_book_congr {es fs : List Announce} {i : Interface}
    (h : (es.filter fun a => a.nInterface = i).map (fun a => (a.pData, a.sFrom)) =
      (fs.filter fun a => a.nInterface = i).map fun a => (a.pData, a.sFrom)) (o : Option ForeignMaster) :
    run book o (es.filter fun a => a.nInterface = i) = run book o (fs.filter fun a => a.nInterface = i) := by
  have plain (as : List Announce) (has : ∀ a ∈ as, a.nInterface = i) (o : Option ForeignMaster) :
      run book o as = run (fun o p => book o ⟨p.1, p.2, i, 0⟩) o (as.map fun a => (a.pData, a.sFrom)) := by
    induction as generalizing o with
    | nil => rfl
    | cons a as ih =>
      have hstep : book o a = book o ⟨a.pData, a.sFrom, i, 0⟩ := book_congr rfl rfl (has a (by simp))
      exact (congrArg (run book · as) hstep).trans (ih (fun b hb => has b (List.mem_cons_of_mem _ hb)) _)
  rw [plain _ (fun a ha => by simpa using (List.mem_filter.mp ha).2), h,
    ← plain _ (fun a ha => by simpa using (List.mem_filter.mp ha).2)]

/-- Amber first, blue after it: the same record as in the order received. -/
theorem run_book_by_network (o : Option ForeignMaster) (es : List Announce) :
    run book o es = run book (run book o (es.filter fun a => a.nInterface = .amber))
      (es.filter fun a => a.nInterface = .blue) := by
  rw [run_by_kind (p := fun a : Announce => decide (a.nInterface = .amber)) ?_ o es]
  · congr 2
    funext a
    cases a.nInterface <;> rfl
  · intro o x y hx hy
    exact book_commute o (of_decide_eq_true hx) (by simpa using hy)

theorem bare_announced_congr {c : PtpClient} {es fs : List Announce} {id : PortIdentity}
    (h : ∀ i, heardOn id i es = heardOn id i fs) :
    (announced c es).mForeign[id]?.map ForeignMaster.bare =
      (announced c fs).mForeign[id]?.map ForeignMaster.bare := by
  rw [bare_announced, bare_announced, run_book_by_network, run_book_by_network _ (announcesOf id fs),
    run_book_congr (h .amber), run_book_congr (h .blue)]

/-- The selection, and the notes with it, are worked out anew from the bare records. -/
structure Selected (c : PtpClient) (t : ForeignTable) : Prop where
  table : c.mForeign = t.map (annotate (bestMaster t))
  selected : c.selectedMaster = (bestMaster t).map Prod.fst

theorem selected_runBmca (c : PtpClient) : Selected (runBmca c) c.mForeign := ⟨by simp, by simp⟩

/-- Either nothing was announced at all or the selection was run after the last announce. -/
theorem announced_selected (c : PtpClient) (es : List Announce) :
    (announced c es = c ∧ ∀ a ∈ es, a.pData.length < 64) ∨
      (∃ t, Selected (announced c es) t) ∧ ∃ a ∈ es, 64 ≤ a.pData.length := by
  induction es using List.reverseRecOn with
  | nil => exact Or.inl ⟨rfl, by simp⟩
  | append_singleton es a ih =>
    rw [announced_snoc]
    unfold handleAnnounce
    split
    · rename_i hlen
      rcases ih with ⟨hsame, hshort⟩ | ⟨ht, b, hb, hlong⟩
      · refine Or.inl ⟨hsame, fun b hb => ?_⟩
        rcases List.mem_append.mp hb with hb | hb
        · exact hshort b hb
        · rw [List.mem_singleton.mp hb]
          exact hlen
      · exact Or.inr ⟨ht, b, List.mem_append_left _ hb, hlong⟩
    · rename_i hlen
      exact Or.inr ⟨⟨_, selected_runBmca _⟩, a, by simp, not_lt.mp hlen⟩

theorem bestMaster_congr {t u : ForeignTable}
    (h : ∀ id : PortIdentity, t[id]?.map ForeignMaster.bare = u[id]?.map ForeignMaster.bare) :
    bestMaster t = bestMaster u := by
  have hpart (v : ForeignTable) (id : PortIdentity) :
      amberPart v id = (v[id]?.map ForeignMaster.bare).bind ForeignMaster.amber := by
    unfold amberPart
    cases v[id]? <;> rfl
  have hsame : candidates t = candidates u := candidates_congr fun id => by rw [hpart t, hpart u, h]
  rw [bestMaster, bestMaster, hsame]

/-- With a best master chosen from them, the old note of no record is kept. -/
theorem annotate_undated {t : ForeignTable} {id : PortIdentity} {f g : ForeignMaster} (hf : t[id]? = some f)
    (h : f.bare = g.bare) :
    (annotate (bestMaster t) id f).undated = (annotate (bestMaster t) id g).undated := by
  simp only [ForeignMaster.bare, ForeignMaster.mk.injEq] at h
  obtain ⟨hds, hcount, hcounts, hdatasets, -, -, haddress, -, -⟩ := h
  have hinfo : bmcaInfo (bestMaster t) id f = bmcaInfo (bestMaster t) id g := by
    cases hbest : bestMaster t with
    | some b => simp [bmcaInfo, hcount, hcounts, hds]
    | none =>
      have hunqualified : f.nAnnounceCount < 2 := by
        by_contra hq
        have hmem : (id, f.dataset) ∈ candidates t := mem_candidates.mpr ⟨f, hf, not_lt.mp hq, rfl⟩
        obtain ⟨w, hw⟩ : ∃ w, bestMaster t = some w := champion_exists (List.ne_nil_of_mem hmem)
        rw [hbest] at hw
        cases hw
      simp [bmcaInfo, ← hcount, hcounts, hunqualified]
  simp [annotate, ForeignMaster.undated, hinfo, hds, hcount, hcounts, hdatasets, haddress]

/-- Two clients that differ in the times of their records at most, and select alike. -/
structure SameUndated (c d : PtpClient) : Prop where
  table : ∀ id : PortIdentity, c.mForeign[id]?.map ForeignMaster.undated = d.mForeign[id]?.map ForeignMaster.undated
  selected : c.selectedMaster = d.selectedMaster

theorem Selected.undated_eq {c d : PtpClient} {t u : ForeignTable} (hc : Selected c t) (hd : Selected d u)
    (h : ∀ id : PortIdentity, c.mForeign[id]?.map ForeignMaster.bare = d.mForeign[id]?.map ForeignMaster.bare) :
    SameUndated c d := by
  have hbare (id : PortIdentity) : t[id]?.map ForeignMaster.bare = u[id]?.map ForeignMaster.bare := by
    simpa [hc.table, hd.table, Function.comp_def] using h id
  have hbest := bestMaster_congr hbare
  refine ⟨fun id => ?_, by rw [hc.selected, hd.selected, hbest]⟩
  rw [hc.table, hd.table, Std.TreeMap.getElem?_map, Std.TreeMap.getElem?_map, ← hbest]
  cases hf : t[id]? with
  | none =>
    have hg : u[id]? = none := by simpa [hf] using (hbare id).symm
    simp [hg]
  | some f =>
    obtain ⟨g, hg, hfg⟩ : ∃ g, u[id]? = some g ∧ g.bare = f.bare := by
      simpa [hf] using (hbare id).symm
    simp only [hg, Option.map_some, annotate_undated hf hfg.symm]

theorem long_of_heard {es fs : List Announce} (h : ∀ id i, heardOn id i es = heardOn id i fs)
    (hes : ∃ a ∈ es, 64 ≤ a.pData.length) : ∃ b ∈ fs, 64 ≤ b.pData.length := by
  obtain ⟨a, ha, hlong⟩ := hes
  have hmem : (a.pData, a.sFrom) ∈ heardOn (parseAnnounce a.pData).source a.nInterface es :=
    List.mem_map.mpr ⟨a, by simp [announcesOf, Announce.From, ha, hlong], rfl⟩
  rw [h] at hmem
  obtain ⟨b, hb, -⟩ := List.mem_map.mp hmem
  have hfrom : b.From (parseAnnounce a.pData).source :=
    of_decide_eq_true (List.mem_filter.mp (List.mem_filter.mp hb).1).2
  exact ⟨b, (List.mem_filter.mp (List.mem_filter.mp hb).1).1, hfrom.1⟩

/-- Two orders of the same announces that keep the order of each source on each
network leave the same table, times apart, and the same selected master. -/
theorem announces_interleave (c : PtpClient) (es fs : List Announce)
    (h : ∀ id i, heardOn id i es = heardOn id i fs) : SameUndated (announced c es) (announced c fs) := by
  rcases announced_selected c es with ⟨hes, hshort⟩ | ⟨⟨t, ht⟩, hlong⟩
  · rcases announced_selected c fs with ⟨hfs, -⟩ | ⟨-, hlong⟩
    · rw [hes, hfs]
      exact ⟨fun _ => rfl, rfl⟩
    · obtain ⟨a, ha, hlong⟩ := long_of_heard (fun id i => (h id i).symm) hlong
      exact absurd (hshort a ha) (not_lt.mpr hlong)
  · rcases announced_selected c fs with ⟨-, hshort⟩ | ⟨⟨u, hu⟩, -⟩
    · obtain ⟨a, ha, hlong⟩ := long_of_heard h hlong
      exact absurd (hshort a ha) (not_lt.mpr hlong)
    · exact ht.undated_eq hu fun id => bare_announced_congr (h id)

def amberOne : Bytes := announceOf 1 7 10 1
def blueOne : Bytes := announceOf 1 7 20 1
def amberTwo : Bytes := announceOf 2 7 10 0

/-- A source on both networks, and a second one whose announces fall in between. -/
def amberFirst : List Announce :=
  [⟨amberOne, "10.0.0.1", .amber, 0⟩, ⟨blueOne, "10.1.0.1", .blue, 1⟩, ⟨amberTwo, "10.0.0.2", .amber, 2⟩]

def blueFirst : List Announce :=
  [⟨blueOne, "10.1.0.1", .blue, 5⟩, ⟨amberTwo, "10.0.0.2", .amber, 6⟩, ⟨amberOne, "10.0.0.1", .amber, 7⟩]

theorem amberFirst_blueFirst : SameUndated (announced {} amberFirst) (announced {} blueFirst) := by
  refine announces_interleave {} amberFirst blueFirst fun id i => ?_
  obtain ⟨p, q, hpq, h1, h2, h3⟩ : ∃ p q, p ≠ q ∧ (parseAnnounce amberOne).source = p ∧
      (parseAnnounce blueOne).source = p ∧ (parseAnnounce amberTwo).source = q :=
    ⟨portOf 1, portOf 2, by decide, by decide, by decide, by decide⟩
  have long : 64 ≤ amberOne.length ∧ 64 ≤ blueOne.length ∧ 64 ≤ amberTwo.length := by decide
  by_cases hp : p = id
  · have hq : q ≠ id := hp ▸ hpq.symm
    cases i <;>
      simp [heardOn, announcesOf, Announce.From, amberFirst, blueFirst, h1, h2, h3, hp, hq, long]
  · by_cases hq : q = id <;> cases i <;>
      simp [heardOn, announcesOf, Announce.From, amberFirst, blueFirst, h1, h2, h3, hp, hq, long]

end PiAudioNode.Ptp
