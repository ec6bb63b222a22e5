import PiAudioNode.Ptp.Interleaving
import PiAudioNode.Ptp.Isolation

/-! The foreign master table as a book of what was heard: each record sums up the
announces of its port since it was last forgotten. -/
namespace PiAudioNode.Ptp
open Lib

/-- The announces that came in on one network. -/
def onNetwork (nInterface : Interface) (vHeard : List Announce) : List Announce := vHeard.filter fun a => a.nInterface = nInterface

/-- The announce a record shows: the last one from amber, or from blue while there is none. -/
def shown (vHeard : List Announce) : Option Announce := (onNetwork .amber vHeard).getLast?.or (onNetwork .blue vHeard).getLast?

/-- The record that some announces of one port add up to. -/
def record (vHeard : List Announce) : ForeignMaster where
  dataset := (shown vHeard).elim {} fun a => parseAnnounce a.pData
  nAnnounceCount := (onNetwork .amber vHeard).length
  aAnnounceCount nInterface := (onNetwork nInterface vHeard).length
  aDataset nInterface := (onNetwork nInterface vHeard).getLast?.elim {} fun a => parseAnnounce a.pData
  lastSeen := vHeard.getLast?.elim 0 Announce.now
  firstSeen := vHeard.head?.elim 0 Announce.now
  sAddress := (shown vHeard).elim "" Announce.sFrom

def summary (vHeard : List Announce) : Option ForeignMaster := if vHeard = [] then none else some (record vHeard)

/-- A record without what the selection notes in it. -/
def ForeignMaster.unmarked (f : ForeignMaster) : ForeignMaster := { f with sBmcaInfo := "", bSelected := false }

section Summary
variable (vHeard : List Announce) {a : Announce}

theorem onNetwork_snoc (nInterface : Interface) (a : Announce) :
    onNetwork nInterface (vHeard ++ [a]) = if a.nInterface = nInterface then onNetwork nInterface vHeard ++ [a] else onNetwork nInterface vHeard := by
  rw [onNetwork, List.filter_append, onNetwork]
  split_ifs with h
  · rw [List.filter_cons_of_pos (by simpa using h), List.filter_nil]
  · rw [List.filter_cons_of_neg (by simpa using h), List.filter_nil, List.append_nil]

theorem length_onNetwork : (onNetwork .amber vHeard).length + (onNetwork .blue vHeard).length = vHeard.length := by
  induction vHeard using List.reverseRecOn with
  | nil => rfl
  | append_singleton vHeard a ih =>
    rw [onNetwork_snoc, onNetwork_snoc, List.length_append]
    cases a.nInterface with
    | amber =>
      rw [if_pos rfl, if_neg (by decide), List.length_append]
      simp only [List.length_singleton]
      omega
    | blue =>
      rw [if_neg (by decide), if_pos rfl, List.length_append]
      simp only [List.length_singleton]
      omega

theorem shown_snoc (a : Announce) :
    shown (vHeard ++ [a]) = if a.nInterface = .amber ∨ onNetwork .amber vHeard = [] then some a else shown vHeard := by
  rw [shown, onNetwork_snoc, onNetwork_snoc]
  cases a.nInterface with
  | amber =>
    rw [if_pos rfl, List.getLast?_concat, if_pos (Or.inl rfl)]
    rfl
  | blue =>
    rw [if_neg (by decide), if_pos rfl, List.getLast?_concat]
    by_cases hnone : onNetwork .amber vHeard = []
    · rw [hnone, if_pos (Or.inr rfl)]
      rfl
    · rw [if_neg (by simpa using hnone), shown, List.getLast?_eq_some_getLast hnone]
      rfl

variable (a)

theorem aAnnounceCount_snoc : (record (vHeard ++ [a])).aAnnounceCount =
    Function.update (record vHeard).aAnnounceCount a.nInterface ((record vHeard).aAnnounceCount a.nInterface + 1) := by
  funext nInterface
  change (onNetwork nInterface (vHeard ++ [a])).length = _
  rw [onNetwork_snoc]
  by_cases h : a.nInterface = nInterface
  · subst h
    rw [if_pos rfl, Function.update_self, List.length_append]
    rfl
  · rw [if_neg h, Function.update_of_ne (Ne.symm h)]
    rfl

theorem aDataset_snoc : (record (vHeard ++ [a])).aDataset =
    Function.update (record vHeard).aDataset a.nInterface (parseAnnounce a.pData) := by
  funext nInterface
  change (onNetwork nInterface (vHeard ++ [a])).getLast?.elim {} (fun b => parseAnnounce b.pData) = _
  rw [onNetwork_snoc]
  by_cases h : a.nInterface = nInterface
  · subst h
    rw [if_pos rfl, Function.update_self, List.getLast?_concat]
    rfl
  · rw [if_neg h, Function.update_of_ne (Ne.symm h)]
    rfl

theorem firstSeen_snoc : (record (vHeard ++ [a])).firstSeen =
    if (record vHeard).aAnnounceCount .amber + (record vHeard).aAnnounceCount .blue = 0 then a.now
      else (record vHeard).firstSeen := by
  have hcount : (record vHeard).aAnnounceCount .amber + (record vHeard).aAnnounceCount .blue = vHeard.length :=
    length_onNetwork vHeard
  rw [hcount]
  cases vHeard with
  | nil => rfl
  | cons b vHeard => rfl

theorem lastSeen_snoc : (record (vHeard ++ [a])).lastSeen = a.now := by
  rw [record, List.getLast?_concat]
  rfl

/-- Before amber has announced, blue fills the record in. -/
theorem shown_field {δ : Type*} (clean : δ) (field : Announce → δ) : (shown (vHeard ++ [a])).elim clean field =
    if a.nInterface = .amber ∨ (record vHeard).nAnnounceCount = 0 then field a else (shown vHeard).elim clean field := by
  have hnone : (record vHeard).nAnnounceCount = 0 ↔ onNetwork .amber vHeard = [] := List.length_eq_zero_iff
  simp only [shown_snoc, hnone]
  split_ifs <;> rfl

theorem nAnnounceCount_snoc : (record (vHeard ++ [a])).nAnnounceCount =
    if a.nInterface = .amber then (record vHeard).nAnnounceCount + 1 else (record vHeard).nAnnounceCount := by
  change (onNetwork .amber (vHeard ++ [a])).length = _
  rw [onNetwork_snoc]
  split_ifs
  · rw [List.length_append]
    rfl
  · rfl

theorem noteAnnounce_eq (f : ForeignMaster) (ds : AnnounceDataset) (sFrom : String) (nInterface : Interface) (now : Time) :
    noteAnnounce f ds sFrom nInterface now =
      { f with
        dataset := if nInterface = .amber ∨ f.nAnnounceCount = 0 then ds else f.dataset
        nAnnounceCount := if nInterface = .amber then f.nAnnounceCount + 1 else f.nAnnounceCount
        aAnnounceCount := Function.update f.aAnnounceCount nInterface (f.aAnnounceCount nInterface + 1)
        aDataset := Function.update f.aDataset nInterface ds
        lastSeen := now
        firstSeen := if f.aAnnounceCount .amber + f.aAnnounceCount .blue = 0 then now else f.firstSeen
        sAddress := if nInterface = .amber ∨ f.nAnnounceCount = 0 then sFrom else f.sAddress } := by
  cases nInterface with
  | amber => simp [noteAnnounce]
  | blue => by_cases h : f.nAnnounceCount = 0 <;> simp [noteAnnounce, h]

/-- Booking one more announce. -/
theorem noteAnnounce_record :
    noteAnnounce (record vHeard) (parseAnnounce a.pData) a.sFrom a.nInterface a.now = record (vHeard ++ [a]) := by
  let f := record (vHeard ++ [a])
  have hdataset : f.dataset = if a.nInterface = .amber ∨ (record vHeard).nAnnounceCount = 0 then parseAnnounce a.pData
      else (record vHeard).dataset := shown_field vHeard a ({} : AnnounceDataset) fun b => parseAnnounce b.pData
  have hfrom : f.sAddress = if a.nInterface = .amber ∨ (record vHeard).nAnnounceCount = 0 then a.sFrom
      else (record vHeard).sAddress := shown_field vHeard a "" Announce.sFrom
  have heta : f = ⟨f.dataset, f.nAnnounceCount, f.aAnnounceCount, f.aDataset, f.lastSeen, f.firstSeen, f.sAddress, "",
    false⟩ := rfl
  change _ = f
  rw [noteAnnounce_eq, heta, hdataset, hfrom, nAnnounceCount_snoc, aAnnounceCount_snoc, aDataset_snoc, firstSeen_snoc,
    lastSeen_snoc]
  rfl

theorem unmarked_noteAnnounce (f : ForeignMaster) (ds : AnnounceDataset) (sFrom : String) (nInterface : Interface)
    (now : Time) : (noteAnnounce f ds sFrom nInterface now).unmarked = noteAnnounce f.unmarked ds sFrom nInterface now := by
  rw [noteAnnounce_eq, noteAnnounce_eq]
  rfl

end Summary

section Watch
variable (ownIdentity : ClockIdentity) (id : PortIdentity)

/-- What is known of one port without looking at the table: the domain of the node, and
the announces of the port since it was last forgotten. -/
structure Watch where
  nDomain : Int
  vHeard : List Announce := []

def Datagram.announcement (m : Datagram) : Announce := ⟨m.pData, m.sFrom, m.nInterface, m.now⟩

/-- An announce of the node's domain that another clock sent. -/
def Announcing (nDomain : Int) (m : Datagram) : Prop :=
  byteAt m.pData 1 &&& 0x0f = 2 ∧ domainOf m = nDomain ∧ identityAt m.pData 20 ≠ ownIdentity ∧
    msgTypeOf m.pData = MsgType.announce.code

instance (nDomain : Int) (m : Datagram) : Decidable (Announcing ownIdentity nDomain m) :=
  inferInstanceAs (Decidable (_ ∧ _ ∧ _ ∧ _))

/-- Nothing came for longer than the timeout. -/
def Silent (vHeard : List Announce) (now : Time) : Prop := ∀ a ∈ vHeard.getLast?, Stale now a.now

instance (vHeard : List Announce) (now : Time) : Decidable (Silent vHeard now) :=
  inferInstanceAs (Decidable (∀ a ∈ vHeard.getLast?, _))

/-- A port is forgotten when it has been silent at a tick of the timer, and when the node
changes its domain. -/
def watchStep (w : Watch) : ClockEvent → Watch
  | .rx m =>
    if Announcing ownIdentity w.nDomain m ∧ m.announcement.From id then { w with vHeard := w.vHeard ++ [m.announcement] }
    else w
  | .tick now => if Silent w.vHeard now then { w with vHeard := [] } else w
  | .sendDelayReq _ => w
  | .setDomain nDomain => if nDomain = w.nDomain then w else { nDomain }

def watch (nDomain : Int) (es : List ClockEvent) : Watch := run (watchStep ownIdentity id) { nDomain } es

end Watch

section Table
variable {c : PtpClient} {id : PortIdentity} {vHeard : List Announce}

@[simp] theorem unmarked_annotate (best : Option Candidate) (id : PortIdentity) (f : ForeignMaster) :
    (annotate best id f).unmarked = f.unmarked := rfl

/-- The selection leaves the records, its notes apart. -/
theorem unmarked_runBmca (c : PtpClient) (id : PortIdentity) :
    (runBmca c).mForeign[id]?.map ForeignMaster.unmarked = c.mForeign[id]?.map ForeignMaster.unmarked := by
  simp [Function.comp_def]

theorem summary_getD (h : c.mForeign[id]?.map ForeignMaster.unmarked = summary vHeard) :
    (c.mForeign[id]?.getD default).unmarked = record vHeard := by
  unfold summary at h
  split_ifs at h with hnone
  · rw [Option.map_eq_none_iff.mp h, hnone]
    rfl
  · obtain ⟨f, hf, hrecord⟩ := Option.map_eq_some_iff.mp h
    rw [hf]
    exact hrecord

theorem summary_snoc (vHeard : List Announce) (a : Announce) : summary (vHeard ++ [a]) = some (record (vHeard ++ [a])) :=
  if_neg (by simp)

theorem booked_handleAnnounce (h : c.mForeign[id]?.map ForeignMaster.unmarked = summary vHeard) (a : Announce) :
    (handleAnnounce c a.pData a.sFrom a.nInterface a.now).mForeign[id]?.map ForeignMaster.unmarked =
      summary (if a.From id then vHeard ++ [a] else vHeard) := by
  unfold handleAnnounce
  split
  · rename_i hshort
    rw [if_neg fun hfrom : a.From id => absurd hfrom.1 (not_le.mpr hshort)]
    exact h
  · rename_i hlong
    rw [unmarked_runBmca, Std.TreeMap.getElem?_insert]
    by_cases hid : (parseAnnounce a.pData).source = id
    · have hfrom : a.From id := ⟨not_lt.mp hlong, hid⟩
      rw [if_pos (compare_eq_iff_eq.mpr hid), if_pos hfrom, summary_snoc, Option.map_some, unmarked_noteAnnounce, hid,
        Std.TreeMap.getD_eq_getD_getElem?, summary_getD h, noteAnnounce_record]
    · rw [if_neg (mt compare_eq_iff_eq.mp hid), if_neg fun hfrom : a.From id => hid hfrom.2]
      exact h

theorem unmarked_dropMaster (c : PtpClient) (gone id : PortIdentity) :
    (dropMaster c gone).mForeign[id]?.map ForeignMaster.unmarked =
      if gone = id then none else c.mForeign[id]?.map ForeignMaster.unmarked := by
  rw [dropMaster, unmarked_runBmca, Std.TreeMap.getElem?_erase]
  simp only [compare_eq_iff_eq]
  split_ifs <;> rfl

theorem unmarked_drops (ids : List PortIdentity) (c : PtpClient) (id : PortIdentity) :
    (ids.foldl dropMaster c).mForeign[id]?.map ForeignMaster.unmarked =
      if id ∈ ids then none else c.mForeign[id]?.map ForeignMaster.unmarked := by
  induction ids generalizing c with
  | nil => rfl
  | cons gone ids ih =>
    rw [List.foldl_cons, ih, unmarked_dropMaster]
    by_cases hlater : id ∈ ids
    · rw [if_pos hlater, if_pos (List.mem_cons_of_mem _ hlater)]
    · rw [if_neg hlater]
      by_cases hgone : gone = id
      · rw [if_pos hgone, if_pos (by rw [hgone]; exact List.mem_cons_self)]
      · rw [if_neg hgone, if_neg (by simp [hlater, Ne.symm hgone])]

/-- The timer finds a record stale just when its port has been silent. -/
theorem mem_staleMasters_iff (h : c.mForeign[id]?.map ForeignMaster.unmarked = summary vHeard) (now : Time) :
    id ∈ staleMasters c.mForeign now ↔ vHeard ≠ [] ∧ Silent vHeard now := by
  rw [mem_staleMasters]
  unfold summary at h
  split_ifs at h with hnone
  · rw [Option.map_eq_none_iff.mp h]
    constructor
    · rintro ⟨f, hf, -⟩
      cases hf
    · exact fun hheard => absurd hnone hheard.1
  · obtain ⟨f, hf, hrecord⟩ := Option.map_eq_some_iff.mp h
    have hseen : f.lastSeen = (vHeard.getLast hnone).now := by
      have hlast : f.unmarked.lastSeen = (record vHeard).lastSeen := congrArg ForeignMaster.lastSeen hrecord
      change f.lastSeen = vHeard.getLast?.elim 0 Announce.now at hlast
      rw [hlast, List.getLast?_eq_some_getLast hnone]
      rfl
    have hsilent : Silent vHeard now ↔ Stale now f.lastSeen := by
      rw [Silent, List.getLast?_eq_some_getLast hnone, hseen]
      exact ⟨fun hall => hall _ rfl, fun hstale a ha => Option.some.inj ha ▸ hstale⟩
    rw [hf, hsilent]
    constructor
    · rintro ⟨g, hg, hstale⟩
      obtain rfl := Option.some.inj hg
      exact ⟨hnone, hstale⟩
    · rintro ⟨-, hstale⟩
      exact ⟨f, rfl, hstale⟩

theorem booked_timerTick (h : c.mForeign[id]?.map ForeignMaster.unmarked = summary vHeard) (now : Time) :
    (timerTick c now).mForeign[id]?.map ForeignMaster.unmarked = summary (if Silent vHeard now then [] else vHeard) := by
  have hstale := mem_staleMasters_iff h now
  rw [timerTick_mForeign, ageOut, unmarked_drops]
  by_cases hsilent : Silent vHeard now
  · rw [if_pos hsilent]
    by_cases hnone : vHeard = []
    · rw [if_neg fun hmem => (hstale.mp hmem).1 hnone, h, hnone]
    · rw [if_pos (hstale.mpr ⟨hnone, hsilent⟩)]
      rfl
  · rw [if_neg fun hmem => hsilent (hstale.mp hmem).2, if_neg hsilent, h]

end Table

section Runs
variable {c : PtpClock} {ownIdentity : ClockIdentity} {id : PortIdentity} {w : Watch}

/-- The record of a port is what the watch on it adds up to. -/
structure Booked (ownIdentity : ClockIdentity) (id : PortIdentity) (c : PtpClock) (w : Watch) : Prop where
  own : c.ownIdentity = ownIdentity
  domain : c.nDomain = w.nDomain
  record : c.mForeign[id]?.map ForeignMaster.unmarked = summary w.vHeard

theorem table_dispatch (m : Datagram) (hpassed : Passed c.ownIdentity m) (hother : msgTypeOf m.pData ≠ MsgType.announce.code) :
    (dispatch c m).1.mForeign = c.mForeign := by
  have hhandles := handles {} hpassed
  generalize ({} : Origins).handled c m = o' at hhandles
  cases hhandles with
  | announce _ htype => exact absurd htype hother
  | refused client => rw [client]
  | awaits _ client => rw [client]
  | measures _ _ client _ _ => exact client.table
  | delay _ client => rw [client]

theorem Booked.rx (h : Booked ownIdentity id c w) (m : Datagram) :
    Booked ownIdentity id (clockStep c (.rx m)).1 (watchStep ownIdentity id w (.rx m)) := by
  have hkept (hno : ¬ (Announcing ownIdentity w.nDomain m ∧ m.announcement.From id)) :
      watchStep ownIdentity id w (.rx m) = w := if_neg hno
  rw [clockStep]
  split_ifs with hshort
  · rw [hkept fun hheard => absurd hheard.2.1 (by simp only [Datagram.announcement]; omega)]
    exact h
  rw [handleMessage_eq]
  by_cases haddressed : Addressed c m.pData
  swap
  · rw [if_pos haddressed, hkept fun hheard => haddressed ⟨hheard.1.1, hheard.1.2.1.trans h.domain.symm,
      h.own ▸ hheard.1.2.2.1⟩]
    exact h
  rw [if_neg (not_not.mpr haddressed)]
  obtain ⟨hversion, hdomain, hforeign⟩ := haddressed
  have hpassed : Passed c.ownIdentity m := ⟨not_lt.mp hshort, hversion, hforeign⟩
  refine ⟨(dispatch_ownIdentity c m).trans h.own, ?_, ?_⟩
  · rw [dispatch_nDomain, watchStep]
    split_ifs <;> exact h.domain
  by_cases htype : msgTypeOf m.pData = MsgType.announce.code
  · have hannouncing : Announcing ownIdentity w.nDomain m := ⟨hversion, hdomain.trans h.domain, h.own ▸ hforeign, htype⟩
    have hbooked := booked_handleAnnounce h.record m.announcement
    rw [dispatch, if_pos htype, watchStep]
    simp only [hannouncing, true_and]
    split_ifs at hbooked ⊢ <;> exact hbooked
  · rw [table_dispatch m hpassed htype, hkept fun hheard => htype hheard.1.2.2.2]
    exact h.record

theorem Booked.step (h : Booked ownIdentity id c w) (e : ClockEvent) :
    Booked ownIdentity id (clockStep c e).1 (watchStep ownIdentity id w e) := by
  cases e with
  | rx m => exact h.rx m
  | tick now =>
    refine ⟨h.own, ?_, ?_⟩
    · rw [watchStep]
      split_ifs <;> exact h.domain
    · have hbooked := booked_timerTick h.record now
      rw [watchStep]
      split_ifs at hbooked ⊢ <;> exact hbooked
  | sendDelayReq nTxNs => exact ⟨h.own, h.domain, h.record⟩
  | setDomain nDomain =>
    rw [clockStep, watchStep, setDomain, h.domain]
    split_ifs
    · exact h
    · exact ⟨h.own, rfl, by simp [summary]⟩

variable (nDomain : Int) (es : List ClockEvent)

theorem booked_after (id : PortIdentity) :
    Booked ownIdentity id (clockAfter nDomain ownIdentity es) (watch ownIdentity id nDomain es) := by
  induction es using List.reverseRecOn with
  | nil => exact ⟨rfl, rfl, by simp [clockAfter, summary, watch]⟩
  | append_singleton es e ih =>
    rw [clockAfter, watch, run_snoc, run_snoc]
    exact ih.step e

theorem Booked.qualified_iff (h : Booked ownIdentity id c w) :
    (∃ f : ForeignMaster, c.mForeign[id]? = some f ∧ f.Qualified) ↔ 2 ≤ (onNetwork .amber w.vHeard).length := by
  have hrecord := h.record
  unfold summary at hrecord
  split_ifs at hrecord with hnone
  · rw [Option.map_eq_none_iff.mp hrecord, hnone]
    constructor
    · rintro ⟨f, hf, -⟩
      cases hf
    · exact fun htwo => absurd htwo (by decide)
  · obtain ⟨f, hf, hsum⟩ := Option.map_eq_some_iff.mp hrecord
    have hcount : f.nAnnounceCount = (onNetwork .amber w.vHeard).length := congrArg ForeignMaster.nAnnounceCount hsum
    rw [hf, ← hcount]
    constructor
    · rintro ⟨g, hg, hqual⟩
      obtain rfl := Option.some.inj hg
      exact hqual
    · exact fun hqual => ⟨f, rfl, hqual⟩

theorem heard_step {e : ClockEvent} {a : Announce} (ha : a ∈ (watchStep ownIdentity id w e).vHeard) :
    (a ∈ w.vHeard ∧ (watchStep ownIdentity id w e).nDomain = w.nDomain) ∨
      ∃ m, e = .rx m ∧ Announcing ownIdentity w.nDomain m ∧ m.announcement.From id ∧ a = m.announcement ∧
        (watchStep ownIdentity id w e).nDomain = w.nDomain := by
  cases e with
  | rx m =>
    rw [watchStep] at ha ⊢
    split_ifs at ha ⊢ with hheard
    · rcases List.mem_append.mp ha with hold | hnew
      · exact Or.inl ⟨hold, rfl⟩
      · exact Or.inr ⟨m, rfl, hheard.1, hheard.2, List.mem_singleton.mp hnew, rfl⟩
    · exact Or.inl ⟨ha, rfl⟩
  | tick now =>
    rw [watchStep] at ha ⊢
    split_ifs at ha ⊢
    · cases ha
    · exact Or.inl ⟨ha, rfl⟩
  | sendDelayReq nTxNs => exact Or.inl ⟨ha, rfl⟩
  | setDomain nDomain =>
    rw [watchStep] at ha ⊢
    split_ifs at ha ⊢
    · exact Or.inl ⟨ha, rfl⟩
    · cases ha

/-- What is in the watch came in during the run, from another clock, on the domain the
node is on now. -/
theorem heard_watch {a : Announce} (ha : a ∈ (watch ownIdentity id nDomain es).vHeard) :
    ∃ m, .rx m ∈ es ∧ Announcing ownIdentity (watch ownIdentity id nDomain es).nDomain m ∧ m.announcement.From id ∧
      a = m.announcement := by
  induction es using List.reverseRecOn with
  | nil => cases ha
  | append_singleton es e ih =>
    rw [watch, run_snoc, ← watch] at ha ⊢
    rcases heard_step ha with ⟨hold, hdomain⟩ | ⟨m, rfl, hheard, hfrom, rfl, hdomain⟩
    · obtain ⟨m, hm, hheard⟩ := ih hold
      rw [hdomain]
      exact ⟨m, List.mem_append_left _ hm, hheard⟩
    · rw [hdomain]
      exact ⟨m, List.mem_append_right _ (List.mem_singleton.mpr rfl), hheard, hfrom, rfl⟩

/-- The table says what was heard: each record adds up the announces of its port since it
was last forgotten, all of them from other clocks on the domain of the node, and a master
is selected just when amber heard some port twice. -/
structure Faithful (ownIdentity : ClockIdentity) (es : List ClockEvent) (c : PtpClock) (w : PortIdentity → Watch) :
    Prop where
  record (id : PortIdentity) : c.mForeign[id]?.map ForeignMaster.unmarked = summary (w id).vHeard
  heard (id : PortIdentity) (a : Announce) : a ∈ (w id).vHeard →
    ∃ m, .rx m ∈ es ∧ Announcing ownIdentity c.nDomain m ∧ m.announcement.From id ∧ a = m.announcement
  isSome : c.selectedMaster.isSome ↔ ∃ id, 2 ≤ (onNetwork .amber (w id).vHeard).length
  selected (id : PortIdentity) : c.selectedMaster = some id → 2 ≤ (onNetwork .amber (w id).vHeard).length

end Runs

end PiAudioNode.Ptp
