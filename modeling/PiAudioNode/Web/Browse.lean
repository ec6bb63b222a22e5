import PiAudioNode.Lib.Access
import PiAudioNode.Lib.Paging
import PiAudioNode.Lib.Throwing
import PiAudioNode.Rtp.SdpText

/-! The sender browser: what the query API of a registry has is fetched page by page,
each page up to the oldest version of the page before. -/
namespace PiAudioNode.Web
open Lib Lib.Json Rtp

/-- Seconds and nanoseconds, in this order. -/
abbrev Version := Fin (2 ^ 64) ×ₗ Fin (2 ^ 64)

def parseVersion (s : String) : Version :=
  if ':' ∈ s.toList then
    toLex (strtoull (cString s.toList), strtoull (cString (s.toList.dropWhile (· ≠ ':')).tail))
  else toLex (⟨0, by decide⟩, ⟨0, by decide⟩)

/-- What was fetched so far; the oldest version and the number of new ids are of one page. -/
structure Fetch where
  jsAll : List Json := []
  setIds : Finset String := ∅
  sOldest : String := ""
  nNew : Nat := 0
  /-- The requests made, the last one first. -/
  vAsked : List String := []

namespace Fetch

def age (x : Fetch) (sVersion : String) : Fetch :=
  if x.sOldest = "" ∨ parseVersion sVersion < parseVersion x.sOldest then { x with sOldest := sVersion } else x

def add (x : Fetch) (sId : String) (js : Json) : Fetch :=
  if sId ∈ x.setIds then x
  else { x with setIds := insert sId x.setIds, jsAll := x.jsAll ++ [js], nNew := x.nNew + 1 }

/-- One element of a page. -/
def visit (x : Fetch) (js : Json) : Except JsonError Fetch := do
  let x := x.age (← js.value getString "version" "")
  return x.add (← js.value getString "id" "") js

end Fetch

def firstQuery (sUrl : String) : String := sUrl ++ "?paging.limit=100"

def nextQuery (sUrl sOldest : String) : String := sUrl ++ "?paging.limit=100&paging.until=" ++ sOldest

/-- The pages that are left, each through `httpJson`. An answer that is no array ends
the walk with what there is, if there is any. -/
def fetchPages (httpJson : String → Option Json) (sUrl : String) :
    Nat → String → Fetch → Except JsonError (Option (List Json) × List String)
  | 0, _, x => .ok (some x.jsAll, x.vAsked)
  | nPages + 1, sQuery, x => do
    let x := { x with vAsked := sQuery :: x.vAsked }
    match (httpJson sQuery).bind Json.elements with
    | none => return (if x.jsAll = [] then none else some x.jsAll, x.vAsked)
    | some jsPage =>
      let x ← jsPage.foldlM Fetch.visit { x with sOldest := "", nNew := 0 }
      if jsPage.length < 100 ∨ x.nNew = 0 ∨ x.sOldest = "" then return (some x.jsAll, x.vAsked)
      else fetchPages httpJson sUrl nPages (nextQuery sUrl x.sOldest) x

/-- Everything the URL has, and the requests made for it. -/
def fetchAll (httpJson : String → Option Json) (sUrl : String) : Except JsonError (Option (List Json) × List String) :=
  fetchPages httpJson sUrl 20 (firstQuery sUrl) {}

section Versions

/-- A version as the registry writes it. -/
def versionText (v : Version) : String :=
  String.ofList (Nat.toDigits 10 (ofLex v).1 ++ ':' :: Nat.toDigits 10 (ofLex v).2)

theorem not_mem_toDigits {c : Char} (hc : ¬ c.isDigit) (n : Nat) : c ∉ Nat.toDigits 10 n :=
  fun h => hc (isDigit_toDigits h)

theorem parseVersion_versionText (v : Version) : parseVersion (versionText v) = v := by
  have htext : (versionText v).toList = Nat.toDigits 10 (ofLex v).1 ++ ':' :: Nat.toDigits 10 (ofLex v).2 := by
    rw [versionText, String.toList_ofList]
  have hnul (n : Nat) : '\x00' ∉ Nat.toDigits 10 n := not_mem_toDigits (by decide) n
  have hfirst : strtoull (cString (versionText v).toList) = (ofLex v).1 := by
    rw [htext, cString_of_not_mem (by simp [hnul])]
    exact strtoull_toDigits _ (stops_cons (by decide) _)
  have hsecond : strtoull (cString ((versionText v).toList.dropWhile (· ≠ ':')).tail) = (ofLex v).2 := by
    have hskip : ∀ c ∈ Nat.toDigits 10 (ofLex v).1, decide (c ≠ ':') = true := by
      intro c hc
      exact decide_eq_true fun heq => not_mem_toDigits (by decide) _ (heq ▸ hc)
    have hdrop : (versionText v).toList.dropWhile (· ≠ ':') = ':' :: Nat.toDigits 10 (ofLex v).2 := by
      rw [htext, List.dropWhile_append_of_pos hskip]
      rfl
    rw [hdrop, List.tail_cons, cString_of_not_mem (hnul _)]
    simpa using strtoull_toDigits (ofLex v).2 (stops_nil _)
  rw [parseVersion, if_pos (by simp [htext]), hfirst, hsecond]
  rfl

theorem versionText_ne_empty (v : Version) : versionText v ≠ "" := by
  intro h
  have hmem : ':' ∈ (versionText v).toList := by simp [versionText]
  rw [h] at hmem
  cases hmem

end Versions

/-- A resource of the registry, with the id and the version that are read from it. -/
structure Resource where
  js : Json
  sId : String
  version : Version
  reads_id : js.value getString "id" "" = .ok sId
  reads_version : js.value getString "version" "" = .ok (versionText version)

/-- What the query API answers: the newest hundred, of all or up to a version. -/
structure QueryApi (httpJson : String → Option Json) (sUrl : String) (resources : List Resource) : Prop where
  first : ∃ page, httpJson (firstQuery sUrl) = some (.arr (page.map Resource.js)) ∧
    Newest Resource.version 100 resources page
  next : ∀ v, ∃ page, httpJson (nextQuery sUrl (versionText v)) = some (.arr (page.map Resource.js)) ∧
    Newest Resource.version 100 (resources.filter (·.version ≤ v)) page

/-- A registry that answers as the query API does, with its pages sorted. -/
def registry (sUrl : String) (resources : List Resource) (sQuery : String) : Option Json :=
  let sUntil := String.ofList (sQuery.toList.drop (nextQuery sUrl "").toList.length)
  let vMatching :=
    if sQuery = firstQuery sUrl then resources else resources.filter (·.version ≤ parseVersion sUntil)
  some (.arr (((vMatching.mergeSort fun x y => y.version ≤ x.version).take 100).map Resource.js))

theorem registry_queryApi (sUrl : String) (resources : List Resource) :
    QueryApi (registry sUrl resources) sUrl resources := by
  constructor
  · refine ⟨_, ?_, newest_take Resource.version 100 resources⟩
    rw [registry, if_pos rfl]
  · intro v
    refine ⟨_, ?_, newest_take Resource.version 100 (resources.filter (·.version ≤ v))⟩
    have hlist : (nextQuery sUrl (versionText v)).toList = (nextQuery sUrl "").toList ++ (versionText v).toList := by
      simp [nextQuery]
    have hne : nextQuery sUrl (versionText v) ≠ firstQuery sUrl := by
      intro heq
      have hlength := congrArg (fun s => s.toList.length) heq
      simp [nextQuery, firstQuery] at hlength
    rw [registry, if_neg hne, hlist, List.drop_left, String.ofList_toList, parseVersion_versionText]

section Visit
variable {seen page : List Resource} {r : Resource} {x : Fetch}

/-- The part of a page that was not seen before. -/
def fresh (seen page : List Resource) : List Resource := page.filter (·.sId ∉ seen.map Resource.sId)

theorem fresh_known (h : r.sId ∈ seen.map Resource.sId) (page : List Resource) : fresh seen (page ++ [r]) = fresh seen page := by
  simp [fresh, List.filter_append, List.mem_map.mp h]

theorem fresh_unknown (h : r.sId ∉ seen.map Resource.sId) (page : List Resource) :
    fresh seen (page ++ [r]) = fresh seen page ++ [r] := by
  rw [fresh, List.filter_append, List.filter_singleton, decide_eq_true h]
  rfl

/-- A page, or the front of one, after what was seen before. -/
structure Visited (seen page : List Resource) (x : Fetch) : Prop where
  jsAll : x.jsAll = (seen ++ fresh seen page).map Resource.js
  setIds : ∀ sId, sId ∈ x.setIds ↔ sId ∈ seen.map Resource.sId ∨ sId ∈ page.map Resource.sId
  nNew : x.nNew = (fresh seen page).length
  oldest : (page = [] ∧ x.sOldest = "") ∨ ∃ o, x.sOldest = versionText o.version ∧ Oldest Resource.version page o

theorem Fetch.age_sOldest (h : (page = [] ∧ x.sOldest = "") ∨
    ∃ o, x.sOldest = versionText o.version ∧ Oldest Resource.version page o) (r : Resource) :
    ∃ o, (x.age (versionText r.version)).sOldest = versionText o.version ∧ Oldest Resource.version (page ++ [r]) o := by
  rcases h with ⟨rfl, hnone⟩ | ⟨o, ho, hmem, hle⟩
  · refine ⟨r, by rw [age, if_pos (Or.inl hnone)], List.mem_singleton_self r, fun z hz => ?_⟩
    rw [List.mem_singleton.mp hz]
  · by_cases hlt : r.version < o.version
    · have hage : x.sOldest = "" ∨ parseVersion (versionText r.version) < parseVersion x.sOldest := by
        rw [ho, parseVersion_versionText, parseVersion_versionText]
        exact Or.inr hlt
      refine ⟨r, by rw [age, if_pos hage], by simp, fun z hz => ?_⟩
      rcases List.mem_append.mp hz with hz | hz
      · exact hlt.le.trans (hle z hz)
      · rw [List.mem_singleton.mp hz]
    · have hage : ¬ (x.sOldest = "" ∨ parseVersion (versionText r.version) < parseVersion x.sOldest) := by
        rw [ho, parseVersion_versionText, parseVersion_versionText]
        exact not_or.mpr ⟨versionText_ne_empty _, hlt⟩
      refine ⟨o, by rw [age, if_neg hage, ho], List.mem_append_left _ hmem, fun z hz => ?_⟩
      rcases List.mem_append.mp hz with hz | hz
      · exact hle z hz
      · rw [List.mem_singleton.mp hz]
        exact not_lt.mp hlt

theorem Visited.visit (h : Visited seen page x) (hid : r.sId ∉ page.map Resource.sId) :
    ∃ y, x.visit r.js = .ok y ∧ y.vAsked = x.vAsked ∧ Visited seen (page ++ [r]) y := by
  obtain ⟨o, hsOldest, ho⟩ := Fetch.age_sOldest h.oldest r
  have hage : (x.age (versionText r.version)).jsAll = x.jsAll ∧ (x.age (versionText r.version)).setIds = x.setIds ∧
      (x.age (versionText r.version)).nNew = x.nNew ∧ (x.age (versionText r.version)).vAsked = x.vAsked := by
    rw [Fetch.age]
    split <;> exact ⟨rfl, rfl, rfl, rfl⟩
  refine ⟨(x.age (versionText r.version)).add r.sId r.js, ?_, ?_⟩
  · rw [Fetch.visit, r.reads_version, r.reads_id]
    rfl
  have hknown : r.sId ∈ (x.age (versionText r.version)).setIds ↔ r.sId ∈ seen.map Resource.sId := by
    rw [hage.2.1, h.setIds, or_iff_left hid]
  by_cases hseen : r.sId ∈ seen.map Resource.sId
  · rw [Fetch.add, if_pos (hknown.mpr hseen)]
    refine ⟨hage.2.2.2, ?_, fun sId => ?_, ?_, Or.inr ⟨o, hsOldest, ho⟩⟩
    · rw [hage.1, h.jsAll, fresh_known hseen]
    · rw [hage.2.1, h.setIds, List.map_append, List.mem_append, List.map_singleton, List.mem_singleton]
      constructor
      · rintro (hs | hp)
        · exact Or.inl hs
        · exact Or.inr (Or.inl hp)
      · rintro (hs | hp | rfl)
        · exact Or.inl hs
        · exact Or.inr hp
        · exact Or.inl hseen
    · rw [hage.2.2.1, h.nNew, fresh_known hseen]
  · rw [Fetch.add, if_neg (hknown.not.mpr hseen)]
    refine ⟨hage.2.2.2, ?_, fun sId => ?_, ?_, Or.inr ⟨o, hsOldest, ho⟩⟩
    · simp only [hage.1, h.jsAll, fresh_unknown hseen, List.map_append, List.map_singleton, List.append_assoc]
    · simp only [hage.2.1, Finset.mem_insert, h.setIds, List.map_append, List.mem_append, List.map_singleton,
        List.mem_singleton]
      exact or_rotate
    · simp only [hage.2.2.1, h.nNew, fresh_unknown hseen, List.length_append, List.length_singleton]

theorem Visited.visits : ∀ {rest page : List Resource} {x : Fetch}, Visited seen page x →
    ((page ++ rest).map Resource.sId).Nodup → ∃ y, (rest.map Resource.js).foldlM Fetch.visit x = .ok y ∧
      y.vAsked = x.vAsked ∧ Visited seen (page ++ rest) y
  | [], page, x, h, _ => ⟨x, rfl, rfl, by rwa [List.append_nil]⟩
  | r :: rest, page, x, h, hids => by
    have hid : r.sId ∉ page.map Resource.sId := by
      rw [List.map_append, List.nodup_append] at hids
      exact fun hr => hids.2.2 _ hr _ (List.mem_map_of_mem List.mem_cons_self) rfl
    obtain ⟨y, hvisit, hasked, hy⟩ := h.visit hid
    rw [List.append_cons] at hids
    obtain ⟨z, hvisits, hasked', hz⟩ := hy.visits hids
    refine ⟨z, ?_, hasked'.trans hasked, ?_⟩
    · rw [List.map_cons, List.foldlM_cons, hvisit]
      exact hvisits
    · rwa [List.append_cons]

end Visit

section Pages
variable {httpJson : String → Option Json} {sUrl : String} {resources items seen page : List Resource} {o : Resource} {x : Fetch}

theorem nodup_ids {n : Nat} (h : Newest Resource.version n items page) (hitems : items.Sublist resources)
    (hids : (resources.map Resource.sId).Nodup) : (page.map Resource.sId).Nodup := by
  obtain ⟨page', hperm, hsub⟩ := h.subperm
  exact (hperm.map _).nodup_iff.mp (hids.sublist ((hsub.trans hitems).map _))

theorem mem_fresh (hids : (resources.map Resource.sId).Nodup) (hseen : seen ⊆ resources) (hpage : page ⊆ resources)
    (r : Resource) : r ∈ fresh seen page ↔ r ∈ page ∧ r ∉ seen := by
  rw [fresh, List.mem_filter, decide_eq_true_eq]
  refine and_congr_right fun hr => not_congr ⟨fun h => ?_, List.mem_map_of_mem⟩
  obtain ⟨r', hr', heq⟩ := List.mem_map.mp h
  rwa [← List.inj_on_of_nodup_map hids (hseen hr') (hpage hr) heq]

/-- What was fetched, and the ids it has. -/
structure Fetched (seen : List Resource) (x : Fetch) : Prop where
  jsAll : x.jsAll = seen.map Resource.js
  setIds : ∀ sId, sId ∈ x.setIds ↔ sId ∈ seen.map Resource.sId

theorem Fetched.visits (h : Fetched seen x) (hids : (page.map Resource.sId).Nodup) :
    ∃ y, (page.map Resource.js).foldlM Fetch.visit { x with sOldest := "", nNew := 0 } = .ok y ∧
      y.vAsked = x.vAsked ∧ Visited seen page y := by
  have hstart : Visited seen [] { x with sOldest := "", nNew := 0 } :=
    ⟨by rw [h.jsAll, fresh, List.filter_nil, List.append_nil], fun sId => by simp [h.setIds], rfl, Or.inl ⟨rfl, rfl⟩⟩
  exact hstart.visits hids

theorem Visited.fetched (h : Visited seen page x) : Fetched (seen ++ fresh seen page) x := by
  refine ⟨h.jsAll, fun sId => ?_⟩
  rw [h.setIds, List.map_append, List.mem_append]
  by_cases hseen : sId ∈ seen.map Resource.sId
  · simp [hseen]
  · have hfresh : sId ∈ (fresh seen page).map Resource.sId ↔ sId ∈ page.map Resource.sId := by
      constructor
      · exact fun hmem => (List.filter_sublist.map Resource.sId).subset hmem
      · intro hmem
        obtain ⟨r, hr, rfl⟩ := List.mem_map.mp hmem
        exact List.mem_map_of_mem (List.mem_filter.mpr ⟨hr, decide_eq_true hseen⟩)
    rw [hfresh]

/-- A page that ends the walk, or leads to the next one. -/
theorem fetchPages_page {sQuery : String} (sUrl : String) (nPages : Nat) (h : Fetched seen x) (hids : (page.map Resource.sId).Nodup)
    (hanswer : httpJson sQuery = some (.arr (page.map Resource.js))) :
    ∃ y, y.vAsked = sQuery :: x.vAsked ∧ Visited seen page y ∧
      fetchPages httpJson sUrl (nPages + 1) sQuery x =
        if page.length < 100 ∨ y.nNew = 0 ∨ y.sOldest = "" then .ok (some y.jsAll, y.vAsked)
        else fetchPages httpJson sUrl nPages (nextQuery sUrl y.sOldest) y := by
  have hasked : Fetched seen { x with vAsked := sQuery :: x.vAsked } := ⟨h.jsAll, h.setIds⟩
  obtain ⟨y, hvisits, hy, hvisited⟩ := hasked.visits hids
  refine ⟨y, hy, hvisited, ?_⟩
  rw [fetchPages, hanswer]
  simp only [Option.bind_some, elements]
  rw [hvisits]
  simp only [List.length_map]
  rfl

/-- A full page with something new leads to the next one, from its oldest element. -/
theorem Visited.goes_on (h : Visited seen page x) (hfull : page.length = 100)
    (hnew : ∀ o, Oldest Resource.version page o → (fresh seen page).length ≠ 0) :
    ∃ o, Oldest Resource.version page o ∧ x.sOldest = versionText o.version ∧
      ¬ (page.length < 100 ∨ x.nNew = 0 ∨ x.sOldest = "") := by
  have hnonempty : page ≠ [] := by
    rintro rfl
    cases hfull
  obtain ⟨o, hsOldest, ho⟩ := h.oldest.resolve_left fun hnone => hnonempty hnone.1
  refine ⟨o, ho, hsOldest, ?_⟩
  rw [h.nNew, hsOldest]
  rintro (hlt | hnone | hempty)
  · exact hlt.ne hfull
  · exact hnew o ho hnone
  · exact versionText_ne_empty _ hempty

theorem fetchPages_reached (hapi : QueryApi httpJson sUrl resources) (hids : (resources.map Resource.sId).Nodup)
    (hversions : (resources.map Resource.version).Nodup) :
    ∀ {nPages : Nat} {seen : List Resource} {o : Resource} {x : Fetch}, Fetched seen x →
      SeenDownTo Resource.version resources seen o → (before Resource.version o resources).length ≤ nPages * 99 →
      ∃ (vAll : List Resource) (vAsked : List String), fetchPages httpJson sUrl nPages (nextQuery sUrl (versionText o.version)) x =
          .ok (some (vAll.map Resource.js), vAsked) ∧
        vAll.Perm resources ∧ vAsked.length ≤ nPages + x.vAsked.length
  | 0, seen, o, x, hx, hseen, hleft => by
    refine ⟨seen, x.vAsked, ?_, hseen.perm_items (by omega), by omega⟩
    rw [fetchPages, hx.jsAll]
  | nPages + 1, seen, o, x, hx, hseen, hleft => by
    obtain ⟨page, hanswer, hpage⟩ := hapi.next o.version
    have hpage : Newest Resource.version 100 (upTo Resource.version o resources) page := hpage
    obtain ⟨y, hasked, hy, hrun⟩ := fetchPages_page sUrl nPages hx (nodup_ids hpage List.filter_sublist hids) hanswer
    have hnodup : (fresh seen page).Nodup := (hpage.nodup (nodup_keys_upTo hversions o)).filter _
    have hfresh := mem_fresh hids (fun r hr => (mem_since.mp (hseen.perm.subset hr)).1)
      fun r hr => (mem_upTo.mp (hpage.subperm.subset hr)).1
    by_cases hshort : page.length < 100
    · refine ⟨seen ++ fresh seen page, y.vAsked, ?_, hseen.complete hversions hpage hshort hnodup hfresh, ?_⟩
      · rw [hrun, if_pos (Or.inl hshort), hy.jsAll]
      · rw [hasked, List.length_cons]
        omega
    · have hfull : page.length = 100 := by
        have hlength := hpage.length
        omega
      have hnew (o' : Resource) (ho' : Oldest Resource.version page o') : (fresh seen page).length ≠ 0 := by
        have hlength := hseen.length_new hversions hpage ho' hfull hnodup hfresh
        omega
      obtain ⟨o', ho', hsOldest, hgoes⟩ := hy.goes_on hfull hnew
      have hbefore := hseen.length_before hversions hpage ho' hfull
      have hrest : (before Resource.version o' resources).length ≤ nPages * 99 := by omega
      obtain ⟨vAll, vAsked, hwalk, hall, hlength⟩ := fetchPages_reached hapi hids hversions hy.fetched
        (hseen.next hversions hpage ho' hnodup hfresh) hrest
      refine ⟨vAll, vAsked, ?_, hall, ?_⟩
      · rw [hrun, if_neg hgoes, hsOldest, hwalk]
      · rw [hasked, List.length_cons] at hlength
        omega

/-- Whatever the registry has, up to 1981 resources, is fetched once each, in at most
twenty requests. -/
theorem fetchAll_complete (hapi : QueryApi httpJson sUrl resources) (hids : (resources.map Resource.sId).Nodup)
    (hversions : (resources.map Resource.version).Nodup) (hsize : resources.length ≤ 1981) :
    ∃ vAll vAsked, fetchAll httpJson sUrl = .ok (some vAll, vAsked) ∧ vAll.Perm (resources.map Resource.js) ∧
      vAsked.length ≤ 20 := by
  obtain ⟨page, hanswer, hpage⟩ := hapi.first
  have hempty : Fetched [] {} := ⟨rfl, fun sId => by simp⟩
  obtain ⟨y, hasked, hy, hrun⟩ :=
    fetchPages_page sUrl 19 hempty (nodup_ids hpage (List.Sublist.refl _) hids) hanswer
  have hfresh : fresh [] page = page := List.filter_eq_self.mpr fun r _ => decide_eq_true List.not_mem_nil
  have hjsAll : y.jsAll = page.map Resource.js := by rw [hy.jsAll, hfresh, List.nil_append]
  rw [fetchAll, hrun]
  by_cases hshort : page.length < 100
  · refine ⟨y.jsAll, y.vAsked, if_pos (Or.inl hshort), ?_, ?_⟩
    · rw [hjsAll]
      exact (hpage.perm_of_short hshort).map _
    · rw [hasked]
      simp
  · have hfull : page.length = 100 := by
      have hlength := hpage.length
      omega
    have hnew : (fresh [] page).length ≠ 0 := by
      rw [hfresh, hfull]
      decide
    obtain ⟨o, ho, hsOldest, hgoes⟩ := hy.goes_on hfull fun _ _ => hnew
    have hbefore := hpage.length_before hversions ho hfull
    have hreached : SeenDownTo Resource.version resources ([] ++ fresh [] page) o := by
      rw [List.nil_append, hfresh]
      exact hpage.seenDownTo hversions ho
    have hrest : (before Resource.version o resources).length ≤ 19 * 99 := by omega
    obtain ⟨vAll, vAsked, hwalk, hall, hlength⟩ := fetchPages_reached hapi hids hversions hy.fetched hreached hrest
    refine ⟨vAll.map Resource.js, vAsked, ?_, hall.map _, ?_⟩
    · rw [if_neg hgoes, hsOldest, hwalk]
    · rw [hasked] at hlength
      simpa using hlength

theorem fetchAll_complete_two :
    let resources : List Resource := [
      ⟨.obj [("id", .str "a"), ("version", .str "9:5")], "a", toLex (9, 5), rfl, by decide +kernel⟩,
      ⟨.obj [("id", .str "b"), ("version", .str "10:0")], "b", toLex (10, 0), rfl, by decide +kernel⟩]
    ∃ vAll vAsked, fetchAll (registry "senders" resources) "senders" = .ok (some vAll, vAsked) ∧
      vAll.Perm (resources.map Resource.js) ∧ vAsked.length ≤ 20 :=
  fetchAll_complete (registry_queryApi ..) (by decide) (by decide) (by decide)

end Pages

end PiAudioNode.Web
