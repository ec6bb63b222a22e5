import PiAudioNode.Config
import PiAudioNode.Lib.Union

/-! The merge of the defaults into what the file held, as a union of trees. -/
namespace PiAudioNode.Config
open Lib Lib.Json

/-- What stays of a value when a default is merged into it. -/
def merged (js jsDefault : Json) : Json := ((mergeValue js jsDefault).map Prod.snd).getD js

/-- The member that is left of one on either side. -/
def mergedMember : Option Json → Option Json → Option Json
  | some js, some jsDefault => some (merged js jsDefault)
  | some js, none => some js
  | none, jsDefault => jsDefault

section Members
variable {fields g : List (String × Json)} {js jsDefault : Json}

theorem mergeValue_obj (fields g : List (String × Json)) :
    mergeValue (.obj fields) (.obj g) = some (mergeDefaults (.obj fields) g) := by
  simp only [mergeValue]

theorem mergeValue_of_not_objects (h : ¬ (js.isObject ∧ jsDefault.isObject)) : mergeValue js jsDefault = none := by
  cases jsDefault with
  | obj g =>
    cases js with
    | obj fields => exact absurd ⟨rfl, rfl⟩ h
    | _ => simp only [mergeValue]
  | _ => simp only [mergeValue]

theorem merged_obj (fields g : List (String × Json)) :
    merged (.obj fields) (.obj g) = (mergeDefaults (.obj fields) g).2 := by
  rw [merged, mergeValue_obj]
  rfl

theorem merged_of_not_objects (h : ¬ (js.isObject ∧ jsDefault.isObject)) : merged js jsDefault = js := by
  rw [merged, mergeValue_of_not_objects h]
  rfl

/-- The merge of a value goes through and keeps the order of the keys. -/
structure Merges (js jsDefault : Json) : Prop where
  completes : ∀ x, mergeValue js jsDefault = some x → x.1 = .ok ()
  ordered : Ordered (merged js jsDefault)

/-- One default reaches the member of its key alone. -/
theorem mergeDefault_obj {sKey : String} (hfields : Ordered (.obj fields)) (hdefault : Ordered jsDefault)
    (hmerges : ∀ js, findKey sKey fields = some js → Merges js jsDefault) :
    ∃ fields', mergeDefault (.obj fields) (sKey, jsDefault) = (.ok (), .obj fields') ∧ Ordered (.obj fields') ∧
      findKey sKey fields' = mergedMember (findKey sKey fields) (some jsDefault) ∧
      ∀ sOther ≠ sKey, findKey sOther fields' = findKey sOther fields := by
  cases hfind : findKey sKey fields with
  | none =>
    refine ⟨setKey sKey jsDefault fields, ?_, hfields.setKey hdefault sKey, findKey_setKey_self _ _ _,
      fun sOther hne => findKey_setKey_ne hne _ _⟩
    simp only [mergeDefault, Json.member, hfind, setMember]
  | some js =>
    obtain ⟨hcompletes, hordered⟩ := hmerges js hfind
    cases hvalue : mergeValue js jsDefault with
    | none =>
      refine ⟨fields, ?_, hfields, ?_, fun _ _ => rfl⟩
      · simp only [mergeDefault, Json.member, hfind, hvalue]
      · rw [hfind, mergedMember, merged, hvalue]
        rfl
    | some x =>
      have hmerged : merged js jsDefault = x.2 := by rw [merged, hvalue]; rfl
      rw [hmerged] at hordered
      refine ⟨setKey sKey x.2 fields, ?_, hfields.setKey hordered sKey, ?_, fun sOther hne => findKey_setKey_ne hne _ _⟩
      · simp only [mergeDefault, Json.member, hfind, hvalue, setMember]
        rw [← hcompletes x hvalue]
      · rw [findKey_setKey_self, mergedMember, hmerged]

/-- Every key is in one default at most, so a member is merged with the default of its key. -/
theorem mergeDefaults_members (hg : g.Pairwise (·.1 < ·.1)) (hdefaults : ∀ x ∈ g, Ordered x.2)
    (hmerges : ∀ x ∈ g, ∀ js, Ordered js → Merges js x.2) (hfields : Ordered (.obj fields)) :
    ∃ fields', mergeDefaults (.obj fields) g = (.ok (), .obj fields') ∧ Ordered (.obj fields') ∧
      ∀ sKey, findKey sKey fields' = mergedMember (findKey sKey fields) (findKey sKey g) := by
  induction g generalizing fields with
  | nil =>
    refine ⟨fields, by simp only [mergeDefaults], hfields, fun sKey => ?_⟩
    cases findKey sKey fields <;> rfl
  | cons d rest ih =>
    obtain ⟨sDefault, jsDefault⟩ := d
    obtain ⟨hhead, hrest⟩ := List.pairwise_cons.mp hg
    have hmember (js : Json) (hfind : findKey sDefault fields = some js) : Merges js jsDefault := by
      apply hmerges _ List.mem_cons_self
      simpa only [hfind, Option.getD_some] using hfields.member sDefault
    obtain ⟨next, hstep, hnext, hself, hother⟩ :=
      mergeDefault_obj hfields (hdefaults _ List.mem_cons_self) hmember
    obtain ⟨fields', hrun, hordered, hmembers⟩ := ih hrest (fun x hx => hdefaults x (List.mem_cons_of_mem _ hx))
      (fun x hx => hmerges x (List.mem_cons_of_mem _ hx)) hnext
    refine ⟨fields', ?_, hordered, fun sKey => ?_⟩
    · simp only [mergeDefaults, hstep, hrun]
    · by_cases hkey : sDefault = sKey
      · subst hkey
        rw [hmembers, hself, findKey_eq_none hhead, findKey, if_pos rfl]
        cases findKey sDefault fields <;> rfl
      · rw [hmembers, hother sKey (Ne.symm hkey), findKey, if_neg hkey]

/-- The induction is over the defaults; what they are merged into is any value. -/
theorem merges (hdefault : Ordered jsDefault) (hjs : Ordered js) : Merges js jsDefault := by
  induction hdefault generalizing js with
  | @obj g hg hdefaults ih =>
    by_cases hobject : js.isObject
    · obtain ⟨fields, rfl⟩ := isObject_iff.mp hobject
      obtain ⟨fields', hrun, hordered, -⟩ := mergeDefaults_members hg hdefaults (fun x hx js hjs => ih x hx hjs) hjs
      constructor
      · rw [mergeValue_obj, hrun]
        rintro x ⟨⟩
        rfl
      · rwa [merged_obj, hrun]
    · have hnot (d : Json) : ¬ (js.isObject ∧ d.isObject) := fun h => hobject h.1
      refine ⟨?_, by rwa [merged_of_not_objects (hnot _)]⟩
      rw [mergeValue_of_not_objects (hnot _)]
      exact nofun
  | _ =>
    refine ⟨nofun, ?_⟩
    rw [merged_of_not_objects]
    · exact hjs
    · exact fun h => absurd h.2 Bool.false_ne_true

theorem mergeDefaults_obj (hg : Ordered (.obj g)) (hfields : Ordered (.obj fields)) :
    ∃ fields', mergeDefaults (.obj fields) g = (.ok (), .obj fields') ∧ Ordered (.obj fields') ∧
      ∀ sKey, findKey sKey fields' = mergedMember (findKey sKey fields) (findKey sKey g) := by
  cases hg with
  | obj hkeys hdefaults =>
    exact mergeDefaults_members hkeys hdefaults (fun x hx js hjs => merges (hdefaults x hx) hjs) hfields

theorem mergedMember_none (child : Option Json) : mergedMember child none = child := by
  cases child <;> rfl

open Classical in
/-- At every path the merge leaves what the two values have there, the default only
where no value stands in its way. The induction is on the path. -/
theorem descend_merged (hjs : Ordered js) (hdefault : Ordered jsDefault) (p : List String) :
    descend p (merged js jsDefault) =
      mergedMember (descend p js) (if js.tree.Blocks p then none else descend p jsDefault) := by
  induction p generalizing js jsDefault with
  | nil =>
    have hroot : ¬ js.tree.Blocks [] := by
      rintro ⟨q, v, hq, hne, -⟩
      exact hne (List.prefix_nil.mp hq)
    rw [if_neg hroot]
    rfl
  | cons sKey p ih =>
    by_cases hobject : js.isObject
    · by_cases hboth : jsDefault.isObject
      · obtain ⟨fields, rfl⟩ := isObject_iff.mp hobject
        obtain ⟨g, rfl⟩ := isObject_iff.mp hboth
        obtain ⟨fields', hrun, -, hmembers⟩ := mergeDefaults_obj hdefault hjs
        have hblocks := @tree_blocks_cons (.obj fields) sKey p
        simp only [hobject, not_true_eq_false, false_or, Json.member] at hblocks
        rw [merged_obj, hrun, descend, descend, descend, Json.member, Json.member, Json.member, hmembers]
        cases hf : findKey sKey fields with
        | none =>
          rw [if_neg]
          · rfl
          · rw [hblocks, hf]
            rintro ⟨child, hchild, -⟩
            cases hchild
        | some child =>
          have hchild : Ordered child := by simpa only [hf, Option.getD_some] using hjs.member sKey
          cases hd : findKey sKey g with
          | none =>
            rw [mergedMember, Option.bind_none, ite_self, mergedMember_none]
          | some e =>
            have he : Ordered e := by simpa only [hd, Option.getD_some] using hdefault.member sKey
            have hbelow : (Json.obj fields).tree.Blocks (sKey :: p) ↔ child.tree.Blocks p := by
              rw [hblocks, hf]
              constructor
              · rintro ⟨_, heq, h⟩
                obtain rfl := Option.some.inj heq
                exact h
              · exact fun h => ⟨child, rfl, h⟩
            simp only [mergedMember, Option.bind_some, ih hchild he, hbelow]
      · rw [merged_of_not_objects fun h => hboth h.2, descend, descend, member_of_not_isObject hboth, Option.bind_none,
          ite_self, mergedMember_none]
    · have hblocks : js.tree.Blocks (sKey :: p) := tree_blocks_cons.mpr (Or.inl hobject)
      rw [merged_of_not_objects fun h => hobject h.1, if_pos hblocks, mergedMember_none]

/-- Above a place with a value there are only objects. -/
theorem not_blocks_of_descend {p : List String} {v : Json} (h : descend p js = some v) : ¬ js.tree.Blocks p := by
  induction p generalizing js with
  | nil =>
    rintro ⟨q, w, hq, hne, -⟩
    exact hne (List.prefix_nil.mp hq)
  | cons sKey p ih =>
    obtain ⟨child, hchild, hv⟩ := Option.bind_eq_some_iff.mp h
    rw [tree_blocks_cons]
    rintro (hobject | ⟨child', hchild', hblocks⟩)
    · rw [member_of_not_isObject hobject] at hchild
      cases hchild
    · obtain rfl := Option.some.inj (hchild.symm.trans hchild')
      exact ih hv hblocks

theorem ordered_descend {p : List String} {v : Json} (hjs : Ordered js) (h : descend p js = some v) : Ordered v := by
  induction p generalizing js with
  | nil =>
    obtain rfl := Option.some.inj h
    exact hjs
  | cons sKey p ih =>
    obtain ⟨child, hchild, hv⟩ := Option.bind_eq_some_iff.mp h
    cases hjs with
    | obj hkeys hall => exact ih (hall _ (mem_of_findKey hchild)) hv
    | _ => cases hchild

theorem toShape_merged (hjs : Ordered js) (hdefault : Ordered jsDefault) : (merged js jsDefault).toShape = js.toShape := by
  by_cases hboth : js.isObject ∧ jsDefault.isObject
  · obtain ⟨fields, rfl⟩ := isObject_iff.mp hboth.1
    obtain ⟨g, rfl⟩ := isObject_iff.mp hboth.2
    obtain ⟨fields', hrun, -, -⟩ := mergeDefaults_obj hdefault hjs
    rw [merged_obj, hrun]
    rfl
  · rw [merged_of_not_objects hboth]

/-- The code merges two values as the union merges their trees. -/
theorem tree_merged (hjs : Ordered js) (hdefault : Ordered jsDefault) :
    (merged js jsDefault).tree = js.tree.union jsDefault.tree := by
  funext p
  rw [tree, descend_merged hjs hdefault]
  cases hv : descend p js with
  | some v =>
    have hshape : js.tree p = some v.toShape := by rw [tree, hv, Option.map_some]
    rw [Tree.union_of_some hshape, if_neg (not_blocks_of_descend hv)]
    cases hw : descend p jsDefault with
    | none => rfl
    | some w => exact congrArg some (toShape_merged (ordered_descend hjs hv) (ordered_descend hdefault hw))
  | none =>
    have hnone : js.tree p = none := by rw [tree, hv, Option.map_none]
    by_cases hblocks : js.tree.Blocks p
    · rw [if_pos hblocks, Tree.union_of_blocks hnone hblocks]
      rfl
    · rw [if_neg hblocks, Tree.union_of_none hnone hblocks]
      rfl

theorem merged_merged (hjs : Ordered js) (hdefault : Ordered jsDefault) :
    merged (merged js jsDefault) jsDefault = merged js jsDefault := by
  have hmerged := (merges hdefault hjs).ordered
  apply Ordered.eq_of_tree (merges hdefault hmerged).ordered hmerged
  rw [tree_merged hmerged hdefault, tree_merged hjs hdefault, Tree.union_union_right]

end Members

/-- What is left of a value and its defaults, place by place. -/
structure LeftBiased (js jsDefaults result : Json) : Prop where
  kept : ∀ p v, descend p js = some v → (∀ w, descend p jsDefaults = some w → ¬ (v.isObject ∧ w.isObject)) →
    descend p result = some v
  both : ∀ p f g, descend p js = some (.obj f) → descend p jsDefaults = some (.obj g) →
    descend p result = some (mergeDefaults (.obj f) g).2
  present : ∀ p, (descend p jsDefaults).isSome → ¬ js.tree.Blocks p → (descend p result).isSome
  added : ∀ p w, descend p jsDefaults = some w → descend p js = none → ¬ js.tree.Blocks p →
    descend p result = some w
  only : ∀ p, (descend p result).isSome →
    (descend p js).isSome ∨ (descend p jsDefaults).isSome ∧ ¬ js.tree.Blocks p

theorem leftBiased_merged {js jsDefaults : Json} (hjs : Ordered js) (hdefaults : Ordered jsDefaults) :
    LeftBiased js jsDefaults (merged js jsDefaults) := by
  constructor
  · intro p v hv hnot
    rw [descend_merged hjs hdefaults, hv, if_neg (not_blocks_of_descend hv)]
    cases hw : descend p jsDefaults with
    | none => rfl
    | some w => rw [mergedMember, merged_of_not_objects (hnot w hw)]
  · intro p f g hf hg
    rw [descend_merged hjs hdefaults, hf, if_neg (not_blocks_of_descend hf), hg, mergedMember, merged_obj]
  · intro p hsome hfree
    obtain ⟨w, hw⟩ := Option.isSome_iff_exists.mp hsome
    rw [descend_merged hjs hdefaults, if_neg hfree, hw]
    cases descend p js <;> rfl
  · intro p w hw hnone hfree
    rw [descend_merged hjs hdefaults, hnone, if_neg hfree, hw]
    rfl
  · intro p hsome
    rw [descend_merged hjs hdefaults] at hsome
    cases hv : descend p js with
    | some v => exact Or.inl rfl
    | none =>
      rw [hv] at hsome
      by_cases hblocks : js.tree.Blocks p
      · rw [if_pos hblocks] at hsome
        cases hsome
      · rw [if_neg hblocks] at hsome
        exact Or.inr ⟨hsome, hblocks⟩

/-- For every two objects the merge goes through, leaves their union and, done again,
changes nothing. -/
theorem mergeDefaults_union (fields jsDefaults : List (String × Json)) (hfields : Ordered (.obj fields))
    (hdefaults : Ordered (.obj jsDefaults)) : ∃ fields', mergeDefaults (.obj fields) jsDefaults = (.ok (), .obj fields') ∧
      LeftBiased (.obj fields) (.obj jsDefaults) (.obj fields') ∧
      mergeDefaults (.obj fields') jsDefaults = (.ok (), .obj fields') := by
  obtain ⟨fields', hrun, hordered, -⟩ := mergeDefaults_obj hdefaults hfields
  have hmerged : merged (.obj fields) (.obj jsDefaults) = .obj fields' := by rw [merged_obj, hrun]
  have hleft := leftBiased_merged hfields hdefaults
  rw [hmerged] at hleft
  refine ⟨fields', hrun, hleft, ?_⟩
  obtain ⟨fields'', hagain, -, -⟩ := mergeDefaults_obj hdefaults hordered
  have hsame := merged_merged hfields hdefaults
  rw [hmerged, merged_obj, hagain] at hsame
  rw [hagain]
  exact congrArg (Prod.mk _) hsame

/-- A group of settings that hold no settings. -/
theorem ordered_group {fields : List (String × Json)} (hkeys : fields.Pairwise (·.1 < ·.1))
    (hflat : ∀ x ∈ fields, x.2.isObject = false ∧ x.2.elements = none) : Ordered (.obj fields) := by
  apply Ordered.obj hkeys
  rintro ⟨sKey, v⟩ hx
  obtain ⟨hobject, helements⟩ := hflat _ hx
  cases v with
  | null => exact .null
  | bool b => exact .bool b
  | int n => exact .int n
  | real x => exact .real x
  | str s => exact .str s
  | arr elems => cases helements
  | obj g => cases hobject

theorem ordered_defaults : Ordered (.obj defaults) := by
  apply Ordered.obj (by decide +kernel)
  simp only [defaults, List.forall_mem_cons, List.not_mem_nil, false_implies, implies_true, and_true]
  refine ⟨?_, ?_, ?_, ?_, ?_, ?_, ?_⟩
  all_goals
    apply ordered_group (by decide +kernel)
    simp [isObject, elements]

/-- A file that has its own PTP domain, and a text where the sender's settings go. -/
theorem mergeDefaults_union_file : ∃ fields',
    mergeDefaults (.obj [("ptp", .obj [("domain", .int 5)]), ("sender", .str "off")]) defaults = (.ok (), .obj fields') ∧
      LeftBiased (.obj [("ptp", .obj [("domain", .int 5)]), ("sender", .str "off")]) (.obj defaults) (.obj fields') ∧
      mergeDefaults (.obj fields') defaults = (.ok (), .obj fields') := by
  apply mergeDefaults_union _ _ _ ordered_defaults
  apply Ordered.obj (by decide +kernel)
  simp only [List.forall_mem_cons, List.not_mem_nil, false_implies, implies_true, and_true]
  exact ⟨ordered_group (by decide +kernel) (by simp [isObject, elements]), .str _⟩

end PiAudioNode.Config
