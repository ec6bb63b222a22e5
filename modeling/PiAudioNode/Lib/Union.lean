import PiAudioNode.Lib.Landing

/-! Trees read by paths and the union of two of them, which prefers the left one, and
JSON values as such trees: the objects are the branches. -/
namespace PiAudioNode.Lib

section Trees
variable {K V : Type*}

/-- What stands at a place of a tree. -/
inductive Shape (V : Type*) where
  | leaf (v : V)
  | branch

abbrev Tree (K V : Type*) := List K → Option (Shape V)

/-- A leaf stands above the place. -/
def Tree.Blocks (t : Tree K V) (p : List K) : Prop := ∃ q v, q <+: p ∧ q ≠ p ∧ t q = some (.leaf v)

open Classical in
/-- All of the left tree, and of the right one what no leaf of the left stands above. -/
noncomputable def Tree.union (t d : Tree K V) : Tree K V := fun p => (t p).or (if t.Blocks p then none else d p)

variable {t d : Tree K V} {p : List K}

theorem Tree.union_of_some {s : Shape V} (h : t p = some s) : t.union d p = some s := by
  rw [Tree.union, h, Option.some_or]

theorem Tree.union_of_none (h : t p = none) (hfree : ¬ t.Blocks p) : t.union d p = d p := by
  rw [Tree.union, h, Option.none_or, if_neg hfree]

theorem Tree.union_of_blocks (h : t p = none) (hblocks : t.Blocks p) : t.union d p = none := by
  rw [Tree.union, h, Option.none_or, if_pos hblocks]

theorem Tree.Blocks.union (h : t.Blocks p) : (t.union d).Blocks p := by
  obtain ⟨q, v, hq, hne, hleaf⟩ := h
  exact ⟨q, v, hq, hne, Tree.union_of_some hleaf⟩

/-- What was added once is there. -/
theorem Tree.union_union_right (t d : Tree K V) : (t.union d).union d = t.union d := by
  funext p
  cases h : t.union d p with
  | some s => exact Tree.union_of_some h
  | none =>
    by_cases hblocks : (t.union d).Blocks p
    · exact Tree.union_of_blocks h hblocks
    · have ht : t p = none := (Option.or_eq_none_iff.mp h).1
      have hfree : ¬ t.Blocks p := fun hb => hblocks hb.union
      rw [Tree.union_of_none h hblocks, ← h, Tree.union_of_none ht hfree]

end Trees

section Fields
variable {β : Type*}

theorem findKey_eq_none {sKey : String} {fields : List (String × β)} (h : ∀ x ∈ fields, sKey < x.1) :
    findKey sKey fields = none := by
  cases hfind : findKey sKey fields with
  | none => rfl
  | some v => exact absurd (h _ (mem_of_findKey hfind)) (lt_irrefl _)

/-- The head of an object in order is found under its key, and in no other. -/
theorem key_le_of_findKey {sKey : String} {v : β} {k : String} {w : β} {rest : List (String × β)}
    (hsorted : ((k, w) :: rest).Pairwise (·.1 < ·.1)) (h : findKey sKey ((k, w) :: rest) = some v) : k ≤ sKey := by
  rcases List.mem_cons.mp (mem_of_findKey h) with heq | hmem
  · exact (Prod.mk.inj heq).1.ge
  · exact ((List.pairwise_cons.mp hsorted).1 _ hmem).le

/-- Objects in order that answer alike are alike. -/
theorem fields_ext {f g : List (String × β)} (hf : f.Pairwise (·.1 < ·.1)) (hg : g.Pairwise (·.1 < ·.1))
    (h : ∀ sKey, findKey sKey f = findKey sKey g) : f = g := by
  induction f generalizing g with
  | nil =>
    cases g with
    | nil => rfl
    | cons y ys => exact absurd (h y.1) (by simp [findKey])
  | cons x xs ih =>
    obtain ⟨k, v⟩ := x
    cases g with
    | nil => exact absurd (h k) (by simp [findKey])
    | cons y ys =>
      obtain ⟨k', v'⟩ := y
      have hx : findKey k ((k, v) :: xs) = some v := by simp [findKey]
      have hy : findKey k' ((k', v') :: ys) = some v' := by simp [findKey]
      obtain rfl : k = k' :=
        le_antisymm (key_le_of_findKey hf ((h k').trans hy)) (key_le_of_findKey hg ((h k).symm.trans hx))
      obtain rfl : v = v' := Option.some.inj (hx.symm.trans ((h k).trans hy))
      obtain ⟨hxs, hf⟩ := List.pairwise_cons.mp hf
      obtain ⟨hys, hg⟩ := List.pairwise_cons.mp hg
      rw [ih hf hg]
      intro sKey
      by_cases hk : k = sKey
      · subst hk
        rw [findKey_eq_none hxs, findKey_eq_none hys]
      · simpa only [findKey, if_neg hk] using h sKey

end Fields

namespace Json

/-- The value below the members that a path names. -/
def descend : List String → Json → Option Json
  | [], js => some js
  | sKey :: p, js => (js.member sKey).bind (descend p)

def isObject : Json → Bool
  | .obj _ => true
  | _ => false

def toShape : Json → Shape Json
  | .obj _ => .branch
  | js => .leaf js

def tree (js : Json) : Tree String Json := fun p => (descend p js).map toShape

theorem toShape_eq_leaf {js v : Json} (h : js.toShape = .leaf v) : js = v ∧ ¬ js.isObject := by
  cases js with
  | obj fields => cases h
  | _ =>
    cases h
    exact ⟨rfl, Bool.false_ne_true⟩

theorem toShape_of_not_isObject {js : Json} (h : ¬ js.isObject) : js.toShape = .leaf js := by
  cases js with
  | obj fields => exact absurd rfl h
  | _ => rfl

theorem isObject_iff {js : Json} : js.isObject ↔ ∃ fields, js = .obj fields := by
  cases js <;> simp [isObject]

theorem member_of_not_isObject {js : Json} (h : ¬ js.isObject) (sKey : String) : js.member sKey = none := by
  cases js with
  | obj fields => exact absurd rfl h
  | _ => rfl

/-- A value is in the way of every place below it that is no object, and an object where
its member is. -/
theorem tree_blocks_cons {js : Json} {sKey : String} {p : List String} :
    js.tree.Blocks (sKey :: p) ↔ ¬ js.isObject ∨ ∃ child, js.member sKey = some child ∧ child.tree.Blocks p := by
  constructor
  · rintro ⟨q, v, hq, hne, hleaf⟩
    cases q with
    | nil =>
      obtain ⟨_, hv, hshape⟩ := Option.map_eq_some_iff.mp hleaf
      obtain rfl := Option.some.inj hv
      exact Or.inl (toShape_eq_leaf hshape).2
    | cons k q =>
      obtain ⟨rfl, hrest⟩ := List.cons_prefix_cons.mp hq
      obtain ⟨w, hw, hshape⟩ := Option.map_eq_some_iff.mp hleaf
      obtain ⟨child, hchild, hw⟩ := Option.bind_eq_some_iff.mp hw
      refine Or.inr ⟨child, hchild, q, v, hrest, fun heq => hne (by rw [heq]), ?_⟩
      rw [tree, hw, Option.map_some, hshape]
  · rintro (hleaf | ⟨child, hchild, q, v, hq, hne, hleaf⟩)
    · refine ⟨[], js, List.nil_prefix, nofun, ?_⟩
      rw [tree, descend, Option.map_some, toShape_of_not_isObject hleaf]
    · refine ⟨sKey :: q, v, List.cons_prefix_cons.mpr ⟨rfl, hq⟩, fun heq => hne (List.cons.inj heq).2, ?_⟩
      rwa [tree, descend, hchild, Option.bind_some]

theorem tree_cons (js : Json) (sKey : String) (p : List String) :
    js.tree (sKey :: p) = (js.member sKey).bind fun child : Json => child.tree p := by
  rw [tree, descend, Option.map_bind]
  rfl

/-- Values whose keys are in order are told apart by their trees. -/
theorem Ordered.eq_of_tree {a b : Json} (ha : Ordered a) (hb : Ordered b) (h : a.tree = b.tree) : a = b := by
  have hroot : some a.toShape = some b.toShape := congrFun h []
  induction ha generalizing b with
  | @obj f hkeys hall ih =>
    cases hb with
    | @obj g hg hbelow =>
      congr 1
      apply fields_ext hkeys hg
      intro sKey
      have hchild (p : List String) : ((findKey sKey f).bind fun child : Json => child.tree p) =
          (findKey sKey g).bind fun child : Json => child.tree p := by
        have hp := congrFun h (sKey :: p)
        rwa [tree_cons, tree_cons] at hp
      cases hf : findKey sKey f with
      | none =>
        cases hfind : findKey sKey g with
        | none => rfl
        | some c =>
          rw [hf, hfind] at hchild
          cases hchild []
      | some c =>
        cases hfind : findKey sKey g with
        | none =>
          rw [hf, hfind] at hchild
          cases hchild []
        | some c' =>
          rw [hf, hfind] at hchild
          have htree : c.tree = c'.tree := funext hchild
          exact congrArg some (ih _ (mem_of_findKey hf) (hbelow _ (mem_of_findKey hfind)) htree (congrFun htree []))
    | _ => cases hroot
  | _ => exact (toShape_eq_leaf (Option.some.inj hroot).symm).1.symm

end Json

end PiAudioNode.Lib
