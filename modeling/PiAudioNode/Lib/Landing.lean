import PiAudioNode.Lib.Pointer

/-! Where a write through a pointer ends up, what it replaces, and what it leaves. -/
namespace PiAudioNode.Lib.Json

/-- One step into a value, to a member or to an element. -/
inductive PathStep where
  | member (sKey : String)
  | element (i : Nat)
  deriving DecidableEq

abbrev Place := List PathStep

/-- What is at a place. -/
def follow : Place → Json → Option Json
  | [], js => some js
  | .member sKey :: rest, .obj fields => (findKey sKey fields).bind (follow rest)
  | .element i :: rest, .arr elems => elems[i]?.bind (follow rest)
  | _ :: _, _ => none

/-- The element an array has for a token; the dash stands for the one after the last. -/
def elementFor (sToken : String) (elems : List Json) : Except JsonError Nat :=
  if sToken = "-" then .ok elems.length else arrayIndex sToken

/-- Where a write through a pointer puts its value. -/
def landing : List String → Json → Place
  | [], _ => []
  | sToken :: rest, js =>
    match container sToken js with
    | .obj fields => .member sToken :: landing rest ((findKey sToken fields).getD .null)
    | .arr elems =>
      match elementFor sToken elems with
      | .ok i => .element i :: landing rest (elems[i]?.getD .null)
      | .error _ => []
    | _ => []

/-- The place of the value that a write replaces: the end of its way, or the first null
on it, which becomes a container. A write that is refused before replaces nothing. -/
def replaced : List String → Json → Option Place
  | [], _ => some []
  | _ :: _, .null => some []
  | sToken :: rest, .obj fields => (replaced rest ((findKey sToken fields).getD .null)).map (.member sToken :: ·)
  | sToken :: rest, .arr elems =>
    match elementFor sToken elems with
    | .ok i => (replaced rest (elems[i]?.getD .null)).map (.element i :: ·)
    | .error _ => none
  | _ :: _, _ => none

/-- Neither place is part of the other. -/
def Beside (p q : Place) : Prop := ¬ p <+: q ∧ ¬ q <+: p

instance (p q : Place) : Decidable (Beside p q) := inferInstanceAs (Decidable (_ ∧ _))

theorem beside_cons {s : PathStep} {p q : Place} : Beside (s :: p) (s :: q) ↔ Beside p q := by
  simp [Beside, List.cons_prefix_cons]

theorem not_beside_nil {p : Place} : ¬ Beside p [] := fun h => h.2 List.nil_prefix

theorem follow_append (p q : Place) (js : Json) : follow (p ++ q) js = (follow p js).bind (follow q) := by
  induction p generalizing js with
  | nil => rfl
  | cons s p ih =>
    cases s with
    | member sKey =>
      cases js with
      | obj fields =>
        simp only [List.cons_append, follow]
        cases findKey sKey fields with
        | none => rfl
        | some child => exact ih child
      | _ => rfl
    | element i =>
      cases js with
      | arr elems =>
        simp only [List.cons_append, follow]
        cases elems[i]? with
        | none => rfl
        | some child => exact ih child
      | _ => rfl

section Writes
variable {v w : Json}

/-- The array with an element written, and its other elements. -/
theorem getElem?_written (elems : List Json) (i j : Nat) (child : Json) :
    ((elems ++ List.replicate (i + 1 - elems.length) Json.null).set i child)[j]? =
      if j = i then some child else (elems ++ List.replicate (i + 1 - elems.length) Json.null)[j]? := by
  by_cases hj : j = i
  · subst hj
    rw [if_pos rfl, List.getElem?_set_self (by simp; omega)]
  · rw [if_neg hj, List.getElem?_set_ne (Ne.symm hj)]

theorem assign_arr {sToken : String} {elems : List Json} {i : Nat} (h : elementFor sToken elems = .ok i)
    (rest : List String) : assign v (sToken :: rest) (.arr elems) = ((assign v rest (elems[i]?.getD .null)).1,
      .arr ((elems ++ List.replicate (i + 1 - elems.length) Json.null).set i
        (assign v rest (elems[i]?.getD .null)).2)) := by
  simp only [elementFor] at h
  simp only [assign, container, h]

theorem assign_arr_error {sToken : String} {elems : List Json} {e : JsonError} (h : elementFor sToken elems = .error e)
    (rest : List String) : assign v (sToken :: rest) (.arr elems) = (.error e, .arr elems) := by
  simp only [elementFor] at h
  simp only [assign, container, h]

/-- A null is written like the container that its token asks for. -/
theorem assign_null (sToken : String) (rest : List String) :
    assign v (sToken :: rest) .null = assign v (sToken :: rest) (container sToken .null) := by
  unfold container
  simp only
  split <;> simp only [assign, container, *, if_true, if_false]

theorem container_null_ne (sToken : String) : container sToken .null ≠ .null := by
  unfold container
  simp only
  split <;> simp

theorem landing_null (sToken : String) (rest : List String) :
    landing (sToken :: rest) .null = landing (sToken :: rest) (container sToken .null) := by
  unfold container
  simp only
  split <;> simp only [landing, container, *, if_true, if_false]

/-- A write that succeeds puts its value where it lands. -/
theorem follow_landing {tokens : List String} {js : Json} (h : (assign v tokens js).1 = .ok ()) :
    follow (landing tokens js) (assign v tokens js).2 = some v := by
  induction tokens generalizing js with
  | nil => rfl
  | cons sToken rest ih =>
    -- a null has become its container already
    wlog hjs : js ≠ .null generalizing js
    · obtain rfl := not_not.mp hjs
      rw [assign_null] at h ⊢
      rw [landing_null]
      exact this h (container_null_ne sToken)
    cases js with
    | null => exact absurd rfl hjs
    | obj fields =>
      rw [assign_obj] at h ⊢
      simp only [landing, container, follow, findKey_setKey_self, Option.bind_some]
      exact ih h
    | arr elems =>
      cases hindex : elementFor sToken elems with
      | error e =>
        rw [assign_arr_error hindex] at h
        cases h
      | ok i =>
        rw [assign_arr hindex] at h ⊢
        simp only [landing, container, hindex, follow, getElem?_written, if_true, Option.bind_some]
        exact ih h
    | _ => cases h

/-- Without a dash the pointer itself finds what is where a write through it lands. -/
theorem resolve_landing {tokens : List String} {js js' : Json} (hdash : "-" ∉ tokens)
    (hok : (assign v tokens js).1 = .ok ()) (h : follow (landing tokens js) js' = some w) :
    resolve tokens js' = some w := by
  induction tokens generalizing js js' with
  | nil => exact h
  | cons sToken rest ih =>
    obtain ⟨hfirst, hrest⟩ := not_or.mp (mt List.mem_cons.mpr hdash)
    wlog hjs : js ≠ .null generalizing js
    · obtain rfl := not_not.mp hjs
      rw [assign_null] at hok
      rw [landing_null] at h
      exact this hok h (container_null_ne sToken)
    cases js with
    | null => exact absurd rfl hjs
    | obj fields =>
      rw [assign_obj] at hok
      simp only [landing, container] at h
      cases js' with
      | obj fields' =>
        obtain ⟨child, hchild, hbelow⟩ := Option.bind_eq_some_iff.mp h
        simp only [resolve, hchild, Option.bind_some]
        exact ih hrest hok hbelow
      | _ => cases h
    | arr elems =>
      cases hindex : elementFor sToken elems with
      | error e =>
        rw [assign_arr_error hindex] at hok
        cases hok
      | ok i =>
        rw [assign_arr hindex] at hok
        simp only [landing, container, hindex] at h
        have harray : arrayIndex sToken = .ok i := by
          rw [← hindex, elementFor, if_neg (Ne.symm hfirst)]
        cases js' with
        | arr elems' =>
          obtain ⟨child, hchild, hbelow⟩ := Option.bind_eq_some_iff.mp h
          simp only [resolve, harray, Except.toOption, Option.bind_some, hchild]
          exact ih hrest hok hbelow
        | _ => cases h
    | _ => cases hok

/-- A write leaves every value that is beside the one it replaces. -/
theorem follow_assign {tokens : List String} {js : Json} {p q : Place} (hp : follow p js = some w)
    (hq : replaced tokens js = some q) (h : Beside p q) : follow p (assign v tokens js).2 = some w := by
  induction tokens generalizing js p q with
  | nil =>
    obtain rfl := Option.some.inj hq
    exact absurd h not_beside_nil
  | cons sToken rest ih =>
    cases p with
    | nil => exact absurd List.nil_prefix h.1
    | cons s p =>
      cases js with
      | obj fields =>
        cases s with
        | element j => cases hp
        | member sKey =>
          obtain ⟨q', hq', rfl⟩ := Option.map_eq_some_iff.mp hq
          rw [assign_obj]
          by_cases hkey : sKey = sToken
          · subst hkey
            obtain ⟨child, hchild, hbelow⟩ := Option.bind_eq_some_iff.mp hp
            rw [hchild, Option.getD_some] at hq'
            simp only [follow, findKey_setKey_self, hchild, Option.getD_some, Option.bind_some]
            exact ih hbelow hq' (beside_cons.mp h)
          · simp only [follow, findKey_setKey_ne hkey]
            exact hp
      | arr elems =>
        cases s with
        | member sKey => cases hp
        | element j =>
          cases hindex : elementFor sToken elems with
          | error e =>
            rw [assign_arr_error hindex]
            exact hp
          | ok i =>
            simp only [replaced, hindex] at hq
            obtain ⟨q', hq', rfl⟩ := Option.map_eq_some_iff.mp hq
            obtain ⟨child, hchild, hbelow⟩ := Option.bind_eq_some_iff.mp hp
            have hlt : j < elems.length := (List.getElem?_eq_some_iff.mp hchild).1
            rw [assign_arr hindex]
            simp only [follow, getElem?_written]
            by_cases hj : j = i
            · subst hj
              rw [hchild, Option.getD_some] at hq'
              simp only [if_true, hchild, Option.getD_some, Option.bind_some]
              exact ih hbelow hq' (beside_cons.mp h)
            · rw [if_neg hj, List.getElem?_append_left hlt]
              exact hp
      | _ => cases s <;> cases hp

end Writes

/-- Every object has its keys in order, as a map has them. -/
inductive Ordered : Json → Prop where
  | null : Ordered .null
  | bool (b : Bool) : Ordered (.bool b)
  | int (n : Int) : Ordered (.int n)
  | real (x : ℚ) : Ordered (.real x)
  | str (s : String) : Ordered (.str s)
  | arr {elems : List Json} (h : ∀ js ∈ elems, Ordered js) : Ordered (.arr elems)
  | obj {fields : List (String × Json)} (hkeys : fields.Pairwise (·.1 < ·.1)) (h : ∀ x ∈ fields, Ordered x.2) :
    Ordered (.obj fields)

section Order
variable {sKey : String} {v child : Json} {fields : List (String × Json)}

theorem mem_setKey {β : Type*} {child : β} {fields : List (String × β)} {x : String × β}
    (hx : x ∈ setKey sKey child fields) : x ∈ fields ∨ x = (sKey, child) := by
  fun_induction setKey sKey child fields with
  | case1 => exact Or.inr (List.mem_singleton.mp hx)
  | case2 old rest =>
    rcases List.mem_cons.mp hx with rfl | hx
    · exact Or.inr rfl
    · exact Or.inl (List.mem_cons_of_mem _ hx)
  | case3 k old rest hk hlt =>
    rcases List.mem_cons.mp hx with rfl | hx
    · exact Or.inr rfl
    · exact Or.inl hx
  | case4 k old rest hk hlt ih =>
    rcases List.mem_cons.mp hx with rfl | hx
    · exact Or.inl List.mem_cons_self
    · exact (ih hx).imp_left (List.mem_cons_of_mem _)

theorem pairwise_setKey {β : Type*} {child : β} {fields : List (String × β)} (h : fields.Pairwise (·.1 < ·.1)) :
    (setKey sKey child fields).Pairwise (·.1 < ·.1) := by
  fun_induction setKey sKey child fields with
  | case1 => exact List.pairwise_singleton _ _
  | case2 old rest =>
    obtain ⟨hfirst, hrest⟩ := List.pairwise_cons.mp h
    exact List.pairwise_cons.mpr ⟨hfirst, hrest⟩
  | case3 k old rest hk hlt =>
    refine List.pairwise_cons.mpr ⟨fun x hx => ?_, h⟩
    rcases List.mem_cons.mp hx with rfl | hx
    · exact hlt
    · exact hlt.trans ((List.pairwise_cons.mp h).1 x hx)
  | case4 k old rest hk hlt ih =>
    obtain ⟨hfirst, hrest⟩ := List.pairwise_cons.mp h
    refine List.pairwise_cons.mpr ⟨fun x hx => ?_, ih hrest⟩
    rcases mem_setKey hx with hx | rfl
    · exact hfirst x hx
    · exact lt_of_le_of_ne (not_lt.mp hlt) hk

theorem Ordered.member (h : Ordered (.obj fields)) (sKey : String) : Ordered ((findKey sKey fields).getD .null) := by
  cases hfind : findKey sKey fields with
  | none => exact .null
  | some child =>
    cases h with
    | obj hkeys hall => exact hall _ (mem_of_findKey hfind)

theorem Ordered.element {elems : List Json} (h : Ordered (.arr elems)) (i : Nat) : Ordered (elems[i]?.getD .null) := by
  cases hget : elems[i]? with
  | none => exact .null
  | some child =>
    cases h with
    | arr hall => exact hall _ (List.mem_of_getElem? hget)

theorem Ordered.setKey (h : Ordered (.obj fields)) (hchild : Ordered child) (sKey : String) :
    Ordered (.obj (setKey sKey child fields)) := by
  cases h with
  | obj hkeys hall =>
    refine .obj (pairwise_setKey hkeys) fun x hx => ?_
    rcases mem_setKey hx with hx | rfl
    · exact hall x hx
    · exact hchild

theorem ordered_assign (hv : Ordered v) {tokens : List String} {js : Json} (h : Ordered js) :
    Ordered (assign v tokens js).2 := by
  induction tokens generalizing js with
  | nil => exact hv
  | cons sToken rest ih =>
    wlog hjs : js ≠ .null generalizing js
    · obtain rfl := not_not.mp hjs
      rw [assign_null]
      refine this ?_ (container_null_ne sToken)
      unfold container
      simp only
      split
      · exact .arr (by simp)
      · exact .obj List.Pairwise.nil (by simp)
    cases js with
    | null => exact absurd rfl hjs
    | obj fields =>
      rw [assign_obj]
      exact h.setKey (ih (h.member sToken)) sToken
    | arr elems =>
      cases hindex : elementFor sToken elems with
      | error e =>
        rw [assign_arr_error hindex]
        exact h
      | ok i =>
        rw [assign_arr hindex]
        have hwritten := ih (h.element i)
        cases h with
        | arr hall =>
          refine .arr fun x hx => ?_
          rcases List.mem_or_eq_of_mem_set hx with hx | rfl
          · rcases List.mem_append.mp hx with hx | hx
            · exact hall x hx
            · rw [List.eq_of_mem_replicate hx]
              exact .null
          · exact hwritten
    | _ => exact h

/-- A write that is refused before it replaces anything leaves the value as it was. -/
theorem assign_unreplaced {tokens : List String} {js : Json} (h : Ordered js) (hnone : replaced tokens js = none) :
    (assign v tokens js).2 = js := by
  induction tokens generalizing js with
  | nil => cases hnone
  | cons sToken rest ih =>
    cases js with
    | null => cases hnone
    | obj fields =>
      have hbelow := Option.map_eq_none_iff.mp hnone
      have hchild := ih (h.member sToken) hbelow
      rw [assign_obj, hchild]
      cases hfind : findKey sToken fields with
      | none =>
        -- a missing member is a null, and would be replaced
        rw [hfind] at hbelow
        cases rest <;> cases hbelow
      | some child =>
        cases h with
        | obj hkeys hall => rw [Option.getD_some, setKey_present hkeys hfind]
    | arr elems =>
      cases hindex : elementFor sToken elems with
      | error e => rw [assign_arr_error hindex]
      | ok i =>
        simp only [replaced, hindex] at hnone
        have hbelow := Option.map_eq_none_iff.mp hnone
        have hchild := ih (h.element i) hbelow
        rw [assign_arr hindex, hchild]
        cases hget : elems[i]? with
        | none =>
          rw [hget] at hbelow
          cases rest <;> cases hbelow
        | some child => rw [Option.getD_some, set_present hget]
    | _ => rfl

end Order

end PiAudioNode.Lib.Json
