import PiAudioNode.Lib.Access

/-! Writes through a pointer: which succeed, which put a value where it is already,
and which are refused before anything is made. -/
namespace PiAudioNode.Lib.Json

variable {v : Json} {tokens : List String} {js : Json}

/-- Every value on the way is a container its token can be looked up in, or null. -/
def Open : List String → Json → Prop
  | [], _ => True
  | sToken :: rest, js =>
    match container sToken js with
    | .obj fields => Open rest ((findKey sToken fields).getD .null)
    | .arr elems =>
      match if sToken = "-" then .ok elems.length else arrayIndex sToken with
      | .ok i => Open rest (elems[i]?.getD .null)
      | .error _ => False
    | _ => False

/-- A write succeeds exactly when the way to its place is open. -/
theorem assign_ok_iff : (assign v tokens js).1 = .ok () ↔ Open tokens js := by
  induction tokens generalizing js with
  | nil => exact iff_of_true rfl trivial
  | cons sToken rest ih =>
    simp only [assign, Open]
    cases container sToken js with
    | obj fields => exact ih
    | arr elems =>
      simp only
      generalize hindex : (if sToken = "-" then .ok elems.length else arrayIndex sToken) = place
      cases place with
      | ok i => exact ih
      | error e => exact iff_of_false (by simp) id
    | _ => exact iff_of_false (by simp) id

/-- The value is where the pointer leads, below objects with their members in order. -/
def InPlace (v : Json) : List String → Json → Prop
  | [], js => js = v
  | sToken :: rest, .obj fields =>
    fields.Pairwise (·.1 < ·.1) ∧ ∃ child, findKey sToken fields = some child ∧ InPlace v rest child
  | sToken :: rest, .arr elems =>
    ∃ i child, arrayIndex sToken = .ok i ∧ elems[i]? = some child ∧ InPlace v rest child
  | _ :: _, _ => False

/-- A value on the way has no place for its token, and all before it are there. -/
def Closed : List String → Json → Prop
  | [], _ => False
  | _ :: _, .null => False
  | sToken :: rest, .obj fields =>
    fields.Pairwise (·.1 < ·.1) ∧ ∃ child, findKey sToken fields = some child ∧ Closed rest child
  | sToken :: rest, .arr elems =>
    sToken ≠ "-" ∧ ∀ i, arrayIndex sToken = .ok i → ∃ child, elems[i]? = some child ∧ Closed rest child
  | _ :: _, _ => True

theorem arrayIndex_dash : arrayIndex "-" = .error (unresolved "-") := rfl

theorem ne_dash_of_arrayIndex {sToken : String} {i : Nat} (h : arrayIndex sToken = .ok i) : sToken ≠ "-" := by
  rintro rfl
  rw [arrayIndex_dash] at h
  cases h

/-- An element that is written back leaves its array. -/
theorem set_present {elems : List Json} {i : Nat} {child : Json} (h : elems[i]? = some child) :
    (elems ++ List.replicate (i + 1 - elems.length) Json.null).set i child = elems := by
  obtain ⟨hlt, hget⟩ := List.getElem?_eq_some_iff.mp h
  have hnone : i + 1 - elems.length = 0 := by omega
  rw [hnone, List.replicate_zero, List.append_nil, ← hget, List.set_getElem_self]

/-- A write to a member that is there ends as the write below it. -/
theorem assign_member {sToken : String} {fields : List (String × Json)} {child : Json}
    (hfind : findKey sToken fields = some child) (v : Json) (rest : List String) :
    assign v (sToken :: rest) (.obj fields) =
      ((assign v rest child).1, .obj (setKey sToken (assign v rest child).2 fields)) := by
  rw [assign_obj, hfind, Option.getD_some]

theorem assign_element {sToken : String} {elems : List Json} {i : Nat} {child : Json}
    (hindex : arrayIndex sToken = .ok i) (hchild : elems[i]? = some child) (v : Json) (rest : List String) :
    assign v (sToken :: rest) (.arr elems) = ((assign v rest child).1,
      .arr ((elems ++ List.replicate (i + 1 - elems.length) Json.null).set i (assign v rest child).2)) := by
  simp only [assign, container, if_neg (ne_dash_of_arrayIndex hindex), hindex, hchild, Option.getD_some]

/-- Writing what is there changes nothing. -/
theorem assign_inPlace (h : InPlace v tokens js) : assign v tokens js = (.ok (), js) := by
  induction tokens generalizing js with
  | nil =>
    obtain rfl : js = v := h
    rfl
  | cons sToken rest ih =>
    cases js with
    | obj fields =>
      obtain ⟨hsorted, child, hfind, hbelow⟩ := h
      rw [assign_member hfind, ih hbelow, setKey_present hsorted hfind]
    | arr elems =>
      obtain ⟨i, child, hindex, hchild, hbelow⟩ := h
      rw [assign_element hindex hchild, ih hbelow, set_present hchild]
    | _ => exact h.elim

/-- A write that is refused before anything is made. -/
theorem assign_closed (h : Closed tokens js) (v : Json) : ∃ e, assign v tokens js = (.error e, js) := by
  induction tokens generalizing js with
  | nil => exact h.elim
  | cons sToken rest ih =>
    cases js with
    | null => exact h.elim
    | obj fields =>
      obtain ⟨hsorted, child, hfind, hbelow⟩ := h
      obtain ⟨e, he⟩ := ih hbelow
      exact ⟨e, by rw [assign_member hfind, he, setKey_present hsorted hfind]⟩
    | arr elems =>
      obtain ⟨hdash, helement⟩ := h
      cases hindex : arrayIndex sToken with
      | error e => exact ⟨e, by simp only [assign, container, if_neg hdash, hindex]⟩
      | ok i =>
        obtain ⟨child, hchild, hbelow⟩ := helement i hindex
        obtain ⟨e, he⟩ := ih hbelow
        exact ⟨e, by rw [assign_element hindex hchild, he, set_present hchild]⟩
    | _ => exact ⟨_, rfl⟩

end PiAudioNode.Lib.Json
