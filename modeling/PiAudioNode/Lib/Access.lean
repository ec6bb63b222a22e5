import PiAudioNode.Lib.Json

/-! Reading and writing parts of a JSON value, with the errors a read or a write
of the wrong type ends in. -/
namespace PiAudioNode.Lib

structure JsonError where
  nId : Nat
  sWhat : String
  deriving DecidableEq

section
variable {β : Type*}

theorem findKey_setKey_self (sKey : String) (v : β) (fields : List (String × β)) :
    findKey sKey (setKey sKey v fields) = some v := by
  fun_induction setKey sKey v fields with
  | case1 => simp [findKey]
  | case2 old rest => simp [findKey]
  | case3 k old rest hk hlt => simp [findKey]
  | case4 k old rest hk hlt ih => simpa [findKey, hk] using ih

theorem findKey_setKey_ne {sKey sOther : String} (hne : sOther ≠ sKey) (v : β) (fields : List (String × β)) :
    findKey sOther (setKey sKey v fields) = findKey sOther fields := by
  fun_induction setKey sKey v fields with
  | case1 => simp [findKey, hne.symm]
  | case2 old rest => simp [findKey, hne.symm]
  | case3 k old rest hk hlt => simp [findKey, hne.symm]
  | case4 k old rest hk hlt ih => simp [findKey, ih]

theorem mem_of_findKey {sKey : String} {v : β} : ∀ {fields : List (String × β)},
    findKey sKey fields = some v → (sKey, v) ∈ fields
  | [], h => by cases h
  | (k, old) :: rest, h => by
    rw [findKey] at h
    split_ifs at h with hk
    · obtain rfl := Option.some.inj h
      rw [← hk]
      exact List.mem_cons_self
    · exact List.mem_cons_of_mem _ (mem_of_findKey h)

/-- Writing the value that is there changes nothing in an object whose keys are in order. -/
theorem setKey_present {sKey : String} {v : β} : ∀ {fields : List (String × β)},
    fields.Pairwise (·.1 < ·.1) → findKey sKey fields = some v → setKey sKey v fields = fields
  | [], _, h => by cases h
  | (k, old) :: rest, hsorted, h => by
    obtain ⟨hhead, hrest⟩ := List.pairwise_cons.mp hsorted
    rw [findKey] at h
    rw [setKey]
    split_ifs at h with hk
    · obtain rfl := Option.some.inj h
      rw [if_pos hk]
    · rw [if_neg hk, if_neg (lt_asymm (hhead _ (mem_of_findKey h))), setKey_present hrest h]

end

namespace Json

def typeName : Json → String
  | .null => "null"
  | .bool _ => "boolean"
  | .int _ => "number"
  | .real _ => "number"
  | .str _ => "string"
  | .arr _ => "array"
  | .obj _ => "object"

def mustBe (sType : String) (js : Json) : JsonError := ⟨302, "type must be " ++ sType ++ ", but is " ++ js.typeName⟩

def getBool : Json → Except JsonError Bool
  | .bool b => .ok b
  | js => .error (mustBe "boolean" js)

def getString : Json → Except JsonError String
  | .str s => .ok s
  | js => .error (mustBe "string" js)

/-- A 32-bit integer: other numbers are truncated and wrapped, a truth value counts as 0 or 1. -/
def getInt : Json → Except JsonError Int
  | .int n => .ok (n.bmod (2 ^ 32))
  | .real x => .ok ((x.num.tdiv x.den).bmod (2 ^ 32))
  | .bool b => .ok b.toInt
  | js => .error (mustBe "number" js)

def getReal : Json → Except JsonError ℚ
  | .int n => .ok n
  | .real x => .ok x
  | js => .error (mustBe "number" js)

def isString : Json → Bool
  | .str _ => true
  | _ => false

def isBoolean : Json → Bool
  | .bool _ => true
  | _ => false

def isNumber : Json → Bool
  | .int _ => true
  | .real _ => true
  | _ => false

/-- The member of an object. No other value contains a key. -/
def member (sKey : String) : Json → Option Json
  | .obj fields => findKey sKey fields
  | _ => none

def elements : Json → Option (List Json)
  | .arr elems => some elems
  | _ => none

def fields : Json → Option (List (String × Json))
  | .obj fields => some fields
  | _ => none

/-- What a loop over a value visits: an array counts its elements, a primitive
value stands alone under the empty key. -/
def items : Json → List (String × Json)
  | .null => []
  | .arr elems => elems.mapIdx fun i js => (toString i, js)
  | .obj fields => fields
  | js => [("", js)]

def isEmpty : Json → Bool
  | .null => true
  | .arr elems => elems.isEmpty
  | .obj fields => fields.isEmpty
  | _ => false

/-- The member read with `get`, the default where the object has none. -/
def value {α : Type} (get : Json → Except JsonError α) (js : Json) (sKey : String) (default : α) : Except JsonError α :=
  match js with
  | .obj fields => ((findKey sKey fields).map get).getD (.ok default)
  | js => .error ⟨306, "cannot use value() with " ++ js.typeName⟩

/-- The member for reading and writing: a missing one is null. -/
def at? (js : Json) (sKey : String) : Except JsonError Json :=
  match js with
  | .null => .ok .null
  | .obj fields => .ok ((findKey sKey fields).getD .null)
  | js => .error ⟨305, "cannot use operator[] with a string argument with " ++ js.typeName⟩

/-- Overwrite or add a member. -/
def setMember (js : Json) (sKey : String) (v : Json) : Except JsonError Json :=
  match js with
  | .null => .ok (.obj [(sKey, v)])
  | .obj fields => .ok (.obj (setKey sKey v fields))
  | js => .error ⟨305, "cannot use operator[] with a string argument with " ++ js.typeName⟩

/-- The escapes of a reference token. -/
def unescape : List Char → Except JsonError (List Char)
  | [] => .ok []
  | '~' :: '0' :: cs => (unescape cs).map ('~' :: ·)
  | '~' :: '1' :: cs => (unescape cs).map ('/' :: ·)
  | '~' :: _ => .error ⟨108, "parse error: escape character '~' must be followed with '0' or '1'"⟩
  | c :: cs => (unescape cs).map (c :: ·)

/-- The reference tokens of a pointer, written without its leading slash. -/
def pointerTokens (sPointer : String) : Except JsonError (List String) :=
  (sPointer.toList.splitOn '/').mapM fun cs => (unescape cs).map String.ofList

def unresolved (sToken : String) : JsonError := ⟨404, "unresolved reference token '" ++ sToken ++ "'"⟩

def arrayIndex (sToken : String) : Except JsonError Nat :=
  let cs := sToken.toList
  let n := Nat.ofDigitChars 10 cs 0
  if 1 < cs.length ∧ cs.head? = some '0' then
    .error ⟨106, "parse error: array index '" ++ sToken ++ "' must not begin with '0'"⟩
  else if 1 < cs.length ∧ ¬ cs.head?.any (fun c => '1' ≤ c ∧ c ≤ '9') then
    .error ⟨109, "parse error: array index '" ++ sToken ++ "' is not a number"⟩
  else if cs = [] ∨ ¬ cs.all Char.isDigit ∨ 2 ^ 64 ≤ n then .error (unresolved sToken)
  else if n = 2 ^ 64 - 1 then .error ⟨410, "array index " ++ sToken ++ " exceeds size_type"⟩
  else .ok n

/-- The value a pointer leads to. -/
def resolve : List String → Json → Option Json
  | [], js => some js
  | sToken :: rest, .obj fields => (findKey sToken fields).bind (resolve rest)
  | sToken :: rest, .arr elems => (arrayIndex sToken).toOption.bind fun i => elems[i]?.bind (resolve rest)
  | _ :: _, _ => none

/-- A null on the way becomes the container its token asks for. -/
def container (sToken : String) : Json → Json
  | .null => if sToken.toList.all Char.isDigit ∨ sToken = "-" then .arr [] else .obj []
  | js => js

/-- Write through a pointer: missing members and elements are made, also where the
write then fails further down. -/
def assign (v : Json) : List String → Json → Except JsonError Unit × Json
  | [], _ => (.ok (), v)
  | sToken :: rest, js =>
    match container sToken js with
    | .obj fields =>
      let x := assign v rest ((findKey sToken fields).getD .null)
      (x.1, .obj (setKey sToken x.2 fields))
    | .arr elems =>
      match if sToken = "-" then .ok elems.length else arrayIndex sToken with
      | .ok i =>
        let x := assign v rest (elems[i]?.getD .null)
        (x.1, .arr ((elems ++ List.replicate (i + 1 - elems.length) Json.null).set i x.2))
      | .error e => (.error e, .arr elems)
    | js => (.error (unresolved sToken), js)

section
variable {sToken sOther : String}

/-- A token no array takes for an index. -/
def IsName (sToken : String) : Prop := ∃ c cs, sToken.toList = c :: cs ∧ ¬ c.isDigit ∧ c ≠ '-'

theorem IsName.arrayIndex (h : IsName sToken) : ∃ e, arrayIndex sToken = .error e := by
  obtain ⟨c, cs, hcs, hdigit, -⟩ := h
  have hzero : c ≠ '0' := by
    rintro rfl
    exact hdigit rfl
  have hrange : ¬ ('1' ≤ c ∧ c ≤ '9') := by
    rintro ⟨hlow, hhigh⟩
    refine hdigit ?_
    simp only [Char.isDigit, Bool.and_eq_true, decide_eq_true_eq]
    exact ⟨le_trans (by decide) hlow, hhigh⟩
  simp only [Json.arrayIndex, hcs]
  split_ifs with h₁ h₂ h₃
  · exact ⟨_, rfl⟩
  · exact ⟨_, rfl⟩
  · exact ⟨_, rfl⟩
  · exact absurd (Or.inr (Or.inl (by simp [hdigit]))) h₃
  · exact absurd (Or.inr (Or.inl (by simp [hdigit]))) h₃

theorem IsName.ne_dash (h : IsName sToken) : sToken ≠ "-" := by
  rintro rfl
  obtain ⟨c, cs, hcs, -, hdash⟩ := h
  exact hdash (List.cons.inj hcs).1.symm

theorem IsName.container_null (h : IsName sToken) : container sToken .null = .obj [] := by
  obtain ⟨c, cs, hcs, hdigit, -⟩ := id h
  simp [container, hcs, hdigit, h.ne_dash]

theorem assign_obj (v : Json) (rest : List String) (fields : List (String × Json)) :
    assign v (sToken :: rest) (.obj fields) = ((assign v rest ((findKey sToken fields).getD .null)).1,
      .obj (setKey sToken (assign v rest ((findKey sToken fields).getD .null)).2 fields)) := by
  simp only [assign, container]

theorem IsName.assign_null (h : IsName sToken) (v : Json) (rest : List String) :
    assign v (sToken :: rest) .null = assign v (sToken :: rest) (.obj []) := by
  rw [assign, h.container_null, assign_obj]

/-- A write below a name changes at most the members of objects. -/
theorem assign_name (h : IsName sToken) (v : Json) (rest : List String) (js : Json) :
    (∃ fields, (js = .obj fields ∨ js = .null ∧ fields = []) ∧
      assign v (sToken :: rest) js = ((assign v rest ((findKey sToken fields).getD .null)).1,
        .obj (setKey sToken (assign v rest ((findKey sToken fields).getD .null)).2 fields))) ∨
    (∀ fields, js ≠ .obj fields) ∧ js ≠ .null ∧ (assign v (sToken :: rest) js).2 = js := by
  obtain ⟨e, he⟩ := h.arrayIndex
  cases js with
  | null => exact Or.inl ⟨[], Or.inr ⟨rfl, rfl⟩, by rw [h.assign_null, assign_obj]⟩
  | obj fields => exact Or.inl ⟨fields, Or.inl rfl, assign_obj v rest fields⟩
  | arr elems => exact Or.inr ⟨by simp, by simp, by simp only [assign, container, if_neg h.ne_dash, he]⟩
  | bool b => exact Or.inr ⟨by simp, by simp, rfl⟩
  | int n => exact Or.inr ⟨by simp, by simp, rfl⟩
  | real x => exact Or.inr ⟨by simp, by simp, rfl⟩
  | str s => exact Or.inr ⟨by simp, by simp, rfl⟩

/-- A write below one name leaves what is below another. -/
theorem resolve_assign_ne (h : IsName sToken) (hne : sOther ≠ sToken) (v : Json) (p q : List String) (js : Json) :
    resolve (sOther :: p) (assign v (sToken :: q) js).2 = resolve (sOther :: p) js := by
  rcases assign_name h v q js with ⟨fields, rfl | ⟨rfl, rfl⟩, hassign⟩ | ⟨-, -, hassign⟩
  · simp only [hassign, resolve, findKey_setKey_ne hne]
  · simp only [hassign, resolve, findKey_setKey_ne hne, findKey, Option.bind_none]
  · rw [hassign]

/-- Two names under one name: the write of one leaves the other. -/
theorem resolve_assign_sibling {sFirst : String} (hfirst : IsName sFirst) (h : IsName sToken) (hne : sOther ≠ sToken)
    (v : Json) (p q : List String) (js : Json) :
    resolve (sFirst :: sOther :: p) (assign v (sFirst :: sToken :: q) js).2 = resolve (sFirst :: sOther :: p) js := by
  rcases assign_name hfirst v (sToken :: q) js with ⟨fields, hjs, hassign⟩ | ⟨-, -, hassign⟩
  · rw [hassign]
    simp only [resolve, findKey_setKey_self, Option.bind_some, resolve_assign_ne h hne]
    rcases hjs with rfl | ⟨rfl, rfl⟩
    · cases hchild : findKey sFirst fields with
      | none => simp [resolve, hchild]
      | some child => simp [resolve, hchild]
    · simp [resolve, findKey]
  · rw [hassign]

/-- What was there is overwritten. -/
theorem resolve_assign_present {v w : Json} : ∀ {p : List String} {js : Json}, resolve p js = some w →
    (assign v p js).1 = .ok () ∧ resolve p (assign v p js).2 = some v := by
  intro p
  induction p with
  | nil => exact fun _ => ⟨rfl, rfl⟩
  | cons sToken rest ih =>
    intro js h
    cases js with
    | obj fields =>
      obtain ⟨child, hchild, hrest⟩ := Option.bind_eq_some_iff.mp h
      obtain ⟨hok, hread⟩ := ih hrest
      have hassign : assign v (sToken :: rest) (.obj fields) =
          ((assign v rest child).1, .obj (setKey sToken (assign v rest child).2 fields)) := by
        simp only [assign, container, hchild, Option.getD_some]
      rw [hassign]
      exact ⟨hok, by simp only [resolve, findKey_setKey_self, Option.bind_some, hread]⟩
    | arr elems =>
      obtain ⟨i, hi, helem⟩ := Option.bind_eq_some_iff.mp h
      obtain ⟨child, hchild, hrest⟩ := Option.bind_eq_some_iff.mp helem
      obtain ⟨hok, hread⟩ := ih hrest
      have hindex : arrayIndex sToken = .ok i := by
        cases harr : arrayIndex sToken with
        | ok j => simpa [harr, Except.toOption] using hi
        | error e => simp [harr, Except.toOption] at hi
      have hlt : i < elems.length := (List.getElem?_eq_some_iff.mp hchild).1
      have hdash : sToken ≠ "-" := by
        rintro rfl
        cases hindex
      have hassign : assign v (sToken :: rest) (.arr elems) =
          ((assign v rest child).1, .arr ((elems ++ List.replicate (i + 1 - elems.length) Json.null).set i
            (assign v rest child).2)) := by
        simp only [assign, container, if_neg hdash, hindex, hchild, Option.getD_some]
      rw [hassign]
      refine ⟨hok, ?_⟩
      simp only [resolve, hindex, Except.toOption, Option.bind_some]
      rw [List.getElem?_set_self (by simp; omega)]
      exact hread
    | _ => cases h

end

end Json

end PiAudioNode.Lib
