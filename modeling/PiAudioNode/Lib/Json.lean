import Mathlib

/-! JSON values and the fields of their objects, kept in the order of their keys. -/
namespace PiAudioNode.Lib

inductive Json where
  | null
  | bool (b : Bool)
  | int (n : Int)
  | real (x : ℚ)
  | str (s : String)
  | arr (elems : List Json)
  | obj (fields : List (String × Json))
  deriving Inhabited

section
variable {β : Type*}

def findKey (sKey : String) : List (String × β) → Option β
  | [] => none
  | (k, v) :: rest => if k = sKey then some v else findKey sKey rest

/-- Overwrite the value of a key, or add the key at its place. -/
def setKey (sKey : String) (v : β) : List (String × β) → List (String × β)
  | [] => [(sKey, v)]
  | (k, old) :: rest =>
    if k = sKey then (k, v) :: rest
    else if sKey < k then (sKey, v) :: (k, old) :: rest
    else (k, old) :: setKey sKey v rest

end

end PiAudioNode.Lib
