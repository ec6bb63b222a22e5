import PiAudioNode.Lib.Access

/-! The configuration: a JSON document read and written by dotted paths, merged
with the defaults when it is loaded and saved after every write. -/
namespace PiAudioNode
open Lib Lib.Json

/-- The document in memory, and the one the file holds once it was saved. -/
structure Config where
  json : Json := .null
  file : Option Json := none

namespace Config

def defaults : List (String × Json) :=
  [("device", .obj [
      ("description", .str "Raspberry Pi AES67 sender/receiver"),
      ("label", .str "pi-audio-node")]),
   ("network", .obj [
      ("interface_primary", .str "eth0"),
      ("interface_secondary", .str "eth1")]),
   ("nmos", .obj [
      ("enabled", .bool true),
      ("http_port", .int 8080),
      ("registry_override", .str "")]),
   ("ptp", .obj [
      ("announce_timeout_ms", .int 6000),
      ("delay_req_interval_ms", .int 1000),
      ("domain", .int 0)]),
   ("receiver", .obj [
      ("alsa_device", .str "default:CARD=sndrpihifiberry"),
      ("enabled", .bool true),
      ("gain_db", .real 0),
      ("monitor_left", .int (-1)),
      ("monitor_right", .int (-1)),
      ("playout_delay_ms", .int 20)]),
   ("sender", .obj [
      ("channels", .int 2),
      ("enabled", .bool false),
      ("file", .str ""),
      ("label", .str ""),
      ("leg1_enabled", .bool true),
      ("leg2_enabled", .bool true),
      ("loop", .bool true),
      ("multicast_primary", .str "239.69.145.10"),
      ("multicast_secondary", .str "239.69.146.10"),
      ("packet_time_us", .int 1000),
      ("payload_type", .int 96),
      ("port", .int 5004),
      ("source", .str "tone"),
      ("tone_hz", .real 440),
      ("tone_level_db", .real (-18))]),
   ("web", .obj [
      ("audio_files_path", .str ""),
      ("port", .int 80),
      ("webui_path", .str "/usr/local/share/pi-audio-node/webui")])]

mutual

/-- Add what is missing, go on where both sides hold objects. -/
def mergeDefaults (jsTarget : Json) : List (String × Json) → Except JsonError Unit × Json
  | [] => (.ok (), jsTarget)
  | d :: rest =>
    match mergeDefault jsTarget d with
    | (.ok (), js) => mergeDefaults js rest
    | (.error e, js) => (.error e, js)

def mergeDefault (jsTarget : Json) : String × Json → Except JsonError Unit × Json
  | (sKey, jsValue) =>
    match jsTarget.member sKey with
    | none =>
      match jsTarget.setMember sKey jsValue with
      | .ok js => (.ok (), js)
      | .error e => (.error e, jsTarget)
    | some js =>
      match mergeValue js jsValue with
      | none => (.ok (), jsTarget)
      | some (r, js') =>
        match jsTarget.setMember sKey js' with
        | .ok js => (r, js)
        | .error e => (.error e, jsTarget)

def mergeValue (jsTarget : Json) : Json → Option (Except JsonError Unit × Json)
  | .obj jsDefaults =>
    match jsTarget with
    | .obj fields => some (mergeDefaults (.obj fields) jsDefaults)
    | _ => none
  | _ => none

end

/-- From what the file held, if that was JSON. -/
def load (file : Option Json) : Except JsonError Unit × Config :=
  let x := mergeDefaults (file.getD (.obj [])) defaults
  (x.1, { json := x.2, file })

def save (c : Config) : Config := { c with file := some c.json }

def dotted (sPath : String) : String := String.ofList (sPath.toList.map fun c => if c = '.' then '/' else c)

def pointer (sPath : String) : Except JsonError (List String) := pointerTokens (dotted sPath)

/-- The value at a path, if there is one. -/
def lookup (c : Config) (sPath : String) : Option Json := (pointer sPath).toOption.bind (resolve · c.json)

def getValue {α : Type} (get : Json → Except JsonError α) (c : Config) (sPath : String) (defaultValue : α) : α :=
  ((c.lookup sPath).bind fun js => (get js).toOption).getD defaultValue

def write (sPath : String) (value : Json) (c : Config) : Except JsonError Unit × Config :=
  match pointer sPath with
  | .ok tokens =>
    let x := assign value tokens c.json
    (x.1, { c with json := x.2 })
  | .error e => (.error e, c)

def setValue (sPath : String) (value : Json) (c : Config) : Except JsonError Unit × Config :=
  match c.write sPath value with
  | (.ok (), c) => (.ok (), c.save)
  | (.error e, c) => (.error e, c)

theorem lookup_save (c : Config) (sPath : String) : c.save.lookup sPath = c.lookup sPath := rfl

/-- The save does not touch the document. -/
theorem lookup_setValue (sPath sOther : String) (value : Json) (c : Config) :
    (c.setValue sPath value).2.lookup sOther = (c.write sPath value).2.lookup sOther := by
  rw [setValue]
  rcases c.write sPath value with ⟨e | ⟨⟩, c'⟩ <;> rfl

/-- A write to one name of a group leaves the other names of that group. -/
theorem lookup_setValue_ne {sPath sOther sGroup sName sKept : String} (hpath : pointer sPath = .ok [sGroup, sName])
    (hother : pointer sOther = .ok [sGroup, sKept]) (hgroup : IsName sGroup) (hname : IsName sName)
    (hne : sKept ≠ sName) (value : Json) (c : Config) :
    (c.setValue sPath value).2.lookup sOther = c.lookup sOther := by
  rw [lookup_setValue]
  simp only [lookup, hother, write, hpath, Except.toOption, Option.bind_some]
  exact resolve_assign_sibling hgroup hname hne value [] [] c.json

/-- A write to one group leaves the other groups. -/
theorem lookup_setValue_group {sPath sOther sGroup sName sKept : String} {rest : List String}
    (hpath : pointer sPath = .ok [sGroup, sName]) (hother : pointer sOther = .ok (sKept :: rest))
    (hgroup : IsName sGroup) (hne : sKept ≠ sGroup) (value : Json) (c : Config) :
    (c.setValue sPath value).2.lookup sOther = c.lookup sOther := by
  rw [lookup_setValue]
  simp only [lookup, hother, write, hpath, Except.toOption, Option.bind_some]
  exact resolve_assign_ne hgroup hne value rest [sName] c.json

/-- A value that is there is overwritten. -/
theorem setValue_present {sPath : String} {w : Json} {c : Config} (h : c.lookup sPath = some w) (value : Json) :
    (c.setValue sPath value).1 = .ok () ∧ (c.setValue sPath value).2.lookup sPath = some value := by
  obtain ⟨tokens, htokens, hresolve⟩ := Option.bind_eq_some_iff.mp h
  have hpointer : pointer sPath = .ok tokens := by
    cases hp : pointer sPath with
    | ok t => simpa [hp, Except.toOption] using htokens
    | error e => simp [hp, Except.toOption] at htokens
  obtain ⟨hok, hread⟩ := resolve_assign_present (v := value) hresolve
  have hwrite : c.write sPath value = (.ok (), { c with json := (assign value tokens c.json).2 }) := by
    simp only [write, hpointer, hok]
  rw [setValue, hwrite]
  refine ⟨rfl, ?_⟩
  rw [lookup_save, lookup, hpointer]
  exact hread

/-- A member read from a group is what the dotted path reads. -/
theorem getValue_eq_of_value {α : Type} {get : Json → Except JsonError α} {c : Config} {js : Json}
    {sPath sGroup sName : String} {default a : α} (hjs : c.json.at? sGroup = .ok js)
    (hpath : pointer sPath = .ok [sGroup, sName]) (h : js.value get sName default = .ok a) :
    c.getValue get sPath default = a := by
  cases js with
  | obj fields =>
    have hgroup : resolve [sGroup] c.json = some (.obj fields) := by
      cases hc : c.json with
      | obj groups =>
        rw [hc] at hjs
        cases hfind : findKey sGroup groups with
        | some child => simp_all [at?, resolve]
        | none => simp_all [at?]
      | _ => simp [hc, at?] at hjs
    have hlookup : c.lookup sPath = findKey sName fields := by
      rw [lookup, hpath]
      cases hc : c.json with
      | obj groups =>
        simp only [hc, resolve, Option.bind_fun_some] at hgroup
        simp only [Except.toOption, Option.bind_some, resolve, hgroup, Option.bind_fun_some]
      | _ => simp [hc, at?] at hjs
    rw [getValue, hlookup]
    cases hfind : findKey sName fields with
    | none => simpa [value, hfind] using h
    | some v =>
      have hget : get v = .ok a := by simpa [value, hfind] using h
      simp [hget, Except.toOption]
  | _ => cases h

def writeAll : List (String × Json) → Config → Except JsonError Unit × Config
  | [], c => (.ok (), c)
  | (sKey, jsValue) :: rest, c =>
    match c.write sKey jsValue with
    | (.ok (), c) => writeAll rest c
    | (.error e, c) => (.error e, c)

/-- Merge an object of dotted paths and their values. -/
def update (jsUpdates : Json) (c : Config) : Except JsonError Unit × Config :=
  match writeAll jsUpdates.items c with
  | (.ok (), c) => (.ok (), c.save)
  | (.error e, c) => (.error e, c)

end Config

end PiAudioNode
