import PiAudioNode.Merge
import PiAudioNode.Node

/-! Start-up: whatever the file holds is loaded, and the sender is applied from it. Its
settings are read by name from their group, which refuses a value of the wrong type,
while everything else is read by path, which falls back to a default. -/
namespace PiAudioNode
open Lib Lib.Json Lib.Act Config Rtp

/-- A JSON value with the keys of its objects in order, as the parser leaves it. -/
abbrev Document := {js : Json // Ordered js}

/-- The configuration from a file that holds a document, or none that can be read. -/
def loadFile (file : Option Document) : Except JsonError Unit × Config := Config.load (file.map Subtype.val)

/-- A group of settings as the file has it. -/
def fileGroup (file : Option Document) (sGroup : String) : Option Json := (file.map Subtype.val).bind (Json.member sGroup)

/-- What the file has for a setting of the sender. -/
def fileSetting (file : Option Document) (sKey : String) : Option Json := (fileGroup file "sender").bind (Json.member sKey)

/-- The name the file has for an interface: `sMissing` where it leaves the setting out,
`sOther` where it has no name there. -/
def interfaceName (file : Option Document) (sKey sMissing sOther : String) : String :=
  match fileGroup file "network" with
  | none => sMissing
  | some (.obj fields) =>
    match findKey sKey fields with
    | none => sMissing
    | some (.str s) => s
    | some _ => sOther
  | some _ => sOther

/-- The file leads to a second interface. -/
def HasSecond (file : Option Document) : Prop :=
  let sSecondary := interfaceName file "interface_secondary" "eth1" ""
  sSecondary ≠ "" ∧ sSecondary ≠ interfaceName file "interface_primary" "eth0" "eth0"

/-- A file name goes to the directory of the files, a path stands for itself. -/
def filePath (sFilesDir sFile : String) : String :=
  if sFile ≠ "" ∧ '/' ∉ sFile.toList then sFilesDir ++ "/" ++ sFile else sFile

section ByPath
variable (sys : System) (c : Config)

def sourceByPath : Audio.Source :=
  let dLevel := c.getValue getReal "sender.tone_level_db" (-18)
  let sSource := c.getValue getString "sender.source" "tone"
  let pTone := .tone (c.getValue getReal "sender.tone_hz" 440) dLevel
  if sSource = "sweep" then .sweep dLevel
  else if sSource = "file" then
    (Audio.createFile sys.bReadable (filePath sys.sFilesDir (c.getValue getString "sender.file" ""))
      (c.getValue getBool "sender.loop" true)).getD pTone
  else pTone

def legsByPath : List SenderLeg :=
  let leg1 := ⟨(interfaces c).headD "", c.getValue getString "sender.multicast_primary" "239.69.145.10",
    c.getValue getBool "sender.leg1_enabled" true⟩
  match (interfaces c)[1]? with
  | some sInterface => [leg1, ⟨sInterface, c.getValue getString "sender.multicast_secondary" "239.69.146.10",
      c.getValue getBool "sender.leg2_enabled" true⟩]
  | none => [leg1]

/-- The sender's settings as the dotted paths read them, with a default for each. -/
def settingsByPath : Option SenderSettings :=
  if c.getValue getBool "sender.enabled" false then
    some {
      vLegs := legsByPath c
      nPort := BitVec.ofInt 16 (c.getValue getInt "sender.port" 5004)
      nPayloadType := c.getValue getInt "sender.payload_type" 96
      nPacketTimeUs := c.getValue getInt "sender.packet_time_us" 1000
      pSource := sourceByPath sys c }
  else none

end ByPath

/-- Loading and applying the sender go through, and the sender has what the paths read. -/
structure StartsUp (sys : System) (file : Option Document) : Prop where
  loads : (loadFile file).1 = .ok ()
  applies : (Node.applySender sys (.fresh (loadFile file).2)).1 = .ok ()
  settings : senderSettings sys (loadFile file).2 = .ok (settingsByPath sys (loadFile file).2)

/-- A setting that is missing, or of the type it is read as. -/
def Fits {α : Type} (get : Json → Except JsonError α) (setting : Option Json) : Prop :=
  ∀ js, setting = some js → ∃ a, get js = .ok a

/-- The settings of the audio source that are read have their types. -/
structure SourceFits (sys : System) (file : Option Document) : Prop where
  source : Fits getString (fileSetting file "source")
  level : Fits getReal (fileSetting file "tone_level_db")
  name : fileSetting file "source" = some (.str "file") → Fits getString (fileSetting file "file")
  loop : fileSetting file "source" = some (.str "file") → Fits getBool (fileSetting file "loop")
  tone : fileSetting file "source" ≠ some (.str "sweep") →
    (fileSetting file "source" = some (.str "file") → ∀ sFile,
      (fileSetting file "file").getD (.str "") = .str sFile → sys.bReadable (filePath sys.sFilesDir sFile) = false) →
    Fits getReal (fileSetting file "tone_hz")

/-- The settings of a sender that is to run have their types; those of the second leg
count where there is a second interface. -/
structure SettingsFit (sys : System) (file : Option Document) : Prop extends SourceFits sys file where
  primary : Fits getString (fileSetting file "multicast_primary")
  leg1 : Fits getBool (fileSetting file "leg1_enabled")
  secondary : HasSecond file → Fits getString (fileSetting file "multicast_secondary")
  leg2 : HasSecond file → Fits getBool (fileSetting file "leg2_enabled")
  port : Fits getInt (fileSetting file "port")
  payloadType : Fits getInt (fileSetting file "payload_type")
  packetTime : Fits getInt (fileSetting file "packet_time_us")

/-- The file holds an object, null, or no document at all. -/
def RootFits (file : Option Document) : Prop := ∀ js, file.map Subtype.val = some js → js = .null ∨ js.isObject

/-- The document is an object or none, its sender part is one or missing, and what is
read of that part has its type. -/
structure Bootable (sys : System) (file : Option Document) : Prop where
  root : RootFits file
  sender : ∀ js, fileGroup file "sender" = some js → js.isObject
  enabled : Fits getBool (fileSetting file "enabled")
  settings : fileSetting file "enabled" = some (.bool true) → SettingsFit sys file

section Load
variable {file : Option Document} {sGroup : String} {settings : List (String × Json)}

theorem mergeDefaults_null : mergeDefaults .null defaults = mergeDefaults (.obj []) defaults := rfl

/-- A document that is nothing or an object is loaded, member by member. -/
theorem loadFile_members (hroot : RootFits file) :
    ∃ groups, (loadFile file).1 = .ok () ∧ (loadFile file).2.json = .obj groups ∧
      ∀ sKey, findKey sKey groups = mergedMember (fileGroup file sKey) (findKey sKey defaults) := by
  have hempty : Ordered (.obj []) := .obj List.Pairwise.nil (by simp)
  obtain ⟨fields, hordered, hmerge, hfields⟩ : ∃ fields, Ordered (.obj fields) ∧
      mergeDefaults ((file.map Subtype.val).getD (.obj [])) defaults = mergeDefaults (.obj fields) defaults ∧
      ∀ sKey, fileGroup file sKey = findKey sKey fields := by
    cases file with
    | none => exact ⟨[], hempty, rfl, fun _ => rfl⟩
    | some document =>
      obtain ⟨js, hjs⟩ := document
      rcases hroot js rfl with rfl | hobject
      · exact ⟨[], hempty, mergeDefaults_null, fun _ => rfl⟩
      · obtain ⟨fields, rfl⟩ := isObject_iff.mp hobject
        exact ⟨fields, hjs, rfl, fun _ => rfl⟩
  obtain ⟨groups, hrun, -, hmembers⟩ := mergeDefaults_obj ordered_defaults hordered
  refine ⟨groups, ?_, ?_, fun sKey => by rw [hfields, hmembers]⟩
  · rw [loadFile, Config.load, hmerge, hrun]
  · rw [loadFile, Config.load, hmerge, hrun]

/-- Any other document is refused. -/
theorem loadFile_refused {js : Json} (hfile : file.map Subtype.val = some js) (hnull : js ≠ .null) (hobject : ¬ js.isObject) :
    (loadFile file).1 ≠ .ok () := by
  have hset (sKey : String) (v : Json) : ∃ e, js.setMember sKey v = .error e := by
    cases js with
    | null => exact absurd rfl hnull
    | obj fields => exact absurd rfl hobject
    | _ => exact ⟨_, rfl⟩
  have hrefused (sKey : String) (v : Json) (rest : List (String × Json)) :
      (mergeDefaults js ((sKey, v) :: rest)).1 ≠ .ok () := by
    obtain ⟨e, he⟩ := hset sKey v
    simp only [mergeDefaults, mergeDefault, member_of_not_isObject hobject, he]
    intro h
    cases h
  rw [loadFile, Config.load, hfile, Option.getD_some]
  exact hrefused _ _ _

/-- A group of plain settings as it is read: what the file has, and the defaults. -/
theorem loadFile_group (hroot : RootFits file)
    (hdefaults : findKey sGroup defaults = some (.obj settings)) (hflat : ∀ x ∈ settings, x.2.isObject = false)
    (hgroup : ∀ js, fileGroup file sGroup = some js → js.isObject) :
    ∃ members, (loadFile file).2.json.member sGroup = some (.obj members) ∧
      ∀ sKey, findKey sKey members = ((fileGroup file sGroup).bind (Json.member sKey)).or (findKey sKey settings) := by
  obtain ⟨groups, -, hjson, hgroups⟩ := loadFile_members hroot
  have hmerged := hgroups sGroup
  rw [hdefaults] at hmerged
  rw [hjson, Json.member, hmerged]
  cases hpart : fileGroup file sGroup with
  | none =>
    refine ⟨settings, rfl, fun sKey => ?_⟩
    rw [Option.bind_none, Option.none_or]
  | some js =>
    obtain ⟨fields, rfl⟩ := isObject_iff.mp (hgroup js hpart)
    obtain ⟨document, hdocument, hmember⟩ := Option.bind_eq_some_iff.mp hpart
    obtain ⟨⟨_, hordered⟩, -, rfl⟩ := Option.map_eq_some_iff.mp hdocument
    have hfields : Ordered (.obj fields) := ordered_descend (p := [sGroup]) hordered (by simp [descend, hmember])
    have hsettings := ordered_defaults.member sGroup
    rw [hdefaults, Option.getD_some] at hsettings
    obtain ⟨members, hrun, -, hmembers⟩ := mergeDefaults_obj hsettings hfields
    refine ⟨members, by rw [mergedMember, merged_obj, hrun], fun sKey => ?_⟩
    rw [hmembers, Option.bind_some, Json.member]
    cases hf : findKey sKey fields with
    | none => rfl
    | some v =>
      cases hd : findKey sKey settings with
      | none => rfl
      | some d =>
        have hplain : ¬ (v.isObject ∧ d.isObject) := by simp [hflat _ (mem_of_findKey hd)]
        rw [mergedMember, merged_of_not_objects hplain, Option.some_or]

/-- A group of another kind stays as it is. -/
theorem loadFile_kept {js : Json} (hroot : RootFits file)
    (hdefaults : findKey sGroup defaults = some (.obj settings)) (hgroup : fileGroup file sGroup = some js)
    (hobject : ¬ js.isObject) : (loadFile file).2.json.member sGroup = some js := by
  obtain ⟨groups, -, hjson, hgroups⟩ := loadFile_members hroot
  have hmerged := hgroups sGroup
  rw [hdefaults, hgroup, mergedMember, merged_of_not_objects fun h => hobject h.1] at hmerged
  rw [hjson, Json.member, hmerged]

theorem at?_of_member {js v : Json} {sKey : String} (h : js.member sKey = some v) : js.at? sKey = .ok v := by
  cases js with
  | obj fields =>
    have hfind : findKey sKey fields = some v := h
    rw [at?, hfind, Option.getD_some]
  | _ => cases h

theorem lookup_of_member {c : Config} {v : Json} {sPath sKey : String} (h : c.json.member sGroup = some v)
    (hpath : pointer sPath = .ok [sGroup, sKey]) : c.lookup sPath = resolve [sKey] v := by
  cases hjson : c.json with
  | obj fields =>
    rw [hjson] at h
    have hfind : findKey sGroup fields = some v := h
    rw [lookup, hpath, hjson, Except.toOption, Option.bind_some, resolve, hfind, Option.bind_some]
  | _ =>
    rw [hjson] at h
    cases h

end Load

section Groups
variable {file : Option Document}

def senderDefaults : List (String × Json) := ((Json.obj defaults).member "sender").bind Json.fields |>.getD []

theorem loadFile_sender (hroot : RootFits file)
    (hsender : ∀ js, fileGroup file "sender" = some js → js.isObject) :
    ∃ members, (loadFile file).2.json.at? "sender" = .ok (.obj members) ∧
      ∀ sKey, findKey sKey members = (fileSetting file sKey).or (findKey sKey senderDefaults) := by
  have hdefaults : findKey "sender" defaults = some (.obj senderDefaults) := rfl
  obtain ⟨members, hmember, hmembers⟩ := loadFile_group hroot hdefaults (by decide +kernel) hsender
  exact ⟨members, at?_of_member hmember, hmembers⟩

theorem getValue_interface (hroot : RootFits file)
    {sKey sMissing : String} (sPath : String) (hpath : pointer sPath = .ok ["network", sKey]) (hname : IsName sKey)
    (hmissing : findKey sKey [("interface_primary", Json.str "eth0"), ("interface_secondary", .str "eth1")] =
      some (.str sMissing)) (sOther : String) :
    (loadFile file).2.getValue getString sPath sOther = interfaceName file sKey sMissing sOther := by
  rw [Config.getValue]
  by_cases hobject : ∀ js, fileGroup file "network" = some js → js.isObject
  · obtain ⟨members, hmember, hmembers⟩ := loadFile_group hroot rfl (by decide +kernel) hobject
    rw [lookup_of_member hmember hpath, resolve, hmembers, hmissing, interfaceName]
    cases hpart : fileGroup file "network" with
    | none => rfl
    | some js =>
      obtain ⟨fields, rfl⟩ := isObject_iff.mp (hobject js hpart)
      rw [Option.bind_some, Json.member]
      simp only
      cases hfind : findKey sKey fields with
      | none => rfl
      | some v => cases v <;> rfl
  · push Not at hobject
    obtain ⟨js, hpart, hjs⟩ := hobject
    rw [lookup_of_member (loadFile_kept hroot rfl hpart hjs) hpath, interfaceName, hpart]
    cases js with
    | obj fields => exact absurd rfl hjs
    | arr elems =>
      obtain ⟨e, he⟩ := hname.arrayIndex
      rw [resolve, he]
      rfl
    | _ => rfl

theorem second_interface_iff (hroot : RootFits file) :
    1 < (interfaces (loadFile file).2).length ↔ HasSecond file := by
  have hprimary := getValue_interface hroot "network.interface_primary" rfl ⟨_, _, rfl, by decide, by decide⟩ rfl "eth0"
  have hsecondary := getValue_interface hroot "network.interface_secondary" rfl ⟨_, _, rfl, by decide, by decide⟩ rfl ""
  simp only [interfaces, hprimary, hsecondary, HasSecond]
  split
  · next hsecond => exact ⟨fun _ => hsecond, fun _ => Nat.lt_add_one 1⟩
  · next hsecond => exact ⟨fun hlt => absurd hlt (Nat.lt_irrefl 1), fun h => absurd h hsecond⟩

end Groups

section Values
variable {α : Type} {get : Json → Except JsonError α} {file : Option Document} {c : Config} {members : List (String × Json)}

/-- The sender's part of the configuration at hand. -/
structure SenderPart (file : Option Document) (c : Config) (members : List (String × Json)) : Prop where
  part : c.json.at? "sender" = .ok (.obj members)
  members : ∀ sKey, findKey sKey members = (fileSetting file sKey).or (findKey sKey senderDefaults)

/-- The sender's default for a setting is of the type it is read as. -/
def Defaulted (get : Json → Except JsonError α) (sKey : String) : Prop :=
  ∃ d a, findKey sKey senderDefaults = some d ∧ get d = .ok a

/-- A read by name goes through where the file's value fits, and every default does. -/
theorem SenderPart.reads_iff (h : SenderPart file c members) {sKey : String} (hkey : Defaulted get sKey) (default : α) :
    (∃ a, (Json.obj members).value get sKey default = .ok a) ↔ Fits get (fileSetting file sKey) := by
  obtain ⟨d, a, hd, hget⟩ := hkey
  rw [value, h.members, hd]
  cases hs : fileSetting file sKey with
  | none =>
    constructor
    · intro _ js hjs
      cases hjs
    · intro _
      exact ⟨a, hget⟩
  | some js =>
    rw [Option.some_or, Option.map_some, Option.getD_some]
    constructor
    · rintro ha js' hjs'
      obtain rfl := Option.some.inj hjs'
      exact ha
    · exact fun hfits => hfits js rfl

theorem SenderPart.fits (h : SenderPart file c members) {sKey : String} {default a : α}
    (hread : (Json.obj members).value get sKey default = .ok a) (hkey : Defaulted get sKey) :
    Fits get (fileSetting file sKey) :=
  (h.reads_iff hkey default).mp ⟨a, hread⟩

/-- What fits is read by name as the path reads it. -/
theorem SenderPart.reads (h : SenderPart file c members) {sKey : String} {default : α} (sPath : String)
    (hfits : Fits get (fileSetting file sKey)) (hkey : Defaulted get sKey) (hpath : pointer sPath = .ok ["sender", sKey]) :
    (Json.obj members).value get sKey default = .ok (c.getValue get sPath default) := by
  obtain ⟨a, ha⟩ := (h.reads_iff hkey default).mpr hfits
  rw [ha, getValue_eq_of_value h.part hpath ha]

/-- A text read by name is the file's, or the default where the file has none. -/
theorem SenderPart.text_eq (h : SenderPart file c members) {sKey sDefault s : String}
    (hd : findKey sKey senderDefaults = some (.str sDefault)) {default : String}
    (hvalue : (Json.obj members).value getString sKey default = .ok s) :
    (fileSetting file sKey).getD (.str sDefault) = .str s := by
  rw [value, h.members, hd] at hvalue
  cases hs : fileSetting file sKey with
  | none =>
    rw [hs] at hvalue
    obtain rfl := Except.ok.inj hvalue
    rfl
  | some js =>
    rw [hs] at hvalue
    cases js with
    | str _ =>
      obtain rfl := Except.ok.inj hvalue
      rfl
    | _ => cases hvalue

end Values

section Source
variable {sys : System} {file : Option Document} {c : Config} {members : List (String × Json)}

def toneFrom (js : Json) (dLevel : ℚ) : Except JsonError Audio.Source :=
  js.value getReal "tone_hz" 440 >>= fun dFrequency => .ok (.tone dFrequency dLevel)

theorem createFromConfig_eq (bReadable : String → Bool) (js : Json) (sFilesDir : String) :
    Audio.createFromConfig bReadable js sFilesDir =
      (js.value getString "source" "tone" >>= fun sSource => js.value getReal "tone_level_db" (-18) >>= fun dLevel =>
        if sSource = "sweep" then .ok (.sweep dLevel)
        else if sSource = "file" then
          js.value getString "file" "" >>= fun sFile => js.value getBool "loop" true >>= fun bLoop =>
            match Audio.createFile bReadable (filePath sFilesDir sFile) bLoop with
            | some pSource => .ok pSource
            | none => toneFrom js dLevel
        else toneFrom js dLevel) := by
  rw [Audio.createFromConfig]
  apply congrArg (js.value getString "source" "tone" >>= ·)
  funext sSource
  apply congrArg (js.value getReal "tone_level_db" (-18) >>= ·)
  funext dLevel
  by_cases hsweep : sSource = "sweep"
  · rw [if_pos hsweep, if_pos hsweep]
    rfl
  · rw [if_neg hsweep, if_neg hsweep]
    by_cases hfile : sSource = "file"
    · rw [if_pos hfile, if_pos hfile]
      apply congrArg (js.value getString "file" "" >>= ·)
      funext sFile
      apply congrArg (js.value getBool "loop" true >>= ·)
      funext bLoop
      rw [← filePath]
      cases Audio.createFile bReadable (filePath sFilesDir sFile) bLoop <;> rfl
    · rw [if_neg hfile, if_neg hfile]
      rfl

/-- Names other than the default come from the file. -/
theorem SenderPart.named_iff (h : SenderPart file c members) {sSource s : String} (hs : s ≠ "tone")
    (hsource : (Json.obj members).value getString "source" "tone" = .ok sSource) :
    fileSetting file "source" = some (.str s) ↔ sSource = s := by
  have htext := h.text_eq rfl hsource
  cases hfile : fileSetting file "source" with
  | none =>
    rw [hfile] at htext
    obtain rfl := Json.str.inj htext
    constructor
    · intro h
      cases h
    · exact fun heq => absurd heq.symm hs
  | some js =>
    rw [hfile] at htext
    obtain rfl : js = .str sSource := htext
    constructor
    · intro heq
      exact Json.str.inj (Option.some.inj heq)
    · rintro rfl
      rfl

theorem SenderPart.sourceFits (h : SenderPart file c members) {pSource : Audio.Source}
    (hrun : Audio.createFromConfig sys.bReadable (.obj members) sys.sFilesDir = .ok pSource) : SourceFits sys file := by
  rw [createFromConfig_eq] at hrun
  obtain ⟨sSource, hsource, hrun⟩ := bind_eq_ok.mp hrun
  obtain ⟨dLevel, hlevel, hrun⟩ := bind_eq_ok.mp hrun
  have hnamed := h.named_iff (s := "file") (by decide) hsource
  have htone {x : Audio.Source} (hx : toneFrom (.obj members) dLevel = .ok x) : Fits getReal (fileSetting file "tone_hz") := by
    obtain ⟨dFrequency, hfrequency, -⟩ := bind_eq_ok.mp hx
    exact h.fits hfrequency ⟨_, _, rfl, rfl⟩
  have hfits := @SourceFits.mk sys file (h.fits hsource ⟨_, _, rfl, rfl⟩) (h.fits hlevel ⟨_, _, rfl, rfl⟩)
  by_cases hsweep : sSource = "sweep"
  · have hswept := (h.named_iff (by decide) hsource).mpr hsweep
    have hnot : fileSetting file "source" ≠ some (.str "file") := by
      simp [hswept]
    exact hfits (absurd · hnot) (absurd · hnot) fun hne => absurd hswept hne
  rw [if_neg hsweep] at hrun
  by_cases hfile : sSource = "file"
  · rw [if_pos hfile] at hrun
    obtain ⟨sFile, hpath, hrun⟩ := bind_eq_ok.mp hrun
    obtain ⟨bLoop, hloop, hrun⟩ := bind_eq_ok.mp hrun
    refine hfits (fun _ => h.fits hpath ⟨_, _, rfl, rfl⟩) (fun _ => h.fits hloop ⟨_, _, rfl, rfl⟩) fun _ hfailed => ?_
    have hunread := hfailed (hnamed.mpr hfile) sFile (h.text_eq rfl hpath)
    rw [Audio.createFile, if_neg (by simp [hunread])] at hrun
    exact htone hrun
  · rw [if_neg hfile] at hrun
    have hnot : fileSetting file "source" ≠ some (.str "file") := fun heq => hfile (hnamed.mp heq)
    exact hfits (absurd · hnot) (absurd · hnot) fun _ _ => htone hrun

theorem SenderPart.source_of_fits (h : SenderPart file c members) (hfits : SourceFits sys file) :
    Audio.createFromConfig sys.bReadable (.obj members) sys.sFilesDir = .ok (sourceByPath sys c) := by
  have hsource : (Json.obj members).value getString "source" "tone" = .ok (c.getValue getString "sender.source" "tone") :=
    h.reads _ hfits.source ⟨_, _, rfl, rfl⟩ rfl
  have hlevel : (Json.obj members).value getReal "tone_level_db" (-18) = .ok (c.getValue getReal "sender.tone_level_db" (-18)) :=
    h.reads _ hfits.level ⟨_, _, rfl, rfl⟩ rfl
  have htone (htones : Fits getReal (fileSetting file "tone_hz")) :
      toneFrom (.obj members) (c.getValue getReal "sender.tone_level_db" (-18)) =
        .ok (.tone (c.getValue getReal "sender.tone_hz" 440) (c.getValue getReal "sender.tone_level_db" (-18))) := by
    rw [toneFrom, h.reads "sender.tone_hz" htones ⟨_, _, rfl, rfl⟩ rfl]
    rfl
  rw [createFromConfig_eq, hsource, hlevel]
  refine bind_eq_ok.mpr ⟨_, rfl, bind_eq_ok.mpr ⟨_, rfl, ?_⟩⟩
  simp only [sourceByPath]
  by_cases hsweep : c.getValue getString "sender.source" "tone" = "sweep"
  · rw [if_pos hsweep, if_pos hsweep]
  rw [if_neg hsweep, if_neg hsweep]
  have hswept : fileSetting file "source" ≠ some (.str "sweep") := by
    rwa [Ne, h.named_iff (by decide) hsource]
  by_cases hfile : c.getValue getString "sender.source" "tone" = "file"
  · have hnamed := (h.named_iff (by decide) hsource).mpr hfile
    have hpath : (Json.obj members).value getString "file" "" = .ok (c.getValue getString "sender.file" "") :=
      h.reads _ (hfits.name hnamed) ⟨_, _, rfl, rfl⟩ rfl
    have hloop : (Json.obj members).value getBool "loop" true = .ok (c.getValue getBool "sender.loop" true) :=
      h.reads _ (hfits.loop hnamed) ⟨_, _, rfl, rfl⟩ rfl
    rw [if_pos hfile, if_pos hfile, hpath, hloop]
    refine bind_eq_ok.mpr ⟨_, rfl, bind_eq_ok.mpr ⟨_, rfl, ?_⟩⟩
    cases hcreate : Audio.createFile sys.bReadable (filePath sys.sFilesDir (c.getValue getString "sender.file" ""))
        (c.getValue getBool "sender.loop" true) with
    | some pSource => rfl
    | none =>
      refine htone (hfits.tone hswept fun _ sFile hsFile => ?_)
      obtain rfl : sFile = c.getValue getString "sender.file" "" := by
        rw [h.text_eq rfl hpath] at hsFile
        exact (Json.str.inj hsFile).symm
      simpa [Audio.createFile] using hcreate
  · rw [if_neg hfile, if_neg hfile]
    exact htone (hfits.tone hswept fun hnamed => absurd ((h.named_iff (by decide) hsource).mp hnamed) hfile)

end Source

section Settings
variable {sys : System} {file : Option Document} {members : List (String × Json)}

theorem SenderPart.leg_fits {c : Config} (h : SenderPart file c members) {sInterface sKey sMulticast sEnabledKey : String}
    {leg : SenderLeg} (hrun : configuredLeg (.obj members) sInterface sKey sMulticast sEnabledKey = .ok leg)
    (hkey : Defaulted getString sKey) (henabled : Defaulted getBool sEnabledKey) :
    Fits getString (fileSetting file sKey) ∧ Fits getBool (fileSetting file sEnabledKey) := by
  obtain ⟨sMulticast', hmulticast, hrun⟩ := bind_eq_ok.mp hrun
  obtain ⟨bEnabled, hswitch, -⟩ := bind_eq_ok.mp hrun
  exact ⟨h.fits hmulticast hkey, h.fits hswitch henabled⟩

theorem SenderPart.settingsFit (hroot : RootFits file) (h : SenderPart file (loadFile file).2 members) {x : SenderSettings}
    (hrun : senderSettings sys (loadFile file).2 = .ok (some x)) : SettingsFit sys file := by
  obtain ⟨js, hjs, hrun⟩ := bind_eq_ok.mp hrun
  obtain rfl : .obj members = js := Except.ok.inj (h.part.symm.trans hjs)
  obtain ⟨bEnabled, henabled, hrun⟩ := bind_eq_ok.mp hrun
  cases bEnabled with
  | false => cases hrun
  | true =>
    obtain ⟨vLegs, hlegs, hrun⟩ := bind_eq_ok.mp hrun
    obtain ⟨nPort, hport, hrun⟩ := bind_eq_ok.mp hrun
    obtain ⟨nPayloadType, hpayload, hrun⟩ := bind_eq_ok.mp hrun
    obtain ⟨nPacketTimeUs, hpacket, hrun⟩ := bind_eq_ok.mp hrun
    obtain ⟨pSource, hsource, -⟩ := bind_eq_ok.mp hrun
    obtain ⟨leg1, hleg1, hlegs⟩ := bind_eq_ok.mp hlegs
    have hfirst := h.leg_fits hleg1 ⟨_, _, rfl, rfl⟩ ⟨_, _, rfl, rfl⟩
    have hsecond (hsecond : HasSecond file) :
        Fits getString (fileSetting file "multicast_secondary") ∧ Fits getBool (fileSetting file "leg2_enabled") := by
      rw [List.getElem?_eq_getElem ((second_interface_iff hroot).mpr hsecond)] at hlegs
      obtain ⟨leg2, hleg2, -⟩ := bind_eq_ok.mp hlegs
      exact h.leg_fits hleg2 ⟨_, _, rfl, rfl⟩ ⟨_, _, rfl, rfl⟩
    exact {
      toSourceFits := h.sourceFits hsource
      primary := hfirst.1
      leg1 := hfirst.2
      secondary := fun h2 => (hsecond h2).1
      leg2 := fun h2 => (hsecond h2).2
      port := h.fits hport ⟨_, _, rfl, rfl⟩
      payloadType := h.fits hpayload ⟨_, _, rfl, rfl⟩
      packetTime := h.fits hpacket ⟨_, _, rfl, rfl⟩ }

theorem SenderPart.legs_of_fits (hroot : RootFits file) (h : SenderPart file (loadFile file).2 members) (hfits : SettingsFit sys file) :
    configuredLegs (.obj members) (interfaces (loadFile file).2) = .ok (legsByPath (loadFile file).2) := by
  have hleg1 : configuredLeg (.obj members) ((interfaces (loadFile file).2).headD "") "multicast_primary" "239.69.145.10"
      "leg1_enabled" = .ok ⟨(interfaces (loadFile file).2).headD "",
        (loadFile file).2.getValue getString "sender.multicast_primary" "239.69.145.10",
        (loadFile file).2.getValue getBool "sender.leg1_enabled" true⟩ := by
    rw [configuredLeg, h.reads "sender.multicast_primary" hfits.primary ⟨_, _, rfl, rfl⟩ rfl,
      h.reads "sender.leg1_enabled" hfits.leg1 ⟨_, _, rfl, rfl⟩ rfl]
    rfl
  rw [configuredLegs, hleg1, legsByPath]
  cases hsecond : (interfaces (loadFile file).2)[1]? with
  | none => rfl
  | some sInterface =>
    have htwo : HasSecond file := (second_interface_iff hroot).mp (List.getElem?_eq_some_iff.mp hsecond).1
    have hleg2 : configuredLeg (.obj members) sInterface "multicast_secondary" "239.69.146.10" "leg2_enabled" =
        .ok ⟨sInterface, (loadFile file).2.getValue getString "sender.multicast_secondary" "239.69.146.10",
          (loadFile file).2.getValue getBool "sender.leg2_enabled" true⟩ := by
      rw [configuredLeg, h.reads "sender.multicast_secondary" (hfits.secondary htwo) ⟨_, _, rfl, rfl⟩ rfl,
        h.reads "sender.leg2_enabled" (hfits.leg2 htwo) ⟨_, _, rfl, rfl⟩ rfl]
      rfl
    refine bind_eq_ok.mpr ⟨_, rfl, ?_⟩
    simp only [hleg2]
    rfl

theorem SenderPart.settings_of_fits (hroot : RootFits file) (h : SenderPart file (loadFile file).2 members)
    (henabled : Fits getBool (fileSetting file "enabled"))
    (hfits : (loadFile file).2.getValue getBool "sender.enabled" false = true → SettingsFit sys file) :
    senderSettings sys (loadFile file).2 = .ok (settingsByPath sys (loadFile file).2) := by
  have hswitch : (Json.obj members).value getBool "enabled" false = .ok ((loadFile file).2.getValue getBool "sender.enabled" false) :=
    h.reads _ henabled ⟨_, _, rfl, rfl⟩ rfl
  rw [senderSettings, settingsByPath]
  refine bind_eq_ok.mpr ⟨_, h.part, bind_eq_ok.mpr ⟨_, hswitch, ?_⟩⟩
  cases hb : (loadFile file).2.getValue getBool "sender.enabled" false with
  | false => rfl
  | true =>
    have hall := hfits hb
    rw [if_pos rfl, if_pos rfl, h.legs_of_fits hroot hall, h.reads "sender.port" hall.port ⟨_, _, rfl, rfl⟩ rfl,
      h.reads "sender.payload_type" hall.payloadType ⟨_, _, rfl, rfl⟩ rfl,
      h.reads "sender.packet_time_us" hall.packetTime ⟨_, _, rfl, rfl⟩ rfl, h.source_of_fits hall.toSourceFits]
    rfl

/-- The sender is enabled where the file says so. -/
theorem SenderPart.enabled_iff {c : Config} (h : SenderPart file c members) (henabled : Fits getBool (fileSetting file "enabled")) :
    c.getValue getBool "sender.enabled" false = true ↔ fileSetting file "enabled" = some (.bool true) := by
  have hswitch : (Json.obj members).value getBool "enabled" false = .ok (c.getValue getBool "sender.enabled" false) :=
    h.reads _ henabled ⟨_, _, rfl, rfl⟩ rfl
  rw [value, h.members] at hswitch
  cases hs : fileSetting file "enabled" with
  | none =>
    rw [hs] at hswitch
    rw [← Except.ok.inj hswitch]
    simp
  | some js =>
    rw [hs] at hswitch
    cases js with
    | bool b =>
      rw [← Except.ok.inj hswitch]
      simp
    | _ => cases hswitch

end Settings

theorem applySender_ok_iff {sys : System} {node : Node} :
    (node.applySender sys).1 = .ok () ↔ ∃ x, senderSettings sys node.config = .ok x := by
  rw [Node.applySender]
  cases senderSettings sys node.config with
  | error e =>
    constructor
    · intro h
      cases h
    · rintro ⟨x, hx⟩
      cases hx
  | ok x => cases x <;> exact ⟨fun _ => ⟨_, rfl⟩, fun _ => rfl⟩

end PiAudioNode
