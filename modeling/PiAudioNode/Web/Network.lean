import PiAudioNode.Lib.Shell
import PiAudioNode.Node
import PiAudioNode.Rtp.SdpText

/-! Network settings: a request is checked and becomes command lines for `nmcli`, which
a shell reads up to the first terminator. -/
namespace PiAudioNode.Web
open Lib Lib.Json Rtp

def isOctet (n : Int) : Bool := 0 ≤ n && n ≤ 255

def ip4Format : List Directive :=
  [.decimal, .text ['.'], .decimal, .text ['.'], .decimal, .text ['.'], .decimal]

/-- The conversion at the end of the format takes whatever is left, and counts. -/
def validIp4 (s : String) (bWithPrefix : Bool) : Bool :=
  if bWithPrefix then
    match scanfAll (ip4Format ++ [.text ['/'], .decimal]) (cString s.toList) with
    | some ([nA, nB, nC, nD, nP], []) =>
      (1 ≤ nP && nP ≤ 32) && (isOctet nA && isOctet nB && isOctet nC && isOctet nD)
    | _ => false
  else
    match scanfAll ip4Format (cString s.toList) with
    | some ([nA, nB, nC, nD], []) => isOctet nA && isOctet nB && isOctet nC && isOctet nD
    | _ => false

def safeShellArg (s : String) : Bool := s ≠ "" && '\'' ∉ s.toList && '\n' ∉ s.toList

/-- The value after the first colon of the first line that starts with the key and has one. -/
def nmcliField (sOutput sKey : String) : String :=
  let vLines := sOutput.toList.splitOn '\n'
  match vLines.find? fun sLine => sKey.toList.isPrefixOf sLine && ':' ∈ sLine with
  | some sLine => String.ofList (sLine.dropWhile (· ≠ ':')).tail
  | none => ""

/-- What `fgets` has in its buffer, time after time, for a line that the shell runs. -/
abbrev Pipe := String → List String

/-- The line as the shell gets it. -/
def piped (sCmd : String) : String := sCmd ++ " 2>&1"

/-- The buffers are appended as C strings. -/
def runCommand (pipe : Pipe) (sCmd : String) : String :=
  String.ofList ((pipe (piped sCmd)).flatMap fun sBuffer => cString sBuffer.toList)

structure NetworkRequest where
  sIf : String
  sMethod : String
  sAddress : String
  sGateway : String

def networkRequest (jsBody : Json) : Except JsonError NetworkRequest := do
  let sIf ← jsBody.value getString "interface" ""
  let sMethod ← jsBody.value getString "method" ""
  let sAddress ← jsBody.value getString "address" ""
  let sGateway ← jsBody.value getString "gateway" ""
  return ⟨sIf, sMethod, sAddress, sGateway⟩

/-- The role of the interface, or the text of the first check that fails. -/
def checkRequest (c : Config) (r : NetworkRequest) : Except String Nat :=
  let nRole := (interfaces c).idxOf r.sIf
  if (interfaces c).length ≤ nRole ∨ 2 ≤ nRole ∨ ¬ safeShellArg r.sIf then .error "unknown interface"
  else if r.sMethod ≠ "dhcp" ∧ r.sMethod ≠ "static" then .error "mode must be dhcp or static"
  else if r.sMethod = "static" ∧ ¬ validIp4 r.sAddress true then .error "address must be a.b.c.d/prefix"
  else if r.sGateway ≠ "" ∧ ¬ validIp4 r.sGateway false then .error "bad gateway"
  else .ok nRole

def deviceShow (sIf : String) : String := "nmcli -t -f GENERAL.CONNECTION device show '" ++ sIf ++ "'"

def conAdd (sIf sCon : String) : String :=
  "sudo -n nmcli con add type ethernet ifname '" ++ sIf ++ "' con-name '" ++ sCon ++ "'"

def conMod (sCon : String) (r : NetworkRequest) : String :=
  "sudo -n nmcli con mod '" ++ sCon ++ "' " ++
    if r.sMethod = "dhcp" then "ipv4.method auto ipv4.addresses '' ipv4.gateway ''"
    else "ipv4.method manual ipv4.addresses '" ++ r.sAddress ++ "' ipv4.gateway '" ++ r.sGateway ++ "'"

def conUp (sCon : String) : String := "sudo -n nmcli con up '" ++ sCon ++ "' >/dev/null 2>&1 &"

/-- The profile that the device has, as `nmcli` says. -/
def deviceProfile (pipe : Pipe) (sIf : String) : String :=
  nmcliField (runCommand pipe (deviceShow sIf)) "GENERAL.CONNECTION"

def roleProfile (nRole : Nat) : String := if nRole = 0 then "amber" else "blue"

/-- The profile that the device has, or one named after the role. -/
def chosenProfile (sFound : String) (nRole : Nat) : String := if safeShellArg sFound then sFound else roleProfile nRole

/-- The commands of a checked request, and its answer. -/
def applyNetwork (pipe : Pipe) (r : NetworkRequest) (nRole : Nat) : Json × List String :=
  let sFound := deviceProfile pipe r.sIf
  let sCon := chosenProfile sFound nRole
  let vAdded := if safeShellArg sFound then [] else [piped (conAdd r.sIf sCon)]
  let sResult := runCommand pipe (conMod sCon r)
  let vLines := piped (deviceShow r.sIf) :: vAdded ++ [piped (conMod sCon r)]
  if "Error".toList <:+: sResult.toList then (.obj [("error", .str sResult)], vLines)
  else (.obj [("ok", .bool true)], vLines ++ [conUp sCon])

/-- The answer to a network-apply request, and what the shell is given for it, in order. -/
def networkApply (pipe : Pipe) (c : Config) (jsBody : Json) : Except JsonError (Json × List String) := do
  let r ← networkRequest jsBody
  match checkRequest c r with
  | .error sError => return (.obj [("error", .str sError)], [])
  | .ok nRole => return applyNetwork pipe r nRole

section Intended

/-- What is meant to be run. -/
inductive Nmcli where
  | deviceShow (sIf : String)
  | conAdd (sIf sCon : String)
  | conModAuto (sCon : String)
  | conModManual (sCon sAddress sGateway : String)
  | conUp (sCon : String)

def sudoNmcli (vArgs : List String) : List (List Char) := (["sudo", "-n", "nmcli", "con"] ++ vArgs).map String.toList

/-- A command with its arguments as the shell should have them. -/
def Nmcli.command : Nmcli → Shell.Command
  | .deviceShow sIf =>
    { words := ["nmcli", "-t", "-f", "GENERAL.CONNECTION", "device", "show", sIf].map String.toList
      redirects := [.copy 2 ['1']] }
  | .conAdd sIf sCon =>
    { words := sudoNmcli ["add", "type", "ethernet", "ifname", sIf, "con-name", sCon], redirects := [.copy 2 ['1']] }
  | .conModAuto sCon =>
    { words := sudoNmcli ["mod", sCon, "ipv4.method", "auto", "ipv4.addresses", "", "ipv4.gateway", ""]
      redirects := [.copy 2 ['1']] }
  | .conModManual sCon sAddress sGateway =>
    { words := sudoNmcli ["mod", sCon, "ipv4.method", "manual", "ipv4.addresses", sAddress, "ipv4.gateway", sGateway]
      redirects := [.copy 2 ['1']] }
  | .conUp sCon =>
    { words := sudoNmcli ["up", sCon], redirects := [.file 1 "/dev/null".toList, .copy 2 ['1']], bBackground := true }

def readLine (sLine : String) : Option Shell.Command := Shell.read (cString sLine.toList)

/-- A text that stays one word between single quotes. -/
structure Argument (s : String) : Prop where
  unquoted : '\'' ∉ s.toList
  unterminated : '\x00' ∉ s.toList

variable {s sIf sCon : String}

/-- The front of a line: what the shell has of it, and where it is. -/
structure Reads (sFront : String) (ts : List Shell.Token) (place : Shell.Place) : Prop where
  walks : Shell.Walks .gap sFront.toList ts place
  unterminated : '\x00' ∉ sFront.toList

namespace Reads
variable {sFront sBack : String} {ts us : List Shell.Token} {place place' : Shell.Place}

theorem append (h : Reads sFront ts place) (hback : Shell.Walks place sBack.toList us place')
    (hnul : '\x00' ∉ sBack.toList) : Reads (sFront ++ sBack) (ts ++ us) place' := by
  constructor
  · rw [String.toList_append]
    exact h.walks.append hback
  · rw [String.toList_append, List.mem_append, not_or]
    exact ⟨h.unterminated, hnul⟩

theorem piped {w : List Char} (h : Reads sFront ts (.word w true)) :
    Reads (piped sFront) (ts ++ [.word w, .ioNumber 2, .greatAnd]) (.word ['1'] false) :=
  h.append rfl (by decide)

/-- An argument after an opening quote. -/
theorem argument (h : Reads sFront ts (.quoted [])) (hs : Argument s) : Reads (sFront ++ s) ts (.quoted s.toList) := by
  have happend := h.append (Shell.walks_quoted hs.unquoted []) hs.unterminated
  rwa [List.append_nil, List.nil_append] at happend

theorem close {w : List Char} (h : Reads sFront ts (.quoted w)) : Reads (sFront ++ "'") ts (.word w true) := by
  have hquote : Shell.Walks (.quoted w) "'".toList [] (.word w true) := rfl
  simpa using h.append hquote (by decide)

theorem readLine {x : Shell.Command} (h : Reads sFront ts place)
    (hparse : ((Shell.finish place).map (ts ++ ·)).bind Shell.parse = some x)
    (hname : x.words.head?.any fun sName => String.ofList sName ∉ Shell.reserved) : readLine sFront = some x := by
  rw [Web.readLine, cString_of_not_mem h.unterminated]
  exact Shell.read_of_walks h.walks hparse hname

/-- The rest of an argument with a terminator is lost, and the quote stays open. -/
theorem readLine_of_mem (h : Reads sFront ts (.quoted [])) (hnul : '\x00' ∈ s.toList)
    (hs : '\'' ∉ cString s.toList) (sBack : String) : Web.readLine (sFront ++ s ++ sBack) = none := by
  rw [Web.readLine, String.toList_append, String.toList_append, List.append_assoc, cString_append h.unterminated,
    cString_append_of_mem hnul]
  exact Shell.read_of_quoted (h.walks.append (Shell.walks_quoted hs []))

end Reads

theorem reads_deviceShow : Reads "nmcli -t -f GENERAL.CONNECTION device show '"
    (["nmcli", "-t", "-f", "GENERAL.CONNECTION", "device", "show"].map fun s => .word s.toList) (.quoted []) :=
  ⟨rfl, by decide⟩

theorem readLine_deviceShow (hIf : Argument sIf) : readLine (piped (deviceShow sIf)) = some (Nmcli.deviceShow sIf).command :=
  (reads_deviceShow.argument hIf).close.piped.readLine rfl rfl

theorem readLine_deviceShow_of_mem (hnul : '\x00' ∈ sIf.toList) (hIf : '\'' ∉ sIf.toList) :
    readLine (piped (deviceShow sIf)) = none := by
  have hline : piped (deviceShow sIf) = "nmcli -t -f GENERAL.CONNECTION device show '" ++ sIf ++ ("'" ++ " 2>&1") :=
    String.append_assoc ..
  rw [hline]
  exact reads_deviceShow.readLine_of_mem hnul (fun hmem => hIf ((List.takeWhile_sublist _).subset hmem)) _

theorem reads_conAdd : Reads "sudo -n nmcli con add type ethernet ifname '"
    ((sudoNmcli ["add", "type", "ethernet", "ifname"]).map .word) (.quoted []) :=
  ⟨rfl, by decide⟩

theorem readLine_conAdd (hIf : Argument sIf) (hCon : Argument sCon) :
    readLine (piped (conAdd sIf sCon)) = some (Nmcli.conAdd sIf sCon).command := by
  have hname : Shell.Walks (.quoted sIf.toList) "' con-name '".toList [.word sIf.toList, .word "con-name".toList]
      (.quoted []) := rfl
  exact (((reads_conAdd.argument hIf).append hname (by decide)).argument hCon).close.piped.readLine rfl rfl

theorem reads_conMod : Reads "sudo -n nmcli con mod '" ((sudoNmcli ["mod"]).map .word) (.quoted []) := ⟨rfl, by decide⟩

theorem reads_conUp : Reads "sudo -n nmcli con up '" ((sudoNmcli ["up"]).map .word) (.quoted []) := ⟨rfl, by decide⟩

theorem readLine_conUp (hCon : Argument sCon) : readLine (conUp sCon) = some (Nmcli.conUp sCon).command := by
  have htail : Shell.Walks (.quoted sCon.toList) "' >/dev/null 2>&1 &".toList
      [.word sCon.toList, .great, .word "/dev/null".toList, .ioNumber 2, .greatAnd, .word ['1']] .amp := rfl
  exact ((reads_conUp.argument hCon).append htail (by decide)).readLine rfl rfl

section Mod
variable {r : NetworkRequest}

theorem readLine_conMod_dhcp (hmethod : r.sMethod = "dhcp") (hCon : Argument sCon) :
    readLine (piped (conMod sCon r)) = some (Nmcli.conModAuto sCon).command := by
  have hquote : Shell.Walks (.quoted sCon.toList) "' ".toList [.word sCon.toList] .gap := rfl
  have hauto : Shell.Walks .gap "ipv4.method auto ipv4.addresses '' ipv4.gateway ''".toList
      (["ipv4.method", "auto", "ipv4.addresses", "", "ipv4.gateway"].map fun s => .word s.toList) (.word [] true) := rfl
  unfold conMod
  rw [if_pos hmethod]
  exact (((reads_conMod.argument hCon).append hquote (by decide)).append hauto (by decide)).piped.readLine rfl rfl

/-- The line up to the address of a static setting. -/
theorem reads_static (hCon : Argument sCon) :
    Reads ("sudo -n nmcli con mod '" ++ sCon ++ "' " ++ "ipv4.method manual ipv4.addresses '")
      ((sudoNmcli ["mod", sCon, "ipv4.method", "manual", "ipv4.addresses"]).map .word) (.quoted []) := by
  have hquote : Shell.Walks (.quoted sCon.toList) "' ".toList [.word sCon.toList] .gap := rfl
  have hmanual : Shell.Walks .gap "ipv4.method manual ipv4.addresses '".toList
      (["ipv4.method", "manual", "ipv4.addresses"].map fun s => .word s.toList) (.quoted []) := rfl
  exact ((reads_conMod.argument hCon).append hquote (by decide)).append hmanual (by decide)

theorem conMod_static (hmethod : r.sMethod ≠ "dhcp") (sCon : String) :
    conMod sCon r = "sudo -n nmcli con mod '" ++ sCon ++ "' " ++ "ipv4.method manual ipv4.addresses '" ++ r.sAddress ++
      "' ipv4.gateway '" ++ r.sGateway ++ "'" := by
  unfold conMod
  rw [if_neg hmethod]
  simp only [String.append_assoc]

theorem reads_gateway (hCon : Argument sCon) (hAddress : Argument r.sAddress) :
    Reads ("sudo -n nmcli con mod '" ++ sCon ++ "' " ++ "ipv4.method manual ipv4.addresses '" ++ r.sAddress ++
        "' ipv4.gateway '")
      ((sudoNmcli ["mod", sCon, "ipv4.method", "manual", "ipv4.addresses", r.sAddress, "ipv4.gateway"]).map .word)
      (.quoted []) := by
  have hgateway : Shell.Walks (.quoted r.sAddress.toList) "' ipv4.gateway '".toList
      [.word r.sAddress.toList, .word "ipv4.gateway".toList] (.quoted []) := rfl
  exact ((reads_static hCon).argument hAddress).append hgateway (by decide)

theorem readLine_conMod_static (hmethod : r.sMethod ≠ "dhcp") (hCon : Argument sCon) (hAddress : Argument r.sAddress)
    (hGateway : Argument r.sGateway) :
    readLine (piped (conMod sCon r)) = some (Nmcli.conModManual sCon r.sAddress r.sGateway).command := by
  rw [conMod_static hmethod]
  exact ((reads_gateway hCon hAddress).argument hGateway).close.piped.readLine rfl rfl

theorem readLine_conMod_address (hmethod : r.sMethod ≠ "dhcp") (hCon : Argument sCon) (hnul : '\x00' ∈ r.sAddress.toList)
    (hAddress : '\'' ∉ cString r.sAddress.toList) : readLine (piped (conMod sCon r)) = none := by
  have hline : piped (conMod sCon r) = "sudo -n nmcli con mod '" ++ sCon ++ "' " ++ "ipv4.method manual ipv4.addresses '" ++
      r.sAddress ++ ("' ipv4.gateway '" ++ r.sGateway ++ "'" ++ " 2>&1") := by
    rw [conMod_static hmethod]
    unfold piped
    simp only [String.append_assoc]
  rw [hline]
  exact (reads_static hCon).readLine_of_mem hnul hAddress _

theorem readLine_conMod_gateway (hmethod : r.sMethod ≠ "dhcp") (hCon : Argument sCon) (hAddress : Argument r.sAddress)
    (hnul : '\x00' ∈ r.sGateway.toList) (hGateway : '\'' ∉ cString r.sGateway.toList) :
    readLine (piped (conMod sCon r)) = none := by
  have hline : piped (conMod sCon r) = "sudo -n nmcli con mod '" ++ sCon ++ "' " ++ "ipv4.method manual ipv4.addresses '" ++
      r.sAddress ++ "' ipv4.gateway '" ++ r.sGateway ++ ("'" ++ " 2>&1") := by
    rw [conMod_static hmethod]
    unfold piped
    simp only [String.append_assoc]
  rw [hline]
  exact (reads_gateway hCon hAddress).readLine_of_mem hnul hGateway _

end Mod

end Intended

section Filters
variable {pipe : Pipe} {c : Config} {r : NetworkRequest} {nRole : Nat} {s sIf sOutput sKey : String}

theorem not_mem_of_safeShellArg (h : safeShellArg s) : '\'' ∉ s.toList := by
  simp only [safeShellArg, Bool.and_eq_true, decide_eq_true_eq] at h
  exact h.1.2

/-- An address has no quote, as far as it is checked. -/
theorem not_mem_of_scanfAll {ds : List Directive} {cs : List Char} {ns : List Int}
    (hds : ∀ t, .text t ∈ ds → '\'' ∉ t) (h : scanfAll ds cs = some (ns, [])) : '\'' ∉ cs := by
  have hblank : ∀ c, isBlank c → c ≠ '\'' := by
    rintro c hc rfl
    exact absurd hc (by decide)
  have hdigit : ∀ c, c.isDigit → c ≠ '\'' := by
    rintro c hc rfl
    exact absurd hc (by decide)
  obtain ⟨front, rfl, hfront⟩ : ∃ front, cs = front ++ [] ∧ ∀ c ∈ front, c ≠ '\'' :=
    scanfAll_consumed hblank (by decide) (by decide) hdigit (fun t ht c hc heq => hds t ht (heq ▸ hc)) h
  rw [List.append_nil]
  exact fun hmem => hfront _ hmem rfl

theorem not_mem_of_validIp4 {bWithPrefix : Bool} (h : validIp4 s bWithPrefix) : '\'' ∉ cString s.toList := by
  unfold validIp4 at h
  split at h
  · split at h
    · next hscan => exact not_mem_of_scanfAll (by simp [ip4Format]) hscan
    · cases h
  · split at h
    · next hscan => exact not_mem_of_scanfAll (by simp [ip4Format]) hscan
    · cases h

/-- What is read of a command's output has no terminator. -/
theorem not_mem_runCommand (pipe : Pipe) (sCmd : String) : '\x00' ∉ (runCommand pipe sCmd).toList := by
  rw [runCommand, String.toList_ofList, List.mem_flatMap]
  rintro ⟨sBuffer, -, hmem⟩
  exact not_mem_cString _ hmem

theorem mem_of_mem_splitOn {c : Char} {cs sLine : List Char} (hline : sLine ∈ cs.splitOn '\n') (hc : c ∈ sLine) : c ∈ cs := by
  induction cs generalizing sLine with
  | nil =>
    obtain rfl : sLine = [] := by simpa using hline
    exact hc
  | cons d cs ih =>
    rw [List.splitOn, List.splitOnP_cons_eq_if_modifyHead] at hline
    split at hline
    · rcases List.mem_cons.mp hline with rfl | hline
      · cases hc
      · exact List.mem_cons_of_mem d (ih hline hc)
    · cases hlines : cs.splitOnP (· == '\n') with
      | nil => exact (List.splitOnP_ne_nil _ _ hlines).elim
      | cons sFirst sRest =>
        have hmem (sOther : List Char) (h : sOther ∈ sFirst :: sRest) (hin : c ∈ sOther) : c ∈ cs :=
          ih (by rwa [List.splitOn, hlines]) hin
        rw [hlines, List.modifyHead_cons] at hline
        rcases List.mem_cons.mp hline with rfl | hline
        · rcases List.mem_cons.mp hc with rfl | hc
          · exact List.mem_cons_self
          · exact List.mem_cons_of_mem d (hmem sFirst List.mem_cons_self hc)
        · exact List.mem_cons_of_mem d (hmem sLine (List.mem_cons_of_mem _ hline) hc)

theorem mem_of_mem_nmcliField {c : Char} (h : c ∈ (nmcliField sOutput sKey).toList) : c ∈ sOutput.toList := by
  simp only [nmcliField] at h
  split at h
  · next sLine hfind =>
    rw [String.toList_ofList] at h
    have hdrop : c ∈ sLine := (List.dropWhile_sublist _).subset (List.mem_of_mem_tail h)
    exact mem_of_mem_splitOn (List.mem_of_find?_eq_some hfind) hdrop
  · cases h

theorem argument_roleProfile (nRole : Nat) : Argument (roleProfile nRole) := by
  rw [roleProfile]
  split <;> exact ⟨by decide, by decide⟩

theorem argument_chosenProfile (pipe : Pipe) (sIf : String) (nRole : Nat) :
    Argument (chosenProfile (deviceProfile pipe sIf) nRole) := by
  rw [chosenProfile]
  split
  · next hsafe =>
    exact ⟨not_mem_of_safeShellArg hsafe, fun hnul => not_mem_runCommand _ _ (mem_of_mem_nmcliField hnul)⟩
  · exact argument_roleProfile nRole

end Filters

section Network

/-- What a checked request should run. -/
def plan (pipe : Pipe) (r : NetworkRequest) (nRole : Nat) : List Nmcli :=
  let sFound := deviceProfile pipe r.sIf
  let sCon := chosenProfile sFound nRole
  let vAdded := if safeShellArg sFound then [] else [Nmcli.conAdd r.sIf sCon]
  let vSet := .deviceShow r.sIf :: vAdded ++
    [if r.sMethod = "dhcp" then .conModAuto sCon else .conModManual sCon r.sAddress r.sGateway]
  if "Error".toList <:+: (runCommand pipe (conMod sCon r)).toList then vSet else vSet ++ [.conUp sCon]

/-- What the shell is given. -/
def shellLines (pipe : Pipe) (c : Config) (jsBody : Json) : List String :=
  match networkApply pipe c jsBody with
  | .ok x => x.2
  | .error _ => []

/-- What a request should run, nothing if it is refused. -/
def intended (pipe : Pipe) (c : Config) (jsBody : Json) : List Nmcli :=
  match networkRequest jsBody with
  | .error _ => []
  | .ok r =>
    match checkRequest c r with
    | .error _ => []
    | .ok nRole => plan pipe r nRole

/-- The shell reads every line as the one command that is intended. -/
def OnlyIntended (pipe : Pipe) (c : Config) (jsBody : Json) : Prop :=
  (shellLines pipe c jsBody).map readLine = (intended pipe c jsBody).map fun x => some x.command

/-- A request that passes the checks has no terminator in what goes into a line. -/
def Unterminated (c : Config) (jsBody : Json) : Prop :=
  ∀ r nRole, networkRequest jsBody = .ok r → checkRequest c r = .ok nRole →
    '\x00' ∉ r.sIf.toList ∧ (r.sMethod = "static" → '\x00' ∉ r.sAddress.toList ∧ '\x00' ∉ r.sGateway.toList)

variable {pipe : Pipe} {c : Config} {r : NetworkRequest} {nRole : Nat}

/-- What the checks have established. -/
structure Checked (r : NetworkRequest) : Prop where
  interface : '\'' ∉ r.sIf.toList
  method : r.sMethod ≠ "dhcp" → r.sMethod = "static"
  address : r.sMethod = "static" → '\'' ∉ cString r.sAddress.toList
  gateway : '\'' ∉ cString r.sGateway.toList

/-- A request that is accepted has passed every check. -/
theorem passed_of_checkRequest (h : checkRequest c r = .ok nRole) :
    safeShellArg r.sIf ∧ (r.sMethod ≠ "dhcp" → r.sMethod = "static") ∧
      (r.sMethod = "static" → validIp4 r.sAddress true) ∧ (r.sGateway ≠ "" → validIp4 r.sGateway false) := by
  simp only [checkRequest] at h
  split at h
  · cases h
  next hif =>
  split at h
  · cases h
  next hmethod =>
  split at h
  · cases h
  next haddress =>
  split at h
  · cases h
  next hgateway =>
  rw [not_or, not_or, not_not] at hif
  rw [not_and_not_right] at hmethod haddress hgateway
  exact ⟨hif.2.2, hmethod, haddress, hgateway⟩

theorem checked_of_checkRequest (h : checkRequest c r = .ok nRole) : Checked r := by
  obtain ⟨hif, hmethod, haddress, hgateway⟩ := passed_of_checkRequest h
  refine ⟨not_mem_of_safeShellArg hif, hmethod, fun hstatic => not_mem_of_validIp4 (haddress hstatic), ?_⟩
  by_cases hempty : r.sGateway = ""
  · rw [hempty]
    decide
  · exact not_mem_of_validIp4 (hgateway hempty)

theorem Argument.checked {s : String} (hquote : '\'' ∉ cString s.toList) (hnul : '\x00' ∉ s.toList) : Argument s := by
  rw [cString_of_not_mem hnul] at hquote
  exact ⟨hquote, hnul⟩

/-- The lines of a checked request, of which the shell reads every one as intended. -/
theorem readLine_applyNetwork (pipe : Pipe) (nRole : Nat) (h : Checked r) (hIf : '\x00' ∉ r.sIf.toList)
    (hstatic : r.sMethod = "static" → '\x00' ∉ r.sAddress.toList ∧ '\x00' ∉ r.sGateway.toList) :
    (applyNetwork pipe r nRole).2.map readLine = (plan pipe r nRole).map fun x => some x.command := by
  have hIf : Argument r.sIf := ⟨h.interface, hIf⟩
  have hCon := argument_chosenProfile pipe r.sIf nRole
  have hmod : readLine (piped (conMod (chosenProfile (deviceProfile pipe r.sIf) nRole) r)) =
      some (Nmcli.command (if r.sMethod = "dhcp" then .conModAuto (chosenProfile (deviceProfile pipe r.sIf) nRole)
        else .conModManual (chosenProfile (deviceProfile pipe r.sIf) nRole) r.sAddress r.sGateway)) := by
    by_cases hdhcp : r.sMethod = "dhcp"
    · rw [readLine_conMod_dhcp hdhcp hCon, if_pos hdhcp]
    · have hnul := hstatic (h.method hdhcp)
      rw [readLine_conMod_static hdhcp hCon (.checked (h.address (h.method hdhcp)) hnul.1) (.checked h.gateway hnul.2),
        if_neg hdhcp]
  have hadd := readLine_conAdd hIf hCon
  unfold applyNetwork plan
  dsimp only
  by_cases hsafe : safeShellArg (deviceProfile pipe r.sIf) = true
  · rw [if_pos hsafe, if_pos hsafe]
    split <;> simp [readLine_deviceShow hIf, hmod, readLine_conUp hCon]
  · rw [if_neg hsafe, if_neg hsafe]
    split <;> simp [readLine_deviceShow hIf, hmod, hadd, readLine_conUp hCon]

theorem onlyIntended_of_error {jsBody : Json} (h : ∀ r nRole, networkRequest jsBody = .ok r → checkRequest c r ≠ .ok nRole) :
    OnlyIntended pipe c jsBody := by
  cases hr : networkRequest jsBody with
  | error e => rw [OnlyIntended, shellLines, intended, networkApply, hr]; rfl
  | ok r =>
    cases hcheck : checkRequest c r with
    | error s => simp [OnlyIntended, shellLines, intended, networkApply, hr, hcheck, bind, Except.bind, pure, Except.pure]
    | ok nRole => exact absurd hcheck (h r nRole hr)

theorem onlyIntended_of_ok {jsBody : Json} (hr : networkRequest jsBody = .ok r) (hcheck : checkRequest c r = .ok nRole) :
    OnlyIntended pipe c jsBody ↔
      (applyNetwork pipe r nRole).2.map readLine = (plan pipe r nRole).map fun x => some x.command := by
  simp [OnlyIntended, shellLines, intended, networkApply, hr, hcheck, bind, Except.bind, pure, Except.pure]

/-- A line with a terminator inside an argument is not read at all. -/
theorem not_onlyIntended_of_line {jsBody : Json} (hr : networkRequest jsBody = .ok r) (hcheck : checkRequest c r = .ok nRole)
    {sLine : String} (hline : sLine ∈ (applyNetwork pipe r nRole).2) (hnone : readLine sLine = none) :
    ¬ OnlyIntended pipe c jsBody := by
  rw [onlyIntended_of_ok hr hcheck]
  intro h
  have hmem := List.mem_map_of_mem (f := readLine) hline
  rw [h, hnone] at hmem
  obtain ⟨x, -, hx⟩ := List.mem_map.mp hmem
  cases hx

theorem mem_applyNetwork_deviceShow (pipe : Pipe) (r : NetworkRequest) (nRole : Nat) :
    piped (deviceShow r.sIf) ∈ (applyNetwork pipe r nRole).2 := by
  unfold applyNetwork
  dsimp only
  split <;> simp

theorem mem_applyNetwork_conMod (pipe : Pipe) (r : NetworkRequest) (nRole : Nat) :
    piped (conMod (chosenProfile (deviceProfile pipe r.sIf) nRole) r) ∈ (applyNetwork pipe r nRole).2 := by
  unfold applyNetwork
  dsimp only
  split <;> simp

theorem onlyIntended_iff (pipe : Pipe) (c : Config) (jsBody : Json) : OnlyIntended pipe c jsBody ↔ Unterminated c jsBody := by
  constructor
  · intro h r nRole hr hcheck
    have hchecked := checked_of_checkRequest hcheck
    have hCon := argument_chosenProfile pipe r.sIf nRole
    constructor
    · intro hnul
      exact not_onlyIntended_of_line hr hcheck (mem_applyNetwork_deviceShow pipe r nRole)
        (readLine_deviceShow_of_mem hnul hchecked.interface) h
    · intro hstatic
      have hdhcp : r.sMethod ≠ "dhcp" := by
        rw [hstatic]
        decide
      have haddress : '\x00' ∉ r.sAddress.toList := by
        intro hnul
        exact not_onlyIntended_of_line hr hcheck (mem_applyNetwork_conMod pipe r nRole)
          (readLine_conMod_address hdhcp hCon hnul (hchecked.address hstatic)) h
      refine ⟨haddress, fun hnul => ?_⟩
      have hAddress : Argument r.sAddress := .checked (hchecked.address hstatic) haddress
      exact not_onlyIntended_of_line hr hcheck (mem_applyNetwork_conMod pipe r nRole)
        (readLine_conMod_gateway hdhcp hCon hAddress hnul hchecked.gateway) h
  · intro h
    by_cases haccepted : ∃ r nRole, networkRequest jsBody = .ok r ∧ checkRequest c r = .ok nRole
    · obtain ⟨r, nRole, hr, hcheck⟩ := haccepted
      obtain ⟨hIf, hstatic⟩ := h r nRole hr hcheck
      exact (onlyIntended_of_ok hr hcheck).mpr (readLine_applyNetwork pipe nRole (checked_of_checkRequest hcheck) hIf hstatic)
    · exact onlyIntended_of_error fun r nRole hr hcheck => haccepted ⟨r, nRole, hr, hcheck⟩

/-- The check stops at the terminator, and so does the shell, inside the quotes. -/
theorem not_onlyIntended_terminator : ¬ ∀ pipe c jsBody, OnlyIntended pipe c jsBody := by
  intro h
  have hr : networkRequest (.obj [("address", .str "10.0.0.2/24\x00"), ("interface", .str "eth0"),
      ("method", .str "static")]) = .ok ⟨"eth0", "static", "10.0.0.2/24\x00", ""⟩ := rfl
  have hcheck : checkRequest {} ⟨"eth0", "static", "10.0.0.2/24\x00", ""⟩ = .ok 0 := by decide +kernel
  have hline := mem_applyNetwork_conMod (fun _ => []) ⟨"eth0", "static", "10.0.0.2/24\x00", ""⟩ 0
  have hnul : '\x00' ∈ "10.0.0.2/24\x00".toList := by decide
  have hnone := not_onlyIntended_of_line hr hcheck hline
    (readLine_conMod_address (by decide) (argument_chosenProfile (fun _ => []) "eth0" 0) hnul (by decide))
  exact hnone (h _ _ _)

end Network

end PiAudioNode.Web
