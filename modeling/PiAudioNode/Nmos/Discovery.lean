import PiAudioNode.Lib.Cut
import PiAudioNode.Lib.KeepFirst
import PiAudioNode.Nmos.TxtStrings

/-! How the node finds its registries: the search domains are asked for instances of the
registration service, every instance for its host, its port and its properties. -/
namespace PiAudioNode.Nmos
open Lib

/-- What the resolver library makes of a query: the octets of the answer, the records in
it, and the name at an address where there is one. -/
structure DnsAnswer where
  answer : Nat → Byte := fun _ => 0
  msg : Option (List (Option ResourceRecord)) := none
  uncompress : Nat → Option (List Char) := fun _ => none

/-- The names as they are asked for, by the type of record. -/
abbrev Resolver := List Char → BitVec 16 → DnsAnswer

def typePtr : BitVec 16 := 12
def typeSrv : BitVec 16 := 33

structure SrvResult where
  sTarget : List Char := []
  nPort : BitVec 16 := 0
  deriving DecidableEq

structure RegistryEntry where
  sUrl : List Char := []
  nPriority : Int := 100
  sApiVersions : List Char := []
  deriving DecidableEq

/-- The domains of a resolver configuration. -/
def searchDomains (sConfig : List Char) : List (List Char) :=
  (sConfig.splitOn '\n').flatMap fun sLine =>
    match words sLine with
    | sKey :: vDomains => if sKey = "search".toList ∨ sKey = "domain".toList then vDomains else []
    | [] => []

/-- The records of an answer that parse and are of a type. -/
def DnsAnswer.records (a : DnsAnswer) (nType : BitVec 16) : List ResourceRecord :=
  (a.msg.getD []).filterMap fun
    | some rr => if rr.nType = nType then some rr else none
    | none => none

def queryPtr (r : Resolver) (sName : List Char) : List (List Char) :=
  let a := r sName typePtr
  (a.records typePtr).filterMap fun rr => a.uncompress rr.pData

/-- The first service record decides. -/
def querySrv (r : Resolver) (sName : List Char) : SrvResult :=
  let a := r sName typeSrv
  match a.records typeSrv with
  | rr :: _ => { sTarget := (a.uncompress (rr.pData + 6)).getD [], nPort := a.answer (rr.pData + 4) ++ a.answer (rr.pData + 5) }
  | [] => {}

/-- Octets as characters. -/
def text (sText : Bytes) : List Char := sText.map fun c => Char.ofNat c.toNat

def queryTexts (r : Resolver) (sName : List Char) : List (List Char) :=
  let a := r sName typeTxt
  ((queryTxt a.answer a.msg).getD []).map text

/-- What the properties of an instance set, the last of a kind. -/
structure Properties where
  nPriority : Int := 100
  sProto : List Char := "http".toList
  sApiVersions : List Char := []

def readProperty (p : Properties) (sTxt : List Char) : Properties :=
  let p := match stripPrefix "pri=".toList sTxt with
    | some sValue => { p with nPriority := atoi sValue }
    | none => p
  let p := match stripPrefix "api_proto=".toList sTxt with
    | some sValue => { p with sProto := sValue }
    | none => p
  match stripPrefix "api_ver=".toList sTxt with
  | some sValue => { p with sApiVersions := sValue }
  | none => p

def properties (r : Resolver) (sInstance : List Char) : Properties := (queryTexts r sInstance).foldl readProperty {}

/-- A name without the dot of the root. -/
def withoutRoot (sTarget : List Char) : List Char := if sTarget.getLast? = some '.' then sTarget.dropLast else sTarget

def registryUrl (sProto sHost : List Char) (nPort : BitVec 16) : List Char :=
  sProto ++ ("://".toList ++ (sHost ++ ':' :: decimal nPort.toNat))

/-- The registry that an instance stands for, if it tells its host and its port. -/
def registryOf (r : Resolver) (sInstance : List Char) : Option RegistryEntry :=
  let srv := querySrv r sInstance
  if srv.sTarget = [] ∨ srv.nPort = 0 then none
  else
    let p := properties r sInstance
    some
      { sUrl := registryUrl p.sProto (withoutRoot srv.sTarget) srv.nPort
        nPriority := p.nPriority
        sApiVersions := p.sApiVersions }

def services : List (List Char) := ["_nmos-register._tcp.".toList, "_nmos-registration._tcp.".toList]

/-- The loops over the domains, the services and the instances. -/
def collectRegistries (r : Resolver) (vDomains : List (List Char)) : List RegistryEntry :=
  vDomains.foldl (fun vRegistries sDomain =>
    services.foldl (fun vRegistries sService =>
      (queryPtr r (sService ++ sDomain)).foldl (fun vRegistries sInstance =>
        match registryOf r sInstance with
        | some entry => keepNew RegistryEntry.sUrl vRegistries entry
        | none => vRegistries) vRegistries) vRegistries) []

/-- A sort by priority that promises nothing about equals. -/
structure PrioritySort where
  sort : List RegistryEntry → List RegistryEntry
  perm : ∀ v, (sort v).Perm v
  sorted : ∀ v, (sort v).Pairwise fun a b => a.nPriority ≤ b.nPriority

def discoverRegistries (sort : PrioritySort) (r : Resolver) (sConfig : List Char) : List RegistryEntry :=
  sort.sort (collectRegistries r (searchDomains sConfig))

section Discovery
variable {r : Resolver} {vDomains : List (List Char)} {entry : RegistryEntry}

/-- An instance of the service in one of the domains tells of a registry. -/
def AnnouncesRegistry (r : Resolver) (vDomains : List (List Char)) (entry : RegistryEntry) : Prop :=
  ∃ sDomain ∈ vDomains, ∃ sService ∈ services, ∃ sInstance ∈ queryPtr r (sService ++ sDomain),
    registryOf r sInstance = some entry

/-- All that is announced, in the order of the search. -/
def offers (r : Resolver) (vDomains : List (List Char)) : List RegistryEntry :=
  vDomains.flatMap fun sDomain => services.flatMap fun sService =>
    (queryPtr r (sService ++ sDomain)).filterMap (registryOf r)

theorem mem_offers_iff : entry ∈ offers r vDomains ↔ AnnouncesRegistry r vDomains entry := by
  rw [offers, List.mem_flatMap]
  refine exists_congr fun sDomain => and_congr_right fun _ => ?_
  rw [List.mem_flatMap]
  refine exists_congr fun sService => and_congr_right fun _ => ?_
  rw [List.mem_filterMap]

/-- The loops keep of every address the first offer. -/
theorem collectRegistries_eq (r : Resolver) (vDomains : List (List Char)) :
    collectRegistries r vDomains = keepFirst RegistryEntry.sUrl (offers r vDomains) := by
  have hinstances (vRegistries : List RegistryEntry) (vInstances : List (List Char)) :
      vInstances.foldl (fun vRegistries sInstance =>
        match registryOf r sInstance with
        | some entry => keepNew RegistryEntry.sUrl vRegistries entry
        | none => vRegistries) vRegistries =
      (vInstances.filterMap (registryOf r)).foldl (keepNew RegistryEntry.sUrl) vRegistries := by
    rw [List.foldl_filterMap]
    congr 1
    funext vKept sInstance
    cases registryOf r sInstance with
    | none => rfl
    | some entry => rfl
  simp only [collectRegistries, hinstances, keepFirst, offers, List.foldl_flatMap]

/-- What a discovery owes: the best first, no address twice, and of everything announced
under an address the entry that was found first. -/
structure Discovers (r : Resolver) (vDomains : List (List Char)) (vRegistries : List RegistryEntry) : Prop where
  sorted : vRegistries.Pairwise fun a b => a.nPriority ≤ b.nPriority
  distinct : (vRegistries.map RegistryEntry.sUrl).Nodup
  announced : ∀ entry ∈ vRegistries, AnnouncesRegistry r vDomains entry
  complete : ∀ entry, AnnouncesRegistry r vDomains entry → ∃ found ∈ vRegistries, found.sUrl = entry.sUrl
  first : ∀ entry ∈ vRegistries, ∃ pre post, offers r vDomains = pre ++ entry :: post ∧
    entry.sUrl ∉ pre.map RegistryEntry.sUrl

end Discovery

section Url

structure UrlParts where
  sHost : List Char
  nPort : Int := 80
  sPath : List Char
  deriving DecidableEq

/-- A URL as a request takes it apart. -/
def parseUrl (sUrl : List Char) : Option UrlParts :=
  (cut "://".toList sUrl).map fun x =>
    let sHostPort := x.2.takeWhile (· ≠ '/')
    let sPath := if '/' ∈ x.2 then x.2.dropWhile (· ≠ '/') else ['/']
    match cut [':'] sHostPort with
    | some y => { sHost := y.1, nPort := atoi y.2, sPath }
    | none => { sHost := sHostPort, sPath }

/-- The registry's address is one that a request finds again. -/
structure Addressable (sProto sHost : List Char) : Prop where
  proto : ¬ "://".toList <:+: sProto
  host : '/' ∉ sHost ∧ ':' ∉ sHost

variable {sProto sHost sPath : List Char} {nPort : BitVec 16}

theorem unbordered_scheme : Unbordered "://".toList := by decide

theorem takeWhile_append_cons {c : Char} {front : List Char} (rest : List Char) (h : c ∉ front) :
    (front ++ c :: rest).takeWhile (· ≠ c) = front ∧ (front ++ c :: rest).dropWhile (· ≠ c) = c :: rest := by
  have hall : ∀ d ∈ front, decide (d ≠ c) = true := by
    intro d hd
    exact decide_eq_true fun heq => h (heq ▸ hd)
  rw [List.takeWhile_append_of_pos hall, List.dropWhile_append_of_pos hall]
  simp

theorem not_mem_decimal {c : Char} (hc : ¬ c.isDigit) (n : Nat) : c ∉ decimal n := by
  intro hmem
  rw [decimal, if_neg (by omega), Int.natAbs_natCast] at hmem
  exact hc (isDigit_toDigits hmem)

theorem not_mem_authority (h : '/' ∉ sHost) : '/' ∉ sHost ++ ':' :: decimal nPort.toNat := by
  rw [List.mem_append, List.mem_cons]
  rintro (hslash | hslash | hslash)
  · exact h hslash
  · cases hslash
  · exact not_mem_decimal (by decide) _ hslash

/-- Behind the scheme, up to the first slash, stand the host and the port. -/
theorem parseUrl_registryUrl (h : Addressable sProto sHost) (sTail : List Char) :
    parseUrl (registryUrl sProto sHost nPort ++ '/' :: sTail) =
      some { sHost, nPort := nPort.toNat, sPath := '/' :: sTail } := by
  have hport : nPort.toNat < 2 ^ 16 := nPort.isLt
  have hsplit : registryUrl sProto sHost nPort ++ '/' :: sTail =
      sProto ++ ("://".toList ++ (sHost ++ ':' :: decimal nPort.toNat ++ '/' :: sTail)) := by
    simp only [registryUrl, List.append_assoc]
  have hauthority : '/' ∉ sHost ++ ':' :: decimal nPort.toNat := not_mem_authority h.host.1
  obtain ⟨htake, hdrop⟩ := takeWhile_append_cons sTail hauthority
  have hslash : '/' ∈ sHost ++ ':' :: decimal nPort.toNat ++ '/' :: sTail := by simp
  have hcolon : cut [':'] (sHost ++ ([':'] ++ decimal nPort.toNat)) = some (sHost, decimal nPort.toNat) := by
    refine (cut_append_iff (by decide) (by decide)).mpr ?_
    rintro ⟨pre, suf, heq⟩
    exact h.host.2 (by rw [← heq]; simp)
  rw [hsplit, parseUrl, (cut_append_iff unbordered_scheme (by decide)).mpr h.proto, Option.map_some]
  dsimp only
  rw [htake, hdrop, if_pos hslash]
  simp only [List.singleton_append] at hcolon
  rw [hcolon]
  dsimp only
  rw [atoi_decimal (by omega) (by omega)]

/-- The path begins at the first slash. -/
theorem length_path_le {c : Char} (front rest : List Char) :
    rest.length < ((front ++ c :: rest).dropWhile (· ≠ c)).length := by
  induction front with
  | nil => simp
  | cons d front ih =>
    rw [List.cons_append]
    by_cases hd : d = c
    · subst hd
      rw [List.dropWhile_cons_of_neg (by simp)]
      simp only [List.length_cons, List.length_append]
      omega
    · rw [List.dropWhile_cons_of_pos (by simpa using hd)]
      exact ih

theorem parseUrl_sPath {sUrl sFront sRest : List Char} {parts : UrlParts} (hcut : cut "://".toList sUrl = some (sFront, sRest))
    (hparse : parseUrl sUrl = some parts) (hslash : '/' ∈ sRest) :
    parts.sPath = sRest.dropWhile (· ≠ '/') := by
  rw [parseUrl, hcut, Option.map_some] at hparse
  dsimp only at hparse
  rw [if_pos hslash] at hparse
  split at hparse
  · cases hparse
    rfl
  · cases hparse
    rfl

/-- The first separator is not behind one that stands in the text. -/
theorem cut_le {sText sFront sRest pre post : List Char} (hcut : cut sText (pre ++ (sText ++ post)) = some (sFront, sRest)) :
    (sText ++ post).length ≤ (sText ++ sRest).length := by
  obtain ⟨hsplit, hfirst⟩ := cut_eq_some_iff.mp hcut
  by_contra hlonger
  have hlengths := congrArg List.length hsplit
  simp only [List.length_append] at hlengths hlonger
  have hbegins : sFront <+: pre ++ (sText ++ post) := by
    rw [hsplit]
    exact List.prefix_append _ _
  have hpre : pre <+: sFront := List.prefix_of_prefix_length_le (List.prefix_append _ _) hbegins (by omega)
  obtain ⟨suf, rfl⟩ := hpre
  rw [List.append_assoc] at hsplit
  refine hfirst pre suf rfl ?_ ?_
  · rintro rfl
    rw [List.append_nil] at hlengths
    omega
  · rw [← List.append_cancel_left hsplit]
    exact List.prefix_append _ _

/-- What is before a character has none of it. -/
theorem not_mem_of_cut {c : Char} {cs : List Char} {x : List Char × List Char} (hcut : cut [c] cs = some x) : c ∉ x.1 := by
  intro hmem
  obtain ⟨pre, suf, hsplit⟩ := List.append_of_mem hmem
  exact (cut_eq_some_iff.mp hcut).2 pre (c :: suf) hsplit (List.cons_ne_nil _ _) ⟨_, rfl⟩

/-- The text of a request to a registry, with its path. -/
theorem registryUrl_append (sProto sHost sPath : List Char) (nPort : BitVec 16) :
    registryUrl sProto sHost nPort ++ sPath =
      sProto ++ ("://".toList ++ (sHost ++ (':' :: decimal nPort.toNat ++ sPath))) := by
  simp only [registryUrl, List.append_assoc, List.cons_append]

/-- Nothing of the scheme ends up in the path. -/
theorem proto_of_parseUrl {sTail : List Char}
    (hparse : parseUrl (registryUrl sProto sHost nPort ++ '/' :: sTail) =
      some { sHost, nPort := nPort.toNat, sPath := '/' :: sTail }) : ¬ "://".toList <:+: sProto := by
  rintro ⟨pre, suf, rfl⟩
  obtain ⟨⟨sFront, sRest⟩, hcut, -⟩ := Option.map_eq_some_iff.mp hparse
  have hurl : registryUrl (pre ++ "://".toList ++ suf) sHost nPort ++ '/' :: sTail =
      pre ++ ("://".toList ++ (suf ++ ("://".toList ++ (sHost ++ (':' :: decimal nPort.toNat ++ '/' :: sTail))))) := by
    rw [registryUrl_append, List.append_assoc, List.append_assoc]
  have hlength := cut_le (hurl ▸ hcut)
  obtain ⟨hsplit, -⟩ := cut_eq_some_iff.mp hcut
  -- what is behind the cut ends with the scheme's own separator and the rest
  have hends : ("://".toList ++ (sHost ++ (':' :: decimal nPort.toNat ++ '/' :: sTail))) <:+
      registryUrl (pre ++ "://".toList ++ suf) sHost nPort ++ '/' :: sTail := by
    rw [hurl]
    exact ⟨pre ++ "://".toList ++ suf, by simp only [List.append_assoc]⟩
  have hrest : sRest <:+ registryUrl (pre ++ "://".toList ++ suf) sHost nPort ++ '/' :: sTail := by
    rw [hsplit]
    exact ⟨sFront ++ "://".toList, by simp only [List.append_assoc]⟩
  have hsuffix : ("://".toList ++ (sHost ++ (':' :: decimal nPort.toNat ++ '/' :: sTail))) <:+ sRest := by
    apply List.suffix_of_suffix_length_le hends hrest
    simp only [List.length_append] at hlength ⊢
    omega
  obtain ⟨front, hrest⟩ := hsuffix
  have hscheme : "://".toList = [':', '/'] ++ ['/'] := by decide
  have hslashed : sRest = (front ++ [':']) ++ '/' :: ('/' :: (sHost ++ (':' :: decimal nPort.toNat ++ '/' :: sTail))) := by
    rw [← hrest, hscheme]
    simp only [List.append_assoc, List.cons_append, List.nil_append]
  have hpath := parseUrl_sPath hcut hparse (by rw [hslashed]; simp)
  have hlong := length_path_le (c := '/') (front ++ [':']) ('/' :: (sHost ++ (':' :: decimal nPort.toNat ++ '/' :: sTail)))
  rw [← hslashed, ← hpath] at hlong
  simp only [List.length_cons, List.length_append] at hlong
  omega

/-- A host is read to the end of its name. -/
theorem host_of_parseUrl {sTail : List Char} (hproto : ¬ "://".toList <:+: sProto)
    (hparse : parseUrl (registryUrl sProto sHost nPort ++ '/' :: sTail) =
      some { sHost, nPort := nPort.toNat, sPath := '/' :: sTail }) : '/' ∉ sHost ∧ ':' ∉ sHost := by
  have hcut : cut "://".toList (sProto ++ ("://".toList ++ (sHost ++ (':' :: decimal nPort.toNat ++ '/' :: sTail)))) =
      some (sProto, sHost ++ (':' :: decimal nPort.toNat ++ '/' :: sTail)) :=
    (cut_append_iff unbordered_scheme (by decide)).mpr hproto
  rw [registryUrl_append] at hparse
  have hpath := parseUrl_sPath hcut hparse (by simp)
  have hslash : '/' ∉ sHost := by
    intro hmem
    obtain ⟨a, b, rfl⟩ := List.append_of_mem hmem
    have hlong := length_path_le (c := '/') a (b ++ (':' :: decimal nPort.toNat ++ '/' :: sTail))
    rw [List.append_assoc, List.cons_append] at hpath
    rw [← hpath] at hlong
    simp only [List.length_cons, List.length_append] at hlong
    omega
  refine ⟨hslash, fun hcolon => ?_⟩
  have hauthority : '/' ∉ sHost ++ ':' :: decimal nPort.toNat := not_mem_authority hslash
  obtain ⟨htake, -⟩ := takeWhile_append_cons sTail hauthority
  rw [List.append_assoc] at htake
  rw [parseUrl, hcut, Option.map_some] at hparse
  dsimp only at hparse
  rw [htake] at hparse
  split at hparse
  · rename_i y hy
    have hhost : y.1 = sHost := congrArg UrlParts.sHost (Option.some.inj hparse)
    rw [← hhost] at hcolon
    exact not_mem_of_cut hy hcolon
  · have hhost : sHost ++ ':' :: decimal nPort.toNat = sHost := congrArg UrlParts.sHost (Option.some.inj hparse)
    simp at hhost

/-- A request to a discovered registry goes to the host and the port that were announced,
with its own path, just when the scheme and the host leave the separators alone. -/
theorem parseUrl_registryUrl_iff (sProto sHost : List Char) (nPort : BitVec 16) (sTail : List Char) :
    parseUrl (registryUrl sProto sHost nPort ++ '/' :: sTail) =
      some { sHost, nPort := nPort.toNat, sPath := '/' :: sTail } ↔ Addressable sProto sHost := by
  constructor
  · intro hparse
    have hproto := proto_of_parseUrl hparse
    exact ⟨hproto, host_of_parseUrl hproto hparse⟩
  · exact fun h => parseUrl_registryUrl h sTail

end Url

end PiAudioNode.Nmos
