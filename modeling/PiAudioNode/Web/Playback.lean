import PiAudioNode.Audio.Files
import PiAudioNode.Rtp.EndToEnd
import PiAudioNode.StartUp
import PiAudioNode.Web.Files

/-! From an upload to what is heard of it: the file that a request leaves is the one that
the settings name, and its frames are what the sender reads. -/
namespace PiAudioNode.Web
open Lib Lib.Json Audio Rtp
variable {α β : Type*} [Zero α] [Zero β]

/-- The settings name a file of the directory, and those beside them have their types. -/
structure SelectsFile (jsSender : Json) (sName : String) (bLoop : Bool) : Prop where
  source : jsSender.value getString "source" "tone" = .ok "file"
  level : ∃ dLevel, jsSender.value getReal "tone_level_db" (-18) = .ok dLevel
  file : jsSender.value getString "file" "" = .ok sName
  loop : jsSender.value getBool "loop" true = .ok bLoop

/-- The source that the settings choose, with the samples that its file gives. -/
structure Chooses (d : Codecs α β) (s : FileServer β) (jsSender : Json) (pSource : MemorySource α) : Prop where
  chosen : createFromConfig (d.readable s.disk s.cwd) jsSender s.sFilesDir =
    .ok (.memory pSource.sDescription pSource.bLoop)
  opened : d.openFile s.disk s.cwd (filePath s.sFilesDir pSource.sDescription) pSource.bLoop = some pSource

section Choice
variable {s : FileServer β} {sName : String}

omit [Zero β] in
theorem filePath_name (s : FileServer β) (hname : '/' ∉ sName.toList) (hne : sName.toList ≠ []) :
    filePath s.sFilesDir sName = s.sFilesDir ++ "/" ++ sName := by
  apply if_pos
  refine ⟨?_, hname⟩
  rintro rfl
  exact hne rfl

theorem fileName_join (sDir : String) (hname : '/' ∉ sName.toList) : fileName (sDir ++ "/" ++ sName) = sName := by
  have hpath : (sDir ++ "/" ++ sName).toList.reverse = sName.toList.reverse ++ '/' :: sDir.toList.reverse := by
    simp [String.toList_append]
  have hall : ∀ c ∈ sName.toList.reverse, decide (c ≠ '/') = true := by
    intro c hc
    refine decide_eq_true ?_
    rintro rfl
    exact hname (List.mem_reverse.mp hc)
  rw [fileName, hpath, List.takeWhile_append_of_pos hall, List.takeWhile_cons_of_neg (by simp), List.append_nil,
    List.reverse_reverse, String.ofList_toList]

omit [Zero β] in
theorem chooses_of_lookup {d : Codecs α β} {jsSender : Json} {bLoop : Bool} {vBody : List β} {vSamples : List α}
    (hname : '/' ∉ sName.toList) (hentry : IsEntry sName.toList) (hselects : SelectsFile jsSender sName bLoop)
    (hfile : s.disk.files.lookup (s.dir, sName.toList) = some vBody)
    (hload : d.load (s.sFilesDir ++ "/" ++ sName) vBody = some vSamples) :
    Chooses d s jsSender ⟨vSamples, sName, bLoop, 0⟩ := by
  have hpath : filePath s.sFilesDir sName = s.sFilesDir ++ "/" ++ sName := filePath_name s hname hentry.1
  have hread : s.disk.read s.cwd (s.sFilesDir ++ "/" ++ sName).toList = some vBody := by
    rw [Disk.read, ← FileServer.place, place_of_name s hname]
    exact hfile
  have hopened : d.openFile s.disk s.cwd (filePath s.sFilesDir sName) bLoop = some ⟨vSamples, sName, bLoop, 0⟩ := by
    rw [hpath, Codecs.openFile, hread, Option.bind_some, hload, Option.map_some, fileName_join _ hname]
  refine ⟨?_, hopened⟩
  obtain ⟨dLevel, hlevel⟩ := hselects.level
  rw [createFromConfig_eq, hselects.source, hlevel]
  refine bind_eq_ok.mpr ⟨_, rfl, bind_eq_ok.mpr ⟨_, rfl, ?_⟩⟩
  rw [if_neg (by decide), if_pos rfl, hselects.file, hselects.loop]
  refine bind_eq_ok.mpr ⟨_, rfl, bind_eq_ok.mpr ⟨_, rfl, ?_⟩⟩
  rw [d.createFile_readable, hopened]
  rfl

end Choice

section Journey
variable {d : Codecs α β} {s : FileServer β} {w : Worker} {sUri sName : String} {es later : List (FileEvent β)}
  {jsSender : Json} {bLoop : Bool} {nRate : Nat} {frames : List (List α)}

/-- What an upload leads to, once it is complete. -/
structure Broadcasts (d : Codecs α β) (s : FileServer β) (jsSender : Json) (sName : String) (bLoop : Bool)
    (vAudio : List α) : Prop where
  listed : IsAudio sName.toList → sName.toList ∈ s.listing
  chooses : Chooses d s jsSender ⟨vAudio, sName, bLoop, 0⟩
  heard : ∀ (e : SendEngine α (MemorySource α)), e.read = MemorySource.read → ∀ stats xs cfg r rx,
    CarriesL24 cfg.session → Carried (e.runLoop ⟨vAudio, sName, bLoop, 0⟩ stats xs).2 rx →
      PlaysSent e (MemorySource.ideal vAudio bLoop) (departed (e.runLoop ⟨vAudio, sName, bLoop, 0⟩ stats xs).2) cfg r rx

end Journey

section Example

/-- A WAV file of one channel at 48 kHz: two samples of 16 bits behind 44 bytes of header. -/
def shortWav : List (BitVec 8) :=
  [0x52, 0x49, 0x46, 0x46, 40, 0, 0, 0, 0x57, 0x41, 0x56, 0x45, 0x66, 0x6D, 0x74, 0x20, 16, 0, 0, 0, 1, 0, 1, 0, 0x80,
    0xBB, 0, 0, 0, 0x77, 1, 0, 2, 0, 16, 0, 0x64, 0x61, 0x74, 0x61, 4, 0, 0, 0, 0, 0x40, 0, 0xC0]

/-- Decoders as they are on that file. -/
def shortCodecs : Codecs ℚ (BitVec 8) where
  mp3 _ := none
  wav vBytes := if vBytes = shortWav then some ⟨1, 48000, 2, [1 / 2, -1 / 2]⟩ else none
  srcSimple _ _ := none
  fromPcm nSample := nSample.toInt / 32768

/-- Two pieces of the body, with a look at the directory between them. -/
def shortUpload : List (FileEvent (BitVec 8)) :=
  [.receive 0 (shortWav.take 44), .request 1 "/api/files" "GET" true, .pass 0 30, .receive 0 (shortWav.drop 44)]

def shortSettings : Json := .obj [("file", .str "a.wav"), ("source", .str "file")]

theorem fresh_starts : (FileServer.fresh : FileServer (BitVec 8)).Starts 0 "/api/files/a.wav" "a.wav" where
  idle := rfl
  puts := rfl
  writable := by decide
  alone w' hwrites := by cases hwrites

theorem shortCodecs_decodes : shortCodecs.Decodes "/root/audio-files/a.wav" (FileServer.received 0 shortUpload) 48000
    [[1 / 2], [-1 / 2]] where
  whole := by
    refine ⟨1, Nat.one_pos, by simp, ?_⟩
    have hbody : FileServer.received 0 shortUpload = shortWav := by decide
    rw [if_neg (by decide), hbody]
    rfl

theorem shortUpload_alone : ∀ e ∈ shortUpload ++ [.request 0 "/api/files/b.wav" "PUT" true], e.uploads ≠ some "a.wav" := by
  simp only [shortUpload, List.cons_append, List.nil_append, List.forall_mem_cons]
  refine ⟨by decide, by decide, by decide, by decide, by decide, ?_⟩
  intro e hmem
  cases hmem

end Example

end PiAudioNode.Web
