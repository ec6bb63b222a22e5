import PiAudioNode.Lib.Access

/-! The audio sources a sender can be configured with, as far as they are named. -/
namespace PiAudioNode.Audio
open Lib Lib.Json

inductive Source where
  | tone (dFrequency dLevelDb : ℚ)
  | sweep (dLevelDb : ℚ)
  | memory (sDescription : String) (bLoop : Bool)

def Source.describe : Source → String
  | .tone dFrequency _ => "tone " ++ toString (dFrequency.num.tdiv dFrequency.den) ++ " Hz"
  | .sweep _ => "sweep 20 Hz - 20 kHz"
  | .memory sDescription _ => sDescription

/-- The part of a path after its last slash. -/
def fileName (sPath : String) : String := String.ofList (sPath.toList.reverse.takeWhile (· ≠ '/')).reverse

/-- A file source, where the file can be opened and decoded. -/
def createFile (bReadable : String → Bool) (sPath : String) (bLoop : Bool) : Option Source :=
  if bReadable sPath then some (.memory (fileName sPath) bLoop) else none

/-- A file that cannot be read falls back to the tone. -/
def createFromConfig (bReadable : String → Bool) (jsSender : Json) (sFilesDir : String) : Except JsonError Source := do
  let sSource ← jsSender.value getString "source" "tone"
  let dLevel ← jsSender.value getReal "tone_level_db" (-18)
  if sSource = "sweep" then return .sweep dLevel
  if sSource = "file" then
    let sFile ← jsSender.value getString "file" ""
    let sPath := if sFile ≠ "" ∧ '/' ∉ sFile.toList then sFilesDir ++ "/" ++ sFile else sFile
    if let some pSource := createFile bReadable sPath (← jsSender.value getBool "loop" true) then return pSource
  return .tone (← jsSender.value getReal "tone_hz" 440) dLevel

end PiAudioNode.Audio
