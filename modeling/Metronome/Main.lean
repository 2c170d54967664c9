-- The program: it reads the settings file, runs what its words ask for, and
-- prints what came of it.
import Metronome.CommandLine.Run

open Metronome

/-- What a file holds, if it can be read. -/
def contentOf (path : String) : IO (Option Text.Bytes) :=
  try
    return some (← IO.FS.readBinFile path).data.toList
  catch _ => return none

def main (words : List String) : IO UInt32 := do
  let content ←
    match CommandLine.settingsFile? words with
    | some path => contentOf path
    | none => pure none
  let started ← IO.monoMsNow
  let ending := CommandLine.run words fun _ => content
  match ending with
  | .told text => IO.println text
  | .misused => IO.eprintln CommandLine.about
  | .failed message => IO.eprintln (CommandLine.errorLine message)
  | .crashed f => IO.eprintln f.message
  | .reported report counters =>
    IO.println (Json.pretty (report.toData ((← IO.monoMsNow) - started)))
    counters.forM IO.println
  return ending.exitCode.toUInt32
