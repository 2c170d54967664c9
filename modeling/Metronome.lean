import Metronome.Blueprint
import Metronome.Json.Printer
import Metronome.Json.Reader
import Metronome.Pause.Line
import Metronome.Rehearsal
import Metronome.Stored
import Metronome.CommandLine.Request
import Metronome.CommandLine.Run
import Metronome.Main
import Metronome.Pause.Disk
import Metronome.Pause.Monitor
import Metronome.Worker
import Metronome.Proofs.Callbacks
import Metronome.Proofs.Chronicle
import Metronome.Proofs.Scribes
import Metronome.Proofs.RealTime.Calls
import Metronome.Proofs.RealTime.Boundary
import Metronome.Proofs.RealTime.Custody
import Metronome.Proofs.RealTime.Run
import Metronome.Proofs.RealTime.Life
import Metronome.Proofs.RealTime.Release
import Metronome.Proofs.Alike
import Metronome.Proofs.SameTicks
import Metronome.Proofs.RealTime.Wishes
import Metronome.Proofs.Watchers
import Metronome.Proofs.Deeds
import Metronome.Proofs.Turns
import Metronome.Proofs.Worlds
import Metronome.Proofs.Leftovers
import Metronome.Proofs.Nudges
import Metronome.Proofs.Refusals
import Metronome.Proofs.RealTime.Course
import Metronome.Proofs.RealTime.Story
import Metronome.Proofs.RealTime.Beats
import Metronome.Proofs.RealTime.Interrupts
import Metronome.Proofs.RealTime.Partings
import Metronome.Proofs.RealTime.Leftovers
import Metronome.Proofs.Simulated.Calls
import Metronome.Proofs.Simulated.Brackets
import Metronome.Proofs.Simulated.Machine
import Metronome.Proofs.Simulated.Order
import Metronome.Proofs.Simulated.Answers
import Metronome.Proofs.Simulated.Moments
import Metronome.Proofs.Simulated.Leftovers
import Metronome.Proofs.Threads.Scene
import Metronome.Proofs.Threads.Custody
import Metronome.Proofs.Threads.Tasks
import Metronome.Proofs.Threads.Failures
import Metronome.Proofs.Threads.Sound
import Metronome.Proofs.Threads.OneWay
import Metronome.Proofs.Threads.Returns
import Metronome.Proofs.Threads.Release
import Metronome.Proofs.Threads.Alone
import Metronome.Proofs.Threads.InTurn
import Metronome.Proofs.Threads.Breaks
import Metronome.Proofs.Imprints
import Metronome.Proofs.Threads.Marks
import Metronome.Proofs.Threads.Hours
import Metronome.Proofs.Threads.Stamps
import Metronome.Proofs.Worker.Sights
import Metronome.Proofs.Worker.Tales
import Metronome.Proofs.Worker.Endings
import Metronome.Proofs.Worker.Session
import Metronome.Proofs.Worker.Recall
import Metronome.Proofs.Pause.Memory
import Metronome.Proofs.Pause.Ledger
import Metronome.Proofs.Pause.Reads
import Metronome.Proofs.Pause.Pursuit
import Metronome.Proofs.Pause.Cuts
import Metronome.Proofs.Pause.Losses
import Metronome.Proofs.Pause.Epochs
import Metronome.Proofs.Simulated.Failures
import Metronome.Proofs.Timing.Dispatches
import Metronome.Proofs.Timing.Neighbours
import Metronome.Proofs.Timing.Drift
import Metronome.Proofs.Rounding
import Metronome.Proofs.Numerals
import Metronome.Proofs.Pause.TooLong
import Metronome.Proofs.Words
import Metronome.Proofs.Pause.Questions
import Metronome.Proofs.Literals
import Metronome.Proofs.Nearest
import Metronome.Proofs.Pause.Language
import Metronome.Proofs.Pause.ReadBack
import Metronome.Proofs.Feeds
import Metronome.Proofs.Blueprints
import Metronome.Proofs.Farewells
import Metronome.Proofs.Rosters
import Metronome.Proofs.Rows
import Metronome.Proofs.Threads.Built
import Metronome.Proofs.Trials
import Metronome.Proofs.Whole
import Metronome.Proofs.Json.Strings
import Metronome.Proofs.Json.Values
import Metronome.Proofs.Retellings
import Metronome.Proofs.Stored
import Metronome.Proofs.Timing.Successions
import Metronome.Proofs.Toml.Strings
import Metronome.Proofs.Toml.Lines
import Metronome.Proofs.Toml.Drafts
import Metronome.Proofs.Toml.Files
import Metronome.Proofs.SettingsFile
import Metronome.Proofs.Draws
import Metronome.Proofs.Timing.Percentiles
import Metronome.Proofs.Timing.Summaries
