import Gridcall.FileTree
import Gridcall.Journal.Filter.Reader
import Gridcall.Sample
import Gridcall.Script
import Gridcall.Settings.Document

/-!
# The command line

The program runs a script against the sample library, with settings from a file if one is named.

* `Arguments.ofWords` : reads the command line;
* `CommandLine.run` : what the program does, given the files that it can read.
-/

namespace Gridcall

/-! ## Arguments -/

structure Arguments where
  config : Option String
  script : String
deriving DecidableEq

inductive UsageError where
  | missingConfig
  /-- A word begins with two dashes and is no option. -/
  | unknownOption (word : String)
  | secondScript
  | missingScript
deriving DecidableEq

def UsageError.message : UsageError → String
  | missingConfig => "--config needs a file"
  | unknownOption word => s!"unknown option {word}"
  | secondScript => "only one script may be given"
  | missingScript => "missing script"

namespace Arguments

/-- Reads the words from left to right, given the settings file and the script so far. -/
def readWords (config script : Option String) : List String → Except UsageError Arguments
  | [] =>
    match script with
    | some script => .ok { config, script }
    | none => .error .missingScript
  | "--config" :: words =>
    match words with
    | [] => .error .missingConfig
    | file :: words => readWords (some file) script words
  | word :: words =>
    if "--".toList.isPrefixOf word.toList then .error (.unknownOption word)
    else if script.isSome then .error .secondScript
    else readWords config (some word) words

/-- Reads a command line. Of several settings files the last one counts. -/
def ofWords (words : List String) : Except UsageError Arguments := readWords none none words

end Arguments

/-! ## Runs -/

namespace CommandLine

def usage : String := "usage: xlbridge [--config FILE] SCRIPT"

/-- What the program leaves behind. -/
structure Report where
  success : Bool
  output : List String
  log : List String
  /-- The text for the user, given the time that the script took. -/
  summary : String → String

/-- Why the program ends before it runs the script. -/
inductive StartError where
  | unreadable (path : String) (reason : FileError)
  | invalidSettings

def StartError.message : StartError → String
  | unreadable path reason => s!"cannot read {path}: {reason.message}"
  | invalidSettings => "invalid configuration"

def readFile (files : String → Except FileError String) (path : String) : Except StartError String :=
  (files path).mapError (.unreadable path)

def loadSettings (files : String → Except FileError String) :
    Option String → Except StartError Settings
  | none => .ok {}
  | some path => do
    match Settings.ofDocument? (← readFile files path) with
    | some settings => return settings
    | none => throw .invalidSettings

def load (files : String → Except FileError String) (args : Arguments) :
    Except StartError (Settings × String) := do
  let settings ← loadSettings files args.config
  return (settings, ← readFile files args.script)

def summarize (r : Script.Run) (elapsed : String) : String :=
  match r.result with
  | .ok steps =>
    let stats := r.state.store.heap.stats
    s!"{steps} steps after: {elapsed} ({stats.live} live handles, {stats.minted} minted)\n"
  | .error (line, e) => s!"error after: {elapsed}\nline {line}: {e.message}\n"

/-- What a program that does not run a script leaves behind. -/
def Report.failure (text : String) : Report :=
  { success := false, output := [], log := [], summary := fun _ => text }

def Report.ofRun (settings : Settings) (r : Script.Run) : Report where
  success := r.result.toOption.isSome
  output := r.output
  log := (LogFilter.ofSetting settings.logFilter).lines [] r.state.takeJournal.1
  summary := summarize r

/-- Runs the program on the words of a command line, given how files are read. -/
def run (files : String → Except FileError String) (words : List String) : Report :=
  match Arguments.ofWords words with
  | .error e => .failure s!"error: {e.message}\n{usage}\n"
  | .ok args =>
    match load files args with
    | .error e => .failure s!"error: {e.message}\n"
    | .ok (settings, script) =>
      let bridge := Sample.bridge settings
      .ofRun settings (Script.run bridge script bridge.initialState)

end CommandLine

end Gridcall
