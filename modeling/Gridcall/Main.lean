import Gridcall.CommandLine

/-!
# The program

Reads files, prints lines. What is printed is decided by `CommandLine.run`.
-/

namespace Gridcall

def FileError.ofSystem : IO.Error → FileError
  | .noFileOrDirectory _ _ _ => .notFound
  | .inappropriateType _ 20 _ => .notDirectory
  | .inappropriateType _ 21 _ => .isDirectory
  | .invalidArgument _ 36 _ => .nameTooLong
  | .userError _ => .notText
  | e => .other (toString e)

/-- Reads the files that the words name, each as its text or the reason why it cannot be read. -/
def readFiles (words : List String) : IO (List (String × Except FileError String)) :=
  words.mapM fun (word : String) => do
    match ← (IO.FS.readFile word).toBaseIO with
    | .ok text => return (word, .ok text)
    | .error e => return (word, .error (.ofSystem e))

def runProgram (words : List String) : IO UInt32 := do
  let files ← readFiles words
  let start ← IO.monoMsNow
  let read path := (files.lookup path).getD (.error .notFound)
  let report := CommandLine.run read words
  let stdout ← IO.getStdout
  for line in report.output do
    stdout.putStrLn line
  let stop ← IO.monoMsNow
  let stderr ← IO.getStderr
  for line in report.log do
    stderr.putStrLn line
  stderr.putStr (report.summary s!"{stop - start}ms")
  return if report.success then 0 else 1

end Gridcall

def main (words : List String) : IO UInt32 := Gridcall.runProgram words
