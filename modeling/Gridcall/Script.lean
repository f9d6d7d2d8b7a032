import Gridcall.Call.Run
import Gridcall.Json.Host
import Gridcall.Text.Blank

/-!
# Scripts

A script makes one call per line, written as JSON. Blank lines are skipped; every other line gives one
line of output, and the first line that is malformed or calls something unknown ends the run.

* `Step` : what a line asks for;
* `Outcome` : what a line answers;
* `Script.run` : runs the lines of a script.
-/

namespace Gridcall

/-! ## Steps -/

/-- What a line of a script asks for. -/
inductive Step where
  | call (target : Target) (args : List HostValue)
  | release (handle : Handle)

namespace Step

/-- The arguments of a step; none are given if the field is missing. -/
def args? (fields : List (Option String × Json)) : Option (List HostValue) :=
  if fields.any fun f => f.1 == some "args" then
    (Json.only? "args" fields).bind (Json.listOf? HostValue.ofJson? Json.maxDepth)
  else some []

def ofNameFields? (fields : List (Option String × Json)) : Option Step := do
  let name ← (← Json.only? "call" fields).text?
  return call (.name name) (← args? fields)

def ofIdFields? (fields : List (Option String × Json)) : Option Step := do
  let id ← (← Json.only? "export" fields).uint32?
  return call (.id ⟨id⟩) (← args? fields)

def ofReleaseFields? (fields : List (Option String × Json)) : Option Step := do
  let raw ← (← Json.only? "release" fields).int64?
  return release ⟨raw⟩

/-- Reads a step, as the first kind of step whose fields are there. Other fields are skipped. -/
def ofJson? : Json → Option Step
  | .object fields =>
    (ofNameFields? fields).orElse fun _ =>
      (ofIdFields? fields).orElse fun _ => ofReleaseFields? fields
  | _ => none

def ofLine? (line : List Char) : Option Step := do
  let j ← Json.read? (String.ofList line)
  guard (j.usable Json.maxDepth)
  ofJson? j

end Step

/-! ## Outcomes -/

/-- What a line of a script answers. -/
inductive Outcome where
  | value (v : HostValue)
  /-- Whether a released handle was live. -/
  | released (live : Bool)

def Outcome.line : Outcome → String
  | value v => v.toJson.write
  | released live => (Json.ofFields [("released", .boolean live)]).write

/-- Why a script ends early. -/
inductive ScriptError where
  | malformed
  | unknown (e : UnknownExport)
  | nesting

def ScriptError.message : ScriptError → String
  | malformed => "malformed step"
  | unknown e => e.message
  | nesting => "calls nest too deep"

/-! ## Runs -/

namespace Script

def linesOf : List Char → List (List Char)
  | [] => []
  | '\n' :: cs => [] :: linesOf cs
  | '\r' :: '\n' :: cs => [] :: linesOf cs
  | c :: cs =>
    match linesOf cs with
    | [] => [[c]]
    | line :: lines => (c :: line) :: lines

structure Run where
  output : List String
  /-- The number of steps, or the line at which the run ended early, counted from one, and why. -/
  result : Except (Nat × ScriptError) Nat
  state : MarshalState

def runStep (b : Bridge) (step : Step) (s : MarshalState) :
    Except ScriptError Outcome × MarshalState :=
  match step with
  | .call target args =>
    match b.call target args s with
    | none => (.error .nesting, s)
    | some (.error e, s) => (.error (.unknown e), s)
    | some (.ok v, s) => (.ok (.value v), s)
  | .release handle =>
    let (live, store) := s.store.release handle
    (.ok (.released live), { s with store })

/-- Runs lines, the first of which has the given number, after a number of steps. -/
def runLines (b : Bridge) : (number steps : Nat) → List (List Char) → MarshalState → Run
  | _, steps, [], s => { output := [], result := .ok steps, state := s }
  | number, steps, line :: lines, s =>
    if (trimBlank line).isEmpty then runLines b (number + 1) steps lines s
    else
      match Step.ofLine? line with
      | none => { output := [], result := .error (number, .malformed), state := s }
      | some step =>
        match runStep b step s with
        | (.error e, s) => { output := [], result := .error (number, e), state := s }
        | (.ok outcome, s) =>
          let rest := runLines b (number + 1) (steps + 1) lines s
          { rest with output := outcome.line :: rest.output }

def run (b : Bridge) (text : String) (s : MarshalState) : Run :=
  runLines b 1 0 (linesOf text.toList) s

end Script

end Gridcall
