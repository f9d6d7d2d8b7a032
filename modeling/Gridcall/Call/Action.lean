import Gridcall.Call.Target
import Gridcall.Marshal.Request

/-!
# Actions of callables

What a callable does is an `Action`, a dialogue with the bridge that it belongs to.

* `Request`, `Request.Answer` : what a callable can ask for, and the type of each answer;
* `Breakdown` : how an action breaks off;
* `Action` : actions.
-/

namespace Gridcall

/-- What a callable can ask of the bridge. -/
inductive Request where
  /-- Anything that a conversion can be asked for. -/
  | convert (request : Conversion.Request)
  | call (target : Target) (args : List HostValue)

abbrev Request.Answer : Request → Type
  | convert request => request.Answer
  | call _ _ => Except UnknownExport HostValue

inductive Breakdown where
  | failure (message : String)
  /-- With a panic, whose payload may be a text. -/
  | panic (payload : Option String)
deriving DecidableEq

def Breakdown.message : Breakdown → String
  | failure message => message
  | panic payload => "panicked: " ++ payload.getD "unknown panic payload"

/-- What a callable does to arrive at a value of type `α`. -/
abbrev Action := Dialogue Request.Answer Breakdown

namespace Action

variable {α : Type}

def convert (request : Conversion.Request) : Action request.Answer := .ask (.convert request) .done

def fail (message : String) : Action α := .stop (.failure message)

/-- Ends with the value of a computation, or breaks off with the message of its error. -/
def ofExcept {ε : Type} (message : ε → String) : Except ε α → Action α
  | .ok value => .done value
  | .error e => fail (message e)

/-- Makes a call and breaks off if its target is unknown. -/
def call (target : Target) (args : List HostValue) : Action HostValue :=
  .ask (.call target args) (ofExcept UnknownExport.message)

end Action

end Gridcall
