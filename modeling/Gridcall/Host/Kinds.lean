/-!
# Kinds of host values

* `ErrorCode` : the error codes a cell can show, with their host spellings;
* `HostType` : the kinds of value that cross the host boundary, with their names.

Each spelling is read back by its `ofText?`.
-/

namespace Gridcall

def unknownSpelling : String := "Matching variant not found"

/-- An error code that the host shows in a cell. -/
inductive ErrorCode where
  | null
  | div0
  | value
  | ref
  | name
  | num
  | notAvailable
  /-- A value that is still on its way. -/
  | gettingData
deriving DecidableEq

namespace ErrorCode

def all : List ErrorCode := [null, div0, value, ref, name, num, notAvailable, gettingData]

/-- The host's spelling. -/
def text : ErrorCode → String
  | null => "#NULL!"
  | div0 => "#DIV/0!"
  | value => "#VALUE!"
  | ref => "#REF!"
  | name => "#NAME?"
  | num => "#NUM!"
  | notAvailable => "#N/A"
  | gettingData => "#GETTING_DATA"

/-- The name used in serialized values and in logs. -/
def label : ErrorCode → String
  | null => "Null"
  | div0 => "Div0"
  | value => "Value"
  | ref => "Ref"
  | name => "Name"
  | num => "Num"
  | notAvailable => "NotAvailable"
  | gettingData => "GettingData"

def ofText? (s : String) : Option ErrorCode := all.find? fun c => c.text == s

def ofLabel? (s : String) : Option ErrorCode := all.find? fun c => c.label == s

theorem ofText?_text (c : ErrorCode) : ofText? c.text = some c := by cases c <;> rfl

theorem ofLabel?_label (c : ErrorCode) : ofLabel? c.label = some c := by cases c <;> rfl

instance : ToString ErrorCode := ⟨text⟩

end ErrorCode

inductive HostType where
  | string
  | number
  | boolean
  | error
  /-- An argument the caller left out. -/
  | missing
  | nil
  | object
  | array
  /-- An area of the calling sheet. -/
  | reference
  /-- Areas of a given sheet. -/
  | multiReference
  | sheetId
  /-- An area bound to no sheet. -/
  | range
  | bigData
deriving DecidableEq

namespace HostType

def all : List HostType :=
  [string, number, boolean, error, missing, nil, object, array, reference, multiReference, sheetId,
    range, bigData]

/-- The name of a kind. -/
def text : HostType → String
  | string => "String"
  | number => "Number"
  | boolean => "Boolean"
  | error => "Error"
  | missing => "Missing"
  | nil => "Nil"
  | object => "Object"
  | array => "Array"
  | reference => "Reference"
  | multiReference => "MultiReference"
  | sheetId => "SheetId"
  | range => "Range"
  | bigData => "BigData"

def ofText? (s : String) : Option HostType := all.find? fun h => h.text == s

theorem ofText?_text (h : HostType) : ofText? h.text = some h := by cases h <;> rfl

def index (h : HostType) : Nat := all.idxOf h

instance : ToString HostType := ⟨text⟩

end HostType

end Gridcall
