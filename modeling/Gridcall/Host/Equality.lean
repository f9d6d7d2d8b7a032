import Gridcall.Host.Value

/-!
# Equality of host values

Two references are the same when their handles are; the class they claim does not count. Numbers are
compared by their bits. `HostValue.same` extends this to all values.

* `HostValue.forgetClasses` : the value with every claimed class erased;
* `HostValue.digest` : the tokens that are fed to a hash, which leave out claimed classes as well;
* `DigestSet` : a set of values looked up by digest, and `HostValue.firstIndices` over it.
-/

namespace Gridcall

/-- References are the same when their handles are. -/
def ObjectHandle.same (a b : ObjectHandle) : Bool := a.handle == b.handle

namespace HostValue

/-! ## Sameness -/

mutual

/-- Structural equality up to the claimed classes of references. -/
def same : HostValue → HostValue → Bool
  | string a, string b => a == b
  | number a, number b => a == b
  | boolean a, boolean b => a == b
  | error a, error b => a == b
  | missing, missing => true
  | nil, nil => true
  | object a, object b => a.same b
  | array a, array b => sameGrid a b
  | reference a, reference b => a == b
  | multiReference s rs, multiReference t ts => s == t && rs == ts
  | sheetId a, sheetId b => a == b
  | range a, range b => a == b
  | bigData a, bigData b => a == b
  | _, _ => false

def sameGrid : HostGrid → HostGrid → Bool
  | ⟨rows, columns, cells⟩, ⟨rows', columns', cells'⟩ =>
    rows == rows' && columns == columns' && sameCells cells cells'

/-- Lists of one length that are the same place by place. -/
def sameCells : List HostValue → List HostValue → Bool
  | [], [] => true
  | a :: as, b :: bs => same a b && sameCells as bs
  | _, _ => false

end

instance : BEq HostValue := ⟨same⟩

/-! ## Claimed classes erased -/

mutual

/-- The value with the claimed class of every reference, at any depth, replaced by the empty name. -/
def forgetClasses : HostValue → HostValue
  | object h => object { h with className := "" }
  | array grid => array (forgetGrid grid)
  | v => v

def forgetGrid : HostGrid → HostGrid
  | ⟨rows, columns, cells⟩ => ⟨rows, columns, forgetCells cells⟩

def forgetCells : List HostValue → List HostValue
  | [] => []
  | v :: vs => forgetClasses v :: forgetCells vs

end

/-! ## Digests -/

/-- One item fed to a hash. -/
inductive DigestToken where
  /-- The place of a constructor among its siblings. -/
  | tag (n : Nat)
  /-- The length of a sequence that follows. -/
  | length (n : Nat)
  /-- A text, closed by its own end mark. -/
  | text (s : String)
  /-- A number of fixed width. -/
  | word (n : Nat)
deriving DecidableEq

def digestRange (r : CellRange) : List DigestToken :=
  [.word r.rowFirst.toNat, .word r.rowLast.toNat, .word r.columnFirst.toNat,
    .word r.columnLast.toNat]

def digestBigData : BigData → List DigestToken
  | .inline bytes => .tag 0 :: .length bytes.length :: bytes.map fun b => .word b.toNat
  | .handle handle length => [.tag 1, .word handle.toNat, .word length.toNat]

mutual

/-- The tokens that a value feeds to a hash, beginning with its kind. -/
def digest : HostValue → List DigestToken
  | string s => [.tag HostType.string.index, .text s]
  | number n => [.tag HostType.number.index, .word n.toBits]
  | boolean b => [.tag HostType.boolean.index, .word b.toNat]
  | error code => [.tag HostType.error.index, .tag (ErrorCode.all.idxOf code)]
  | missing => [.tag HostType.missing.index]
  | nil => [.tag HostType.nil.index]
  | object h => [.tag HostType.object.index, .word h.handle.raw.toUInt64.toNat]
  | array grid => .tag HostType.array.index :: digestGrid grid
  | reference r => .tag HostType.reference.index :: digestRange r
  | multiReference s rs =>
    .tag HostType.multiReference.index :: .word s.raw.toNat :: .length rs.length ::
      rs.flatMap digestRange
  | sheetId s => [.tag HostType.sheetId.index, .word s.raw.toNat]
  | range r => .tag HostType.range.index :: digestRange r
  | bigData d => .tag HostType.bigData.index :: digestBigData d

def digestGrid : HostGrid → List DigestToken
  | ⟨rows, columns, cells⟩ =>
    .word rows :: .word columns :: .length cells.length :: digestCells cells

def digestCells : List HostValue → List DigestToken
  | [] => []
  | v :: vs => digest v ++ digestCells vs

end

end HostValue

/-! ## Sets -/

/-- A set of host values: each member stands behind its digest, and a value is looked up among the
members of its own digest only. -/
structure DigestSet where
  /-- The members, the latest first. -/
  members : List (List HostValue.DigestToken × HostValue)

namespace DigestSet

def empty : DigestSet := ⟨[]⟩

/-- Whether a member is the same as `v`. -/
def contains (s : DigestSet) (v : HostValue) : Bool :=
  let key := v.digest
  s.members.any fun m => m.1 == key && m.2.same v

/-- Adds `v`, and says whether it was new. -/
def insert (s : DigestSet) (v : HostValue) : Bool × DigestSet :=
  if s.contains v then (false, s) else (true, ⟨(v.digest, v) :: s.members⟩)

end DigestSet

/-- The indices, counted from `start`, of the values that are new when all are added to `s` in
order. -/
def HostValue.newIndices (start : Nat) (s : DigestSet) : List HostValue → List Nat
  | [] => []
  | v :: vs =>
    let (isNew, s') := s.insert v
    let rest := newIndices (start + 1) s' vs
    if isNew then start :: rest else rest

/-- The indices of the values that are the same as no earlier one. -/
def HostValue.firstIndices (vs : List HostValue) : List Nat := newIndices 0 .empty vs

end Gridcall
