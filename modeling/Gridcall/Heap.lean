import Gridcall.Managed.Value

/-!
# The heap

Objects that cross to the host stay in the heap under a handle. Handles count up from one and are
never given out twice, so a released handle finds nothing rather than another object.

* `Heap.get?` : the object under a handle, the view of the heap;
* `Heap.mint` : stores an object under a fresh handle;
* `Heap.release` : forgets a handle;
* `Heap.create` : makes an object with an identity of its own;
* `Heap.stats` : the counters.
-/

namespace Gridcall

/-- The objects under handles, and the supplies of handles and identities. -/
structure Heap where
  /-- The live handles, the latest first, each with its object. -/
  entries : List (Handle × Object)
  next : Int64
  minted : Nat
  released : Nat
  created : Nat

structure HeapStats where
  live : Nat
  minted : Nat
  released : Nat
deriving DecidableEq

namespace Heap

def empty : Heap where
  entries := []
  next := 1
  minted := 0
  released := 0
  created := 0

/-- The heap before the first object, with room for a number of objects. The room is a hint to the
host and shows in no answer. -/
def withCapacity (_capacity : Nat) : Heap := empty

def get? (h : Heap) (handle : Handle) : Option Object := h.entries.lookup handle

/-- The object under a handle if its class is the given one, else the class that it has. -/
def getOfClass? (h : Heap) (handle : Handle) (className : ClassName) :
    Option (Except ClassName Object) :=
  (h.get? handle).map fun o => if o.className = className then .ok o else .error o.className

def sameObject? (h : Heap) (a b : Handle) : Option Bool := do
  return (← h.get? a).identical (← h.get? b)

/-- Makes an object that is identical to no earlier one. -/
def create (h : Heap) (className : ClassName) (contents : Contents Managed) : Object × Heap :=
  ({ id := ⟨h.created⟩, className, contents }, { h with created := h.created + 1 })

def mint (h : Heap) (o : Object) : Handle × Heap :=
  let handle : Handle := ⟨h.next⟩
  (handle,
    { h with
      entries := (handle, o) :: h.entries.filter fun e => e.1 != handle
      next := h.next + 1
      minted := h.minted + 1 })

/-- Forgets a handle, and says whether it was live. -/
def release (h : Heap) (handle : Handle) : Bool × Heap :=
  if (h.get? handle).isSome then
    (true,
      { h with
        entries := h.entries.filter fun e => e.1 != handle
        released := h.released + 1 })
  else (false, h)

def size (h : Heap) : Nat := h.entries.length

def stats (h : Heap) : HeapStats where
  live := h.size
  minted := h.minted
  released := h.released

/-! ## The view of each operation -/

theorem lookup_filter_ne {entries : List (Handle × Object)} {a b : Handle} :
    (entries.filter fun e => e.1 != a).lookup b = if b = a then none else entries.lookup b := by
  induction entries with
  | nil => simp
  | cons e es ih =>
    obtain ⟨k, o⟩ := e
    by_cases hk : k = a
    · subst hk
      by_cases hb : b = k
      · subst hb; simp [ih]
      · have : (b == k) = false := by simpa using hb
        simp [ih, hb, List.lookup_cons, this]
    · have hne : (k != a) = true := by simpa using hk
      simp only [List.filter_cons, hne, if_true, List.lookup_cons, ih]
      by_cases hb : b = k
      · subst hb; simp [hk]
      · have : (b == k) = false := by simpa using hb
        simp [this]

theorem get?_empty (handle : Handle) : empty.get? handle = none := rfl

theorem get?_create (h : Heap) (className : ClassName) (contents : Contents Managed)
    (handle : Handle) : (h.create className contents).2.get? handle = h.get? handle := rfl

theorem get?_mint (h : Heap) (o : Object) (handle : Handle) :
    (h.mint o).2.get? handle = if handle = ⟨h.next⟩ then some o else h.get? handle := by
  simp only [mint, get?, List.lookup_cons, lookup_filter_ne]
  by_cases hh : handle = ⟨h.next⟩
  · subst hh; simp
  · have : (handle == (⟨h.next⟩ : Handle)) = false := by simpa using hh
    simp [this, hh]

theorem get?_release (h : Heap) (a b : Handle) :
    (h.release a).2.get? b = if b = a then none else h.get? b := by
  unfold release
  split
  · simp only [get?, lookup_filter_ne]
  · rename_i hn
    by_cases hb : b = a
    · subst hb
      simpa using hn
    · simp [hb]

end Heap

end Gridcall
