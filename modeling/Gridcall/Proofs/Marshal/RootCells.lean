import Gridcall.Proofs.Heap.Minting
import Gridcall.Proofs.Host.Transposed
import Gridcall.Proofs.Marshal.RoundTrip

/-!
# Cells through the root

A grid that is read into a table over the root and written again. Numbers, strings, truth values, empty
cells and grids inside the grid come out as they went in; a reference to a live object comes out as a new
reference to it, and nothing else happens to the heap.

* `HostValue.isPlain`, `HostValue.Rooted` : the cells that this is about;
* `atRoot` : what a cell becomes; `gives_decode_root` : a grid is read cell by cell;
* `Heap.Stores h stored h'` : from `h` to `h'` handles were given out for `stored` and nothing else
  happened;
* `HeapM.Hands act heap Q` : `act` succeeds and does nothing but give out handles;
* `Resent heap stored v v'` : what is written for a cell that was read from `v`;
  `hands_encode_root` : a table is written cell by cell.
-/

namespace Gridcall

variable {α β : Type} {heap heap' heap'' now : Heap} {stored more : Stored} {v v' : HostValue}

/-! ## Reading -/

/-- Whether a cell has a place in a table over the root and comes back from there as it is. -/
def HostValue.isPlain : HostValue → Bool
  | number _ | string _ | boolean _ | nil | array _ => true
  | _ => false

/-- A plain cell, or a reference to a live object. -/
def HostValue.Rooted (heap : Heap) (v : HostValue) : Prop :=
  v.isPlain ∨ ∃ reference o, v = .object reference ∧ heap.get? reference.handle = some o

def atRoot (heap : Heap) : HostValue → Managed
  | .number x => .double x
  | .string text => .string text
  | .boolean b => .boolean b
  | .array grid => .value (.array grid)
  | .object reference => ((heap.get? reference.handle).map Managed.object).getD .null
  | _ => .null

theorem atRoot_object {reference : ObjectHandle} {o : Object} (h : heap.get? reference.handle = some o) :
    atRoot heap (.object reference) = .object o := by
  simp only [atRoot, h, Option.map_some, Option.getD_some]

theorem gives_readCell_root (h : v.Rooted heap) :
    (readCell Converter.defaults .object v).Gives heap fun m => m = atRoot heap v := by
  have hdecode : keptRaw .object v = false →
      (onHeap (decode Converter.defaults v .object)).Gives heap (fun m => m = atRoot heap v) →
        (readCell Converter.defaults .object v).Gives heap fun m => m = atRoot heap v := by
    intro hraw hgives
    rwa [readCell, hraw]
  rcases h with hplain | ⟨reference, o, rfl, hlive⟩
  · cases v with
    | array grid => exact .pure rfl
    | number x => exact hdecode rfl (gives_decode rfl (fun _ => rfl) rfl rfl)
    | string text => exact hdecode rfl (gives_decode rfl (fun _ => rfl) rfl rfl)
    | boolean b => exact hdecode rfl (gives_decode rfl (fun _ => rfl) rfl rfl)
    | nil => exact hdecode rfl (gives_decode rfl (fun _ => rfl) rfl rfl)
    | _ => cases hplain
  · have hbehind : objectBehind heap (some .object) (.object reference) = .ok (.object o) := by
      simp only [objectBehind, HostValue.asObject?, hlive]
    exact hdecode rfl (gives_decode rfl (fun _ => rfl) hbehind (atRoot_object hlive).symm)

theorem HeapM.Gives.mapM_eq {f : α → HeapM β} {g : α → β} {as : List α}
    (h : ∀ a ∈ as, (f a).Gives heap fun b => b = g a) :
    (as.mapM f).Gives heap fun bs => bs = as.map g := by
  have hall : (as.mapM f).Gives heap (List.Forall₂ (fun a b => b = g a) as) :=
    .mapM (List.forall₂_same.mpr h)
  obtain ⟨bs, hrun, hbs⟩ := hall
  have heq : List.Forall₂ Eq bs (as.map g) := List.forall₂_map_right_iff.mpr hbs.flip
  rw [List.forall₂_eq_eq_eq] at heq
  exact ⟨bs, hrun, heq⟩

theorem gives_readRow_root {row : List HostValue} (h : ∀ v ∈ row, v.Rooted heap) :
    (readRow Converter.defaults .object row).Gives heap
      fun m => m = .array .object (row.map (atRoot heap)) := by
  refine (HeapM.Gives.mapM_eq fun v hv => gives_readCell_root (h v hv)).bind fun items hitems => ?_
  rw [hitems]
  exact .pure rfl

def rootTable (rows : List (List Managed)) : Managed :=
  .array (.array .object) (rows.map (.array .object))

theorem gives_decode_root {grid : HostGrid} (h : ∀ v ∈ grid.cells, v.Rooted heap) :
    (onHeap (decode Converter.defaults (.array grid) (.array (.array .object)))).Gives heap
      fun m => m = rootTable (grid.toRows.map (List.map (atRoot heap))) := by
  have hdecoder : Converter.standardDecoder? (HostValue.array grid).hostType (.array (.array .object)) =
      some (.table .object 11) := rfl
  rw [onHeap_decode_of hdecoder, onHeap_decodeUsing_table Registry.blind_defaults]
  refine (HeapM.Gives.mapM_eq fun row hrow => gives_readRow_root fun v hv => ?_).bind fun rows hrows => ?_
  · exact h v (Grid.mem_cells_of_mem_toRows hrow hv)
  · rw [hrows, rootTable, List.map_map]
    exact .pure rfl

/-! ## Giving out handles and nothing else -/

/-- From `h` to `h'` handles were given out for `stored` one after the other, and that is all. -/
inductive Heap.Stores : Heap → Stored → Heap → Prop
  | nil (h : Heap) : Stores h [] h
  | cons {h h' : Heap} {stored : Stored} (o : Object) (hrest : Stores (h.mint o).2 stored h') :
      Stores h (((h.mint o).1, o) :: stored) h'

namespace Heap.Stores

theorem append (h : heap.Stores stored heap') (h' : heap'.Stores more heap'') :
    heap.Stores (stored ++ more) heap'' := by
  induction h with
  | nil => exact h'
  | cons o _ ih => exact .cons o (ih h')

theorem mints (h : heap.Stores stored heap') : heap.Mints stored heap' := by
  induction h with
  | nil => exact .refl
  | @cons h _ stored o _ ih =>
    have hone : h.Mints [((h.mint o).1, o)] (h.mint o).2 := .mint .refl o
    exact hone.trans ih

theorem eq_of_nil (h : heap.Stores [] heap') : heap' = heap := by
  cases h
  rfl

end Heap.Stores

/-- Run on `heap`, `act` succeeds and does nothing but give out handles. What it answers and what is
stored under the handles satisfy `Q`. -/
def HeapM.Hands (act : HeapM α) (heap : Heap) (Q : Stored → α → Prop) : Prop :=
  ∃ a heap' stored, act heap = (.ok a, heap') ∧ heap.Stores stored heap' ∧ Q stored a

namespace HeapM.Hands

variable {act : HeapM α} {Q : Stored → α → Prop}

theorem pure {a : α} (h : Q [] a) : Hands (Pure.pure a) heap Q := ⟨a, heap, [], rfl, .nil heap, h⟩

theorem map {f : α → β} {Q' : Stored → β → Prop} (hact : Hands act heap Q)
    (h : ∀ stored a, Q stored a → Q' stored (f a)) : Hands (do return f (← act)) heap Q' := by
  obtain ⟨a, heap', stored, hrun, hstores, hQ⟩ := hact
  rw [Hands, bind_of_ok hrun]
  exact ⟨f a, heap', stored, rfl, hstores, h stored a hQ⟩

theorem mapM {γ : Type} {f : γ → HeapM α} {R : Stored → γ → α → Prop} {handles : α → List Handle}
    (hmono : ∀ {stored stored' : Stored} {c : γ} {a : α}, stored ⊆ stored' → R stored c a → R stored' c a)
    {cs : List γ} (h : ∀ c ∈ cs, ∀ heap, Hands (f c) heap fun stored a =>
      R stored c a ∧ handles a = stored.map Prod.fst) (heap : Heap) :
    Hands (cs.mapM f) heap fun stored as =>
      List.Forall₂ (R stored) cs as ∧ as.flatMap handles = stored.map Prod.fst := by
  induction cs generalizing heap with
  | nil => exact pure ⟨.nil, rfl⟩
  | cons c cs ih =>
    obtain ⟨a, heap₁, stored, hrun, hstores, hR, hhandles⟩ := h c List.mem_cons_self heap
    obtain ⟨as, heap₂, more, hrun', hstores', hR', hhandles'⟩ :=
      ih (fun c hc => h c (List.mem_cons_of_mem _ hc)) heap₁
    refine ⟨a :: as, heap₂, stored ++ more, ?_, hstores.append hstores', ?_, ?_⟩
    · rw [List.mapM_cons, bind_of_ok hrun, bind_of_ok hrun']
      rfl
    · exact .cons (hmono (List.subset_append_left _ _) hR)
        (hR'.imp fun _ _ => hmono (List.subset_append_right _ _))
    · rw [List.flatMap_cons, List.map_append, hhandles, hhandles']

end HeapM.Hands

/-! ## Writing -/

def HostValue.handles (v : HostValue) : List Handle := (v.asObject?.map ObjectHandle.handle).toList

/-- What is written for a cell that was read from `v`: a plain one as it was, and for a reference to a live
object a reference to the same object, under one of the handles that were given out. -/
inductive Resent (heap : Heap) (stored : Stored) : HostValue → HostValue → Prop
  | plain {v : HostValue} (h : v.isPlain) : Resent heap stored v v
  | object {reference : ObjectHandle} {o : Object} {handle : Handle}
      (hlive : heap.get? reference.handle = some o) (hmem : (handle, o) ∈ stored) :
      Resent heap stored (.object reference) (.object ⟨o.className, handle⟩)

theorem Resent.mono (hsub : stored ⊆ more) (h : Resent heap stored v v') : Resent heap more v v' := by
  cases h with
  | plain h => exact .plain h
  | object hlive hmem => exact .object hlive (hsub hmem)

theorem Resent.eq_of_isPlain (h : Resent heap stored v v') (hv : v.isPlain) : v' = v := by
  cases h with
  | plain _ => rfl
  | object _ _ => cases hv

theorem HostValue.handles_of_isPlain (h : v.isPlain) : v.handles = [] := by
  cases v with
  | object reference => cases h
  | _ => rfl

theorem onHeap_encode_object (o : Object) :
    onHeap (encode Converter.defaults (.object o)) = onHeap (mintValue (.object o)) := by
  rw [onHeap_encode_of rfl]
  show onHeap (encodeUsing Converter.defaults .object none (.object o)) = _
  rw [encodeUsing, Outside.encodeUsing]
  rfl

theorem hands_writeItem_root (h : v.Rooted heap) (now : Heap) :
    (writeItem Converter.defaults (atRoot heap v)).Hands now fun stored v' =>
      Resent heap stored v v' ∧ v'.handles = stored.map Prod.fst := by
  rcases h with hplain | ⟨reference, o, rfl, hlive⟩
  · have hwrite : writeItem Converter.defaults (atRoot heap v) = pure v := by
      cases v with
      | array grid => exact onHeap_encode_value (.array grid)
      | number x => exact (passes_double x (.inl rfl)).encode_eq
      | string text => exact (passes_string text (.inl rfl)).encode_eq
      | boolean b => exact (passes_boolean b (.inl rfl)).encode_eq
      | nil => rfl
      | _ => cases hplain
    rw [hwrite]
    exact .pure ⟨.plain hplain, HostValue.handles_of_isPlain hplain⟩
  · have hwrite : writeItem Converter.defaults (atRoot heap (.object reference)) =
        onHeap (mintValue (.object o)) := by
      rw [atRoot_object hlive]
      exact onHeap_encode_object o
    rw [hwrite]
    exact ⟨_, _, [((now.mint o).1, o)], rfl, .cons o (.nil _), .object hlive List.mem_cons_self, rfl⟩

theorem hands_writeRow_root {row : List HostValue} (h : ∀ v ∈ row, v.Rooted heap) (now : Heap) :
    (writeRow Converter.defaults .object (.array .object (row.map (atRoot heap)))).Hands now
      fun stored row' => List.Forall₂ (Resent heap stored) row row' ∧
        row'.flatMap HostValue.handles = stored.map Prod.fst := by
  rw [writeRow, List.mapM_map]
  exact .mapM (fun hsub hresent => hresent.mono hsub) (fun v hv => hands_writeItem_root (h v hv)) now

theorem hands_encode_root {grid : HostGrid} (hgrid : grid.WellFormed)
    (h : ∀ v ∈ grid.cells, v.Rooted heap) (now : Heap) :
    (onHeap (encode Converter.defaults (rootTable (grid.toRows.map (List.map (atRoot heap)))))).Hands now
      fun stored host => ∃ grid', host = .array grid' ∧ grid'.WellFormed ∧
        Grid.Matches (Resent heap stored) grid grid' ∧
        grid'.cells.flatMap HostValue.handles = stored.map Prod.fst := by
  have hencoder : onHeap (encode Converter.defaults
      (rootTable (grid.toRows.map (List.map (atRoot heap))))) =
      (do return .array (HostGrid.ofRows (← grid.toRows.mapM fun row =>
        writeRow Converter.defaults .object (.array .object (row.map (atRoot heap)))))) := by
    have htable : Converter.standardTable .object = .table .object 11 := rfl
    rw [rootTable, onHeap_encode_of rfl, Converter.standardEncoder_table rfl, htable,
      onHeap_encodeUsing_table Registry.blind_defaults, List.map_map, List.mapM_map]
    rfl
  have hrows : (grid.toRows.mapM fun row =>
      writeRow Converter.defaults .object (.array .object (row.map (atRoot heap)))).Hands now
      fun stored rows' => List.Forall₂ (List.Forall₂ (Resent heap stored)) grid.toRows rows' ∧
        rows'.flatMap (List.flatMap HostValue.handles) = stored.map Prod.fst :=
    .mapM (fun hsub hrow => hrow.imp fun _ _ hresent => hresent.mono hsub)
      (fun row hrow => hands_writeRow_root fun v hv => h v (Grid.mem_cells_of_mem_toRows hrow hv)) now
  rw [hencoder]
  refine hrows.map fun stored rows' hresult => ?_
  obtain ⟨hresent, hhandles⟩ := hresult
  obtain ⟨hmatches, hcells⟩ := Grid.matches_ofRows hgrid .nil hresent
  refine ⟨_, rfl, Grid.wellFormed_ofRows _ rows', hmatches, ?_⟩
  rw [HostGrid.ofRows, hcells, ← List.flatMap_id, List.flatMap_assoc]
  exact hhandles

/-! ## From any state -/

section Run

variable {r : Registry} {act : MarshalM α} {s : MarshalState}

theorem HeapM.Gives.run {P : α → Prop} (h : (onHeap act).Gives s.store.heap P) (hact : Oblivious r act)
    (hs : s.memo.Truthful r) : ∃ a s', act s = (.ok a, s') ∧ s'.store.heap = s.store.heap ∧
      s'.memo.Truthful r ∧ P a := by
  obtain ⟨a, hrun, hP⟩ := h
  obtain ⟨s', hact, hheap, hs'⟩ := hact s hs
  rw [hrun] at hact hheap
  exact ⟨a, s', hact, hheap, hs', hP⟩

theorem HeapM.Hands.run {Q : Stored → α → Prop} (h : (onHeap act).Hands s.store.heap Q)
    (hact : Oblivious r act) (hs : s.memo.Truthful r) : ∃ a s' stored, act s = (.ok a, s') ∧
      s.store.heap.Stores stored s'.store.heap ∧ Q stored a := by
  obtain ⟨a, heap', stored, hrun, hstores, hQ⟩ := h
  obtain ⟨s', hact, hheap, -⟩ := hact s hs
  rw [hrun] at hact hheap
  exact ⟨a, s', stored, hact, hheap ▸ hstores, hQ⟩

end Run

end Gridcall
