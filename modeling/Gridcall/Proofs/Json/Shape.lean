import Gridcall.Proofs.Json.Nesting

/-!
# Shapes are read back

* `Json.Reads read j a` : with room for its brackets, `read` reads `a` from `j`;
* `record?_ofFields` : a record is read back field by field;
* `reads_listOf?` : so is a sequence, item by item.
-/

namespace Gridcall

namespace Json

variable {α β γ : Type}

/-- With room for its brackets, `read` reads `a` from `j`. -/
def Reads (read : Nat → Json → Option α) (j : Json) (a : α) : Prop :=
  ∀ room, j.depth ≤ room → read room j = some a

/-! ## Sequences -/

theorem mapM_map_eq_some {f : γ → α} {g : γ → β} {read : α → Option β} {cs : List γ}
    (h : ∀ c ∈ cs, read (f c) = some (g c)) : (cs.map f).mapM read = some (cs.map g) := by
  induction cs with
  | nil => rfl
  | cons c cs ih =>
    rw [List.map_cons, List.mapM_cons, h c List.mem_cons_self,
      ih fun c hc => h c (List.mem_cons_of_mem _ hc)]
    rfl

theorem reads_listOf? {read : Nat → Json → Option α} {form : α → Json} {as : List α}
    (h : ∀ a ∈ as, Reads read (form a) a) : Reads (listOf? read) (array (as.map form)) as := by
  intro room hroom
  rw [depth] at hroom
  obtain ⟨room, rfl⟩ : ∃ k, room = k + 1 := ⟨room - 1, by omega⟩
  have hread : ∀ a ∈ as, read room (form a) = some (id a) := by
    intro a ha
    have hdepth : (form a).depth ≤ itemsDepth (as.map form) :=
      depth_le_of_mem_items (List.mem_map_of_mem ha)
    exact h a ha room (by omega)
  exact (mapM_map_eq_some hread).trans (congrArg some as.map_id)

/-! ## Records -/

theorem filter_ofFields_of_notMem {fields : List (String × Json)} {name : String}
    (h : name ∉ fields.map Prod.fst) :
    (fields.map fun f => (some f.1, f.2)).filter (fun f => f.1 == some name) = [] := by
  rw [List.filter_eq_nil_iff]
  rintro f hf heq
  obtain ⟨g, hg, rfl⟩ := List.mem_map.mp hf
  obtain rfl := Option.some.inj (eq_of_beq heq)
  exact h (List.mem_map_of_mem hg)

theorem filter_ofFields {fields : List (String × Json)} (hnodup : (fields.map Prod.fst).Nodup)
    {f : String × Json} (hf : f ∈ fields) :
    (fields.map fun f => (some f.1, f.2)).filter (fun g => g.1 == some f.1) = [(some f.1, f.2)] := by
  induction fields with
  | nil => cases hf
  | cons g fields ih =>
    rw [List.map_cons, List.nodup_cons] at hnodup
    rw [List.map_cons, List.filter_cons]
    rcases List.mem_cons.mp hf with rfl | hf
    · rw [filter_ofFields_of_notMem hnodup.1]
      simp
    · have hne : g.1 ≠ f.1 := fun heq => hnodup.1 (heq ▸ List.mem_map_of_mem hf)
      rw [ih hnodup.2 hf]
      simp [hne]

theorem record?_ofFields {fields : List (String × Json)} {names : List String} (hnodup : names.Nodup)
    (hnames : fields.map Prod.fst = names) :
    record? names (ofFields fields) = some (fields.map Prod.snd) := by
  subst hnames
  have hpresent : ((fields.map fun f => (some f.1, f.2)).all fun f => f.1.isSome) = true := by
    simp [List.all_eq_true]
  have honly : ∀ f ∈ fields, only? f.1 (fields.map fun f => (some f.1, f.2)) = some f.2 := by
    intro f hf
    rw [only?, filter_ofFields hnodup hf]
  exact (guard_bind hpresent _).trans (mapM_map_eq_some honly)

/-- Room for the brackets of a record is room for those of its values, and for one more. -/
theorem exists_room_of_record {fields : List (String × Json)} {room : Nat}
    (h : (ofFields fields).depth ≤ room) : ∃ k, room = k + 1 ∧ ∀ f ∈ fields, f.2.depth ≤ k := by
  rw [ofFields, depth] at h
  refine ⟨room - 1, by omega, fun f hf => ?_⟩
  have hmem : (some f.1, f.2) ∈ fields.map fun f => (some f.1, f.2) :=
    List.mem_map_of_mem (f := fun f : String × Json => (some f.1, f.2)) hf
  have hdepth := depth_le_of_mem_fields hmem
  dsimp only at hdepth
  omega

end Json

end Gridcall
