import Gridcall.Proofs.Marshal.OnHeap

/-!
# One by one

A list is worked off from left to right: each item in the state that the one before left, up to the
first that fails.

* `OneByOne f as s bs s'` : every item is done; `bs` are the values, and `s'` is the state in the end.
  `oneByOne_iff_states` tells the state in which each item is met;
* `FirstFails f as s e s'` : an item fails after those before it are done; those behind it are not met;
* `mapM_eq_ok_iff`, `mapM_eq_error_iff` : that is what `mapM` does;
* `mapM_flatten` : rows of items are worked off like the items of all rows.
-/

namespace Gridcall

variable {α β σ ε : Type} {f : α → ExceptT ε (StateM σ) β} {as : List α} {bs : List β}
  {s s₁ s' : σ} {e : ε}

/-- Every item is done, each in the state that the one before left. -/
inductive OneByOne (f : α → ExceptT ε (StateM σ) β) : List α → σ → List β → σ → Prop
  | nil (s : σ) : OneByOne f [] s [] s
  | cons {a : α} {as : List α} {b : β} {bs : List β} {s s₁ s' : σ} (hfirst : f a s = (.ok b, s₁))
      (hrest : OneByOne f as s₁ bs s') : OneByOne f (a :: as) s (b :: bs) s'

/-- An item fails after those before it are done. -/
def FirstFails (f : α → ExceptT ε (StateM σ) β) (as : List α) (s : σ) (e : ε) (s' : σ) : Prop :=
  ∃ before a after bs s₁, as = before ++ a :: after ∧ OneByOne f before s bs s₁ ∧
    f a s₁ = (.error e, s')

theorem OneByOne.length_eq (h : OneByOne f as s bs s') : bs.length = as.length := by
  induction h with
  | nil => rfl
  | cons _ _ ih => rw [List.length_cons, List.length_cons, ih]

/-- The states that are met, by the number of items that are done. -/
theorem oneByOne_iff_states : OneByOne f as s bs s' ↔ bs.length = as.length ∧
    ∃ states : Nat → σ, states 0 = s ∧ states as.length = s' ∧
      ∀ i a, as[i]? = some a → ∃ b, bs[i]? = some b ∧ f a (states i) = (.ok b, states (i + 1)) := by
  constructor
  · intro h
    refine ⟨h.length_eq, ?_⟩
    induction h with
    | nil s => exact ⟨fun _ => s, rfl, rfl, by simp⟩
    | @cons a as b bs s s₁ s' hfirst _ ih =>
      obtain ⟨states, hstart, hend, hstep⟩ := ih
      refine ⟨Nat.rec s fun i _ => states i, rfl, hend, fun i => ?_⟩
      cases i with
      | zero =>
        rintro _ ⟨⟩
        refine ⟨b, rfl, ?_⟩
        show f a s = (.ok b, states 0)
        rw [hstart, hfirst]
      | succ i => exact hstep i
  · rintro ⟨hlength, states, rfl, rfl, hstep⟩
    induction as generalizing bs states with
    | nil =>
      obtain rfl := List.length_eq_zero_iff.mp hlength
      exact .nil _
    | cons a as ih =>
      obtain ⟨b, hb, hfirst⟩ := hstep 0 a rfl
      obtain ⟨bs, rfl⟩ : ∃ rest, bs = b :: rest := by
        cases bs with
        | nil => cases hb
        | cons b' rest =>
          obtain rfl := Option.some.inj hb
          exact ⟨rest, rfl⟩
      refine .cons hfirst (ih (Nat.succ.inj hlength) (fun i => states (i + 1)) fun i => ?_)
      exact hstep (i + 1)

/-! ## `mapM` -/

section Bind

variable {act : ExceptT ε (StateM σ) α} {k : α → ExceptT ε (StateM σ) β}

theorem bind_eq_ok_iff {b : β} :
    (act >>= k) s = (.ok b, s') ↔ ∃ a s₁, act s = (.ok a, s₁) ∧ k a s₁ = (.ok b, s') := by
  obtain ⟨answer, s₁, hrun⟩ : ∃ answer s₁, act s = (answer, s₁) := ⟨_, _, rfl⟩
  rw [hrun]
  cases answer with
  | ok a =>
    rw [bind_of_ok hrun]
    refine ⟨fun h => ⟨a, s₁, rfl, h⟩, ?_⟩
    rintro ⟨a', s₁', heq, h⟩
    cases heq
    exact h
  | error e =>
    rw [bind_of_error hrun]
    constructor
    · intro h
      cases h
    · rintro ⟨a', s₁', heq, -⟩
      cases heq

theorem bind_eq_error_iff : (act >>= k) s = (.error e, s') ↔
    act s = (.error e, s') ∨ ∃ a s₁, act s = (.ok a, s₁) ∧ k a s₁ = (.error e, s') := by
  obtain ⟨answer, s₁, hrun⟩ : ∃ answer s₁, act s = (answer, s₁) := ⟨_, _, rfl⟩
  rw [hrun]
  cases answer with
  | ok a =>
    rw [bind_of_ok hrun]
    constructor
    · exact fun h => .inr ⟨a, s₁, rfl, h⟩
    · rintro (h | ⟨a', s₁', heq, h⟩)
      · cases h
      · cases heq
        exact h
  | error e' =>
    rw [bind_of_error hrun]
    constructor
    · intro h
      cases h
      exact .inl rfl
    · rintro (h | ⟨a', s₁', heq, -⟩)
      · cases h
        rfl
      · cases heq

/-- Sequences that start alike and go on alike are alike. -/
theorem bind_congr_run {act' : ExceptT ε (StateM σ) α} {k' : α → ExceptT ε (StateM σ) β}
    (hact : act s = act' s) (hk : ∀ a s', act' s = (.ok a, s') → k a s' = k' a s') :
    (act >>= k) s = (act' >>= k') s := by
  obtain ⟨answer, s₁, hrun⟩ : ∃ answer s₁, act' s = (answer, s₁) := ⟨_, _, rfl⟩
  rw [hrun] at hact
  cases answer with
  | ok a =>
    rw [bind_of_ok hact, bind_of_ok hrun]
    exact hk a s₁ hrun
  | error e => rw [bind_of_error hact, bind_of_error hrun]

/-- What only changes the value fails as before. -/
theorem map_eq_error_iff {g : α → β} :
    (act >>= fun a => pure (g a)) s = (.error e, s') ↔ act s = (.error e, s') := by
  rw [bind_eq_error_iff]
  constructor
  · rintro (h | ⟨a, s₁, -, h⟩)
    · exact h
    · cases h
  · exact .inl

end Bind

theorem mapM_eq_ok_iff : as.mapM f s = (.ok bs, s') ↔ OneByOne f as s bs s' := by
  induction as generalizing bs s with
  | nil =>
    rw [List.mapM_nil]
    constructor
    · intro h
      cases h
      exact .nil _
    · intro h
      cases h
      rfl
  | cons a as ih =>
    rw [List.mapM_cons, bind_eq_ok_iff]
    constructor
    · rintro ⟨b, s₁, hfirst, hrest⟩
      obtain ⟨rest, s₂, hrun, hpure⟩ := bind_eq_ok_iff.mp hrest
      cases hpure
      exact .cons hfirst (ih.mp hrun)
    · intro h
      cases h with
      | @cons _ _ b rest _ s₁ _ hfirst hrest =>
        exact ⟨b, s₁, hfirst, bind_eq_ok_iff.mpr ⟨rest, s', ih.mpr hrest, rfl⟩⟩

theorem mapM_eq_error_iff : as.mapM f s = (.error e, s') ↔ FirstFails f as s e s' := by
  induction as generalizing s with
  | nil =>
    rw [List.mapM_nil]
    constructor
    · intro h
      cases h
    · rintro ⟨before, a, after, -, -, heq, -⟩
      simp at heq
  | cons a as ih =>
    rw [List.mapM_cons, bind_eq_error_iff]
    constructor
    · rintro (hfirst | ⟨b, s₁, hfirst, hrest⟩)
      · exact ⟨[], a, as, [], s, rfl, .nil s, hfirst⟩
      · obtain ⟨before, a', after, bs, s₂, rfl, hbefore, hfail⟩ := ih.mp (map_eq_error_iff.mp hrest)
        exact ⟨a :: before, a', after, b :: bs, s₂, rfl, .cons hfirst hbefore, hfail⟩
    · rintro ⟨before, a', after, bs, s₂, heq, hbefore, hfail⟩
      cases hbefore with
      | nil =>
        obtain ⟨rfl, rfl⟩ := List.cons.inj heq
        exact .inl hfail
      | @cons a₀ before b bs _ s₁ _ hfirst hrest =>
        obtain ⟨rfl, rfl⟩ := List.cons.inj heq
        exact .inr ⟨b, s₁, hfirst,
          map_eq_error_iff.mpr (ih.mpr ⟨before, a', after, bs, s₂, rfl, hrest, hfail⟩)⟩

/-- Rows of items are worked off like the items of all rows. -/
theorem mapM_flatten (f : α → ExceptT ε (StateM σ) β) (rows : List (List α)) :
    rows.flatten.mapM f = (do return (← rows.mapM fun row => row.mapM f).flatten) := by
  induction rows with
  | nil => rfl
  | cons row rows ih =>
    simp only [List.flatten_cons, List.mapM_append, ih, List.mapM_cons, bind_assoc, pure_bind]

end Gridcall
