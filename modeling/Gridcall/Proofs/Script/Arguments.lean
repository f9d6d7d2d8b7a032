import Gridcall.CommandLine
import Mathlib

/-!
# Command lines and their grammar

A command line is a row of items: the option for the settings with the file behind it, or one word. The
file may look like anything, so what a word is depends on all words before it.

* `Arguments.Item`, `Arguments.spelled` : the items, and the words that they stand for. A command line is
  cut into items in one way only (`exists_append_of_spelled`);
* `Arguments.Spells` : the grammar, with what a command line asks for;
* `Arguments.Offends`, `Arguments.FirstOffence` : at which words a command line goes wrong, and how. Words
  behind such a word are still cut into items;
* `Arguments.exists_reading` : a command line is faultless up to its end or up to a word that offends;
* `Arguments.readWords_spelled` : how faultless items are read;
* `Arguments.ofWords_grammar` : what is accepted, and why anything else is refused.
-/

namespace Gridcall.Arguments

/-! ## Items -/

def IsOption (word : String) : Prop := "--".toList <+: word.toList

instance : DecidablePred IsOption := fun word =>
  inferInstanceAs (Decidable ("--".toList <+: word.toList))

theorem isOption_config : IsOption "--config" := by decide

/-- One or two words of a command line that belong together. -/
inductive Item where
  /-- The option for the settings, with the file behind it. -/
  | settings (file : String)
  | single (word : String)

namespace Item

def words : Item → List String
  | settings file => ["--config", file]
  | single word => [word]

def file? : Item → Option String
  | settings file => some file
  | single _ => none

def word? : Item → Option String
  | settings _ => none
  | single word => some word

/-- The option for the settings is not cut off from its file. -/
def WellCut : Item → Prop
  | settings _ => True
  | single word => word ≠ "--config"

def Allowed : Item → Prop
  | settings _ => True
  | single word => ¬ IsOption word

theorem Allowed.wellCut {item : Item} (h : item.Allowed) : item.WellCut := by
  cases item with
  | settings file => trivial
  | single word =>
    rintro rfl
    exact h isOption_config

theorem length_words_pos (item : Item) : 0 < item.words.length := by
  cases item <;> exact Nat.succ_pos _

end Item

def spelled (items : List Item) : List String := items.flatMap Item.words

def files (items : List Item) : List String := items.filterMap Item.file?

def singles (items : List Item) : List String := items.filterMap Item.word?

theorem spelled_cons (item : Item) (items : List Item) :
    spelled (item :: items) = item.words ++ spelled items := List.flatMap_cons

theorem spelled_append (items items' : List Item) :
    spelled (items ++ items') = spelled items ++ spelled items' := List.flatMap_append

theorem singles_append (items items' : List Item) :
    singles (items ++ items') = singles items ++ singles items' := List.filterMap_append

theorem mem_singles_iff {word : String} {items : List Item} :
    word ∈ singles items ↔ .single word ∈ items := by
  unfold singles
  rw [List.mem_filterMap]
  constructor
  · rintro ⟨item, hitem, hword⟩
    cases item with
    | settings file => cases hword
    | single w =>
      obtain rfl := Option.some.inj hword
      exact hitem
  · exact fun h => ⟨_, h, rfl⟩

variable {items items' before after : List Item} {item : Item} {word : String}
  {words rest rest' : List String} {args : Arguments} {e e' : UsageError}

/-- Words are cut into items in one way only: of two cuts that both go well, the longer one begins with
the shorter one. -/
theorem exists_append_of_spelled (hitems : ∀ item ∈ items, item.WellCut)
    (hitems' : ∀ item ∈ items', item.WellCut) (h : spelled items ++ rest = spelled items' ++ rest')
    (hle : (spelled items).length ≤ (spelled items').length) : ∃ after, items' = items ++ after := by
  induction items generalizing items' with
  | nil => exact ⟨items', rfl⟩
  | cons item items ih =>
    cases items' with
    | nil =>
      rw [spelled_cons, List.length_append] at hle
      have hpos := item.length_words_pos
      exact absurd hle (by simp only [spelled, List.flatMap_nil, List.length_nil]; omega)
    | cons item' items' =>
      have hfirst := hitems item List.mem_cons_self
      have hfirst' := hitems' item' List.mem_cons_self
      rw [spelled_cons, spelled_cons, List.append_assoc, List.append_assoc] at h
      obtain rfl : item = item' := by
        cases item <;> cases item' <;> simp_all [Item.words, Item.WellCut]
      rw [spelled_cons, spelled_cons, List.length_append, List.length_append] at hle
      obtain ⟨after, rfl⟩ := ih (fun i hi => hitems i (List.mem_cons_of_mem _ hi))
        (fun i hi => hitems' i (List.mem_cons_of_mem _ hi)) (List.append_cancel_left h) (by omega)
      exact ⟨after, rfl⟩

/-! ## The grammar -/

/-- The grammar: a command line consists of allowed items, one of which is the script. Of several
settings files the last one counts. -/
def Spells (args : Arguments) (words : List String) : Prop :=
  ∃ items, spelled items = words ∧ (∀ item ∈ items, item.Allowed) ∧ singles items = [args.script] ∧
    args.config = (files items).getLast?

/-- A command line that names settings and nothing else. -/
def OnlySettings (words : List String) : Prop :=
  ∃ names : List String, words = names.flatMap fun file => ["--config", file]

/-- What is wrong with the word behind some items. -/
inductive Fault (before : List Item) : List String → UsageError → Prop
  /-- The option for the settings is the last word. -/
  | missingConfig : Fault before ["--config"] .missingConfig
  | unknownOption {word : String} {after : List String} (h : IsOption word) (hne : word ≠ "--config") :
      Fault before (word :: after) (.unknownOption word)
  /-- A script is named, and one was named before. -/
  | secondScript {first word : String} {after : List String} (h : ¬ IsOption word)
      (hfirst : .single first ∈ before) (hscript : ¬ IsOption first) :
      Fault before (word :: after) .secondScript

/-- The word number `i` offends: so many words are cut into items, and it is wrong behind them. -/
def Offends (words : List String) (i : Nat) (e : UsageError) : Prop :=
  ∃ before rest, (∀ item ∈ before, item.WellCut) ∧ words = spelled before ++ rest ∧
    (spelled before).length = i ∧ Fault before rest e

/-- What is wrong with the first word that offends. -/
def FirstOffence (words : List String) (e : UsageError) : Prop :=
  ∃ i, Offends words i e ∧ ∀ j e', Offends words j e' → i ≤ j

theorem Fault.unique (h : Fault before rest e) (h' : Fault before rest e') : e = e' := by
  cases h with
  | missingConfig =>
    cases h' with
    | missingConfig => rfl
    | unknownOption _ hne => exact absurd rfl hne
    | secondScript hword => exact absurd isOption_config hword
  | unknownOption hword hne =>
    cases h' with
    | missingConfig => exact absurd rfl hne
    | unknownOption => rfl
    | secondScript hword' => exact absurd hword hword'
  | secondScript hword =>
    cases h' with
    | missingConfig => exact absurd isOption_config hword
    | unknownOption hword' => exact absurd hword' hword
    | secondScript => rfl

/-! ## Faultless items -/

/-- Allowed items, of which at most one is a script. -/
structure Faultless (items : List Item) : Prop where
  allowed : ∀ item ∈ items, item.Allowed
  singles_le : (singles items).length ≤ 1

theorem faultless_nil : Faultless [] := ⟨by simp, Nat.zero_le 1⟩

namespace Faultless

theorem wellCut (h : Faultless items) : ∀ item ∈ items, item.WellCut := fun item hitem =>
  (h.allowed item hitem).wellCut

theorem snoc (h : Faultless items) (hitem : item.Allowed)
    (hle : (singles items).length + (singles [item]).length ≤ 1) : Faultless (items ++ [item]) where
  allowed i hi := by
    rcases List.mem_append.mp hi with hi | hi
    · exact h.allowed i hi
    · rw [List.mem_singleton.mp hi]
      exact hitem
  singles_le := by rwa [singles_append, List.length_append]

/-- Nothing is wrong with the words of faultless items. -/
theorem not_fault (h : Faultless (before ++ item :: after)) : ¬ Fault before (item.words ++ rest) e := by
  intro hfault
  have hitem := h.allowed item (List.mem_append_right _ List.mem_cons_self)
  cases item with
  | settings file =>
    cases hfault with
    | unknownOption _ hne => exact hne rfl
    | secondScript hword => exact hword isOption_config
  | single word =>
    change Fault before (word :: rest) e at hfault
    cases hfault with
    | missingConfig => exact hitem isOption_config
    | unknownOption hword => exact hitem hword
    | secondScript _ hfirst =>
      have hle := h.singles_le
      have hpos := List.length_pos_of_mem (mem_singles_iff.mpr hfirst)
      rw [singles_append, List.length_append] at hle
      have hcons : (singles (.single word :: after)).length = (singles after).length + 1 := rfl
      omega

/-- No word of faultless items offends. -/
theorem le_of_offends (h : Faultless before) (hwords : words = spelled before ++ rest) {j : Nat}
    (hoffends : Offends words j e) : (spelled before).length ≤ j := by
  obtain ⟨before', rest', hcut, hwords', rfl, hfault⟩ := hoffends
  by_contra hlt
  rw [Nat.not_le] at hlt
  rw [hwords] at hwords'
  obtain ⟨after, rfl⟩ := exists_append_of_spelled hcut h.wellCut hwords'.symm hlt.le
  cases after with
  | nil =>
    rw [List.append_nil] at hlt
    exact Nat.lt_irrefl _ hlt
  | cons item after =>
    rw [spelled_append, List.append_assoc, spelled_cons, List.append_assoc] at hwords'
    rw [← List.append_cancel_left hwords'] at hfault
    exact h.not_fault hfault

end Faultless

/-- A command line is faultless up to its end or up to a word that offends. -/
theorem exists_reading {given : List Item} (hgiven : Faultless given) (words : List String) :
    ∃ before rest, words = spelled before ++ rest ∧ Faultless (given ++ before) ∧
      (rest = [] ∨ ∃ e, Fault (given ++ before) rest e) := by
  induction hlength : words.length using Nat.strong_induction_on generalizing words given with
  | _ n ih =>
    subst hlength
    have hstop : ∀ e, Fault given words e → ∃ before rest, words = spelled before ++ rest ∧
        Faultless (given ++ before) ∧ (rest = [] ∨ ∃ e, Fault (given ++ before) rest e) := fun e he =>
      ⟨[], words, rfl, by rwa [List.append_nil], .inr ⟨e, by rwa [List.append_nil]⟩⟩
    have hstep : ∀ item rest, words = Item.words item ++ rest → Faultless (given ++ [item]) →
        ∃ before rest, words = spelled before ++ rest ∧
          Faultless (given ++ before) ∧ (rest = [] ∨ ∃ e, Fault (given ++ before) rest e) := by
      rintro item rest rfl hitem
      have hpos := item.length_words_pos
      obtain ⟨before, rest', rfl, hbefore, hrest⟩ :=
        ih rest.length (by rw [List.length_append]; omega) hitem rest rfl
      refine ⟨item :: before, rest', ?_, ?_, ?_⟩
      · rw [spelled_cons, List.append_assoc]
      · rwa [List.append_cons]
      · rwa [List.append_cons]
    match words with
    | [] => exact ⟨[], [], rfl, by rwa [List.append_nil], .inl rfl⟩
    | word :: words =>
      by_cases hconfig : word = "--config"
      · subst hconfig
        cases words with
        | nil => exact hstop _ .missingConfig
        | cons file words =>
          exact hstep (.settings file) words rfl (hgiven.snoc trivial hgiven.singles_le)
      · by_cases hoption : IsOption word
        · exact hstop _ (.unknownOption hoption hconfig)
        · cases hsingles : singles given with
          | nil =>
            refine hstep (.single word) words rfl (hgiven.snoc hoption ?_)
            rw [hsingles]
            rfl
          | cons first others =>
            have hfirst := mem_singles_iff.mp (hsingles ▸ List.mem_cons_self : first ∈ singles given)
            exact hstop _ (.secondScript hoption hfirst (hgiven.allowed _ hfirst))

/-! ## Reading -/

theorem isPrefixOf_eq_true_iff : "--".toList.isPrefixOf word.toList = true ↔ IsOption word :=
  List.isPrefixOf_iff_prefix

theorem readWords_settings (config script : Option String) (file : String) (words : List String) :
    readWords config script ("--config" :: file :: words) = readWords (some file) script words := by
  rw [readWords]

theorem readWords_of_isOption (config script : Option String) (hword : IsOption word)
    (hne : word ≠ "--config") (words : List String) :
    readWords config script (word :: words) = .error (.unknownOption word) := by
  rw [readWords, if_pos (isPrefixOf_eq_true_iff.mpr hword)]
  exact hne

theorem readWords_of_not_isOption (config script : Option String) (hword : ¬ IsOption word)
    (words : List String) : readWords config script (word :: words) =
      if script.isSome then .error .secondScript else readWords config (some word) words := by
  rw [readWords, if_neg (mt isPrefixOf_eq_true_iff.mp hword)]
  rintro rfl
  exact hword isOption_config

/-- Faultless items are read: the last file is kept, and the script. -/
theorem readWords_spelled (config script : Option String) (hitems : ∀ item ∈ items, item.Allowed)
    (hle : script.toList.length + (singles items).length ≤ 1) (rest : List String) :
    readWords config script (spelled items ++ rest) =
      readWords ((files items).getLast?.or config) ((singles items).head?.or script) rest := by
  induction items generalizing config script with
  | nil => rfl
  | cons item items ih =>
    have hrest := fun i hi => hitems i (List.mem_cons_of_mem item hi)
    rw [spelled_cons, List.append_assoc]
    cases item with
    | settings file =>
      have hlast : (files (.settings file :: items)).getLast?.or config =
          (files items).getLast?.or (some file) := by
        show (file :: files items).getLast?.or config = _
        rw [List.getLast?_cons]
        cases (files items).getLast? <;> rfl
      rw [hlast]
      exact (readWords_settings config script file _).trans (ih (some file) script hrest hle)
    | single word =>
      have hcons : (singles (.single word :: items)).length = (singles items).length + 1 := rfl
      have hscript : script = none := by
        cases script with
        | none => rfl
        | some _ => exact absurd hle (by rw [hcons, Option.toList_some, List.length_singleton]; omega)
      subst hscript
      have hnone : singles items = [] := List.length_eq_zero_iff.mp (by rw [hcons] at hle; omega)
      have hword : ¬ IsOption word := hitems _ List.mem_cons_self
      refine (readWords_of_not_isOption config none hword _).trans ?_
      refine (ih config (some word) hrest (by rw [hnone]; rfl)).trans ?_
      rw [hnone]
      rfl

theorem readWords_of_fault (config : Option String) (h : Fault before rest e) :
    readWords config (singles before).head? rest = .error e := by
  cases h with
  | missingConfig => rw [readWords]
  | unknownOption hword hne => exact readWords_of_isOption _ _ hword hne _
  | secondScript hword hfirst =>
    rw [readWords_of_not_isOption _ _ hword, if_pos]
    rw [List.isSome_head?]
    simpa using List.ne_nil_of_mem (mem_singles_iff.mpr hfirst)

theorem ofWords_spelled (h : Faultless before) (rest : List String) :
    ofWords (spelled before ++ rest) =
      readWords (files before).getLast? (singles before).head? rest := by
  refine (readWords_spelled none none h.allowed ?_ rest).trans ?_
  · rw [Option.toList_none, List.length_nil, Nat.zero_add]
    exact h.singles_le
  · rw [Option.or_none, Option.or_none]

/-! ## What is accepted and what is refused -/

theorem Spells.ofWords (h : Spells args words) : ofWords words = .ok args := by
  obtain ⟨items, rfl, hallowed, hscript, hconfig⟩ := h
  have hread := ofWords_spelled ⟨hallowed, hscript ▸ le_rfl⟩ []
  rw [List.append_nil, hscript, ← hconfig] at hread
  exact hread

theorem onlySettings_iff : OnlySettings words ↔ ∃ items, spelled items = words ∧ singles items = [] := by
  constructor
  · rintro ⟨names, rfl⟩
    refine ⟨names.map .settings, List.flatMap_map _ _ _, ?_⟩
    unfold singles
    rw [List.filterMap_map]
    exact List.filterMap_eq_nil_iff.mpr fun _ _ => rfl
  · rintro ⟨items, rfl, hnone⟩
    refine ⟨files items, ?_⟩
    induction items with
    | nil => rfl
    | cons item items ih =>
      cases item with
      | settings file => exact congrArg (["--config", file] ++ ·) (ih hnone)
      | single word => cases hnone

theorem OnlySettings.ofWords (h : OnlySettings words) : ofWords words = .error .missingScript := by
  obtain ⟨items, rfl, hnone⟩ := onlySettings_iff.mp h
  have hallowed : ∀ item ∈ items, item.Allowed := by
    intro item hitem
    cases item with
    | settings file => trivial
    | single word => exact absurd (mem_singles_iff.mpr hitem) (hnone ▸ List.not_mem_nil)
  have hread := ofWords_spelled ⟨hallowed, hnone ▸ Nat.zero_le 1⟩ []
  rw [List.append_nil, hnone] at hread
  exact hread

theorem Offends.lt_length {i : Nat} (h : Offends words i e) : i < words.length := by
  obtain ⟨before, rest, -, rfl, rfl, hfault⟩ := h
  have hpos : 0 < rest.length := by cases hfault <;> exact Nat.succ_pos _
  rw [List.length_append]
  omega

theorem Offends.unique {i : Nat} (h : Offends words i e) (h' : Offends words i e') : e = e' := by
  obtain ⟨before, rest, hcut, rfl, rfl, hfault⟩ := h
  obtain ⟨before', rest', hcut', hwords, hlength, hfault'⟩ := h'
  obtain ⟨after, rfl⟩ := exists_append_of_spelled hcut hcut' hwords hlength.ge
  obtain rfl : after = [] := by
    cases after with
    | nil => rfl
    | cons item after =>
      rw [spelled_append, spelled_cons, List.length_append, List.length_append] at hlength
      have hpos := item.length_words_pos
      omega
  rw [List.append_nil] at hwords hfault'
  obtain rfl := List.append_cancel_left hwords
  exact hfault.unique hfault'

theorem FirstOffence.unique (h : FirstOffence words e) (h' : FirstOffence words e') : e = e' := by
  obtain ⟨i, hi, hleast⟩ := h
  obtain ⟨j, hj, hleast'⟩ := h'
  obtain rfl : i = j := Nat.le_antisymm (hleast j e' hj) (hleast' i e hi)
  exact hi.unique hj

/-- No word offends, and the script is there or only settings are; or a first word offends, and what is
wrong with it is the answer. -/
theorem ofWords_cases (words : List String) :
    (∀ i e, ¬ Offends words i e) ∧ ((∃ args, Spells args words) ∨ OnlySettings words) ∨
      ∃ e, FirstOffence words e ∧ ofWords words = .error e := by
  obtain ⟨before, rest, rfl, hfaultless, hrest⟩ := exists_reading faultless_nil words
  rw [List.nil_append] at hfaultless hrest
  rcases hrest with rfl | ⟨e, hfault⟩
  · refine .inl ⟨fun i e hoffends => ?_, ?_⟩
    · have hlt := hoffends.lt_length
      have hle := hfaultless.le_of_offends rfl hoffends
      rw [List.append_nil] at hlt
      omega
    · rw [List.append_nil]
      cases hsingles : singles before with
      | nil => exact .inr (onlySettings_iff.mpr ⟨before, rfl, hsingles⟩)
      | cons script others =>
        have hle := hfaultless.singles_le
        obtain rfl : others = [] := by
          rw [hsingles, List.length_cons] at hle
          exact List.length_eq_zero_iff.mp (by omega)
        exact .inl ⟨⟨(files before).getLast?, script⟩, before, rfl, hfaultless.allowed, hsingles, rfl⟩
  · refine .inr ⟨e, ⟨(spelled before).length, ?_, fun j e' => hfaultless.le_of_offends rfl⟩, ?_⟩
    · exact ⟨before, rest, hfaultless.wellCut, rfl, rfl, hfault⟩
    · rw [ofWords_spelled hfaultless]
      exact readWords_of_fault _ hfault

/-- **A command line is accepted exactly if the grammar has it.** It then asks for the one word that
stands alone, as the script, and for the last file that the option names. Any other command line is
refused for what is wrong with its first word that offends; only if no word offends, and there are
settings alone, the script is missing. -/
theorem ofWords_grammar (words : List String) :
    (∀ args, ofWords words = .ok args ↔ Spells args words) ∧
      ∀ e, ofWords words = .error e ↔
        FirstOffence words e ∨
          e = .missingScript ∧ (∀ i e', ¬ Offends words i e') ∧ OnlySettings words := by
  refine ⟨fun args => ⟨fun hok => ?_, Spells.ofWords⟩, fun e => ⟨fun herr => ?_, ?_⟩⟩
  · rcases ofWords_cases words with ⟨-, ⟨args', hspells⟩ | honly⟩ | ⟨e, -, herr⟩
    · obtain rfl := Except.ok.inj (hspells.ofWords.symm.trans hok)
      exact hspells
    · cases honly.ofWords.symm.trans hok
    · cases herr.symm.trans hok
  · rcases ofWords_cases words with ⟨hnone, ⟨args', hspells⟩ | honly⟩ | ⟨e', hfirst, herr'⟩
    · cases hspells.ofWords.symm.trans herr
    · exact .inr ⟨(Except.error.inj (honly.ofWords.symm.trans herr)).symm, hnone, honly⟩
    · obtain rfl := Except.error.inj (herr'.symm.trans herr)
      exact .inl hfirst
  · rintro (hfirst | ⟨rfl, -, honly⟩)
    · rcases ofWords_cases words with ⟨hnone, -⟩ | ⟨e', hfirst', herr⟩
      · obtain ⟨i, hi, -⟩ := hfirst
        exact absurd hi (hnone i e)
      · rwa [hfirst.unique hfirst']
    · exact honly.ofWords

/-- A file may look like the option, and of two files the last one counts. Of two words that offend the
first one is the reason. -/
example : ofWords ["--config", "--config", "a.jsonl", "--config", "b.toml"] =
      .ok { config := some "b.toml", script := "a.jsonl" } ∧
    ofWords ["a.jsonl", "b.jsonl", "--verbose"] = .error .secondScript := by
  decide

end Gridcall.Arguments
