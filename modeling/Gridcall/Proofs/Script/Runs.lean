import Gridcall.Proofs.Sample.Construct
import Gridcall.Script
import Mathlib

/-!
# Runs of scripts

A script that is put behind another one runs from the state that the first one left, and only if the
first one did not end early. The step counter passes over blank lines, the line counter does not.

* `Script.linesOf_append` : the lines of two texts, the first of which ends where a line ends;
* `Script.answer`, `Script.runLine` : what one line does;
* `Script.Run.andThen`, `Script.runLines_append` : a run goes on where the lines before it stopped;
* `Script.Run.shift`, `Script.runLines_shift` : where lines and steps are counted from;
* `Script.Ends`, `Script.ends_runLines` : a run ends with the last line, or at one that fails
  (`Script.EndsEarly`);
* `Script.run_ne_nesting` : with the sample library no run ends because calls nest too deep;
* `Script.run_append_and_stop` : two scripts one after the other, and where a script stops.
-/

namespace Gridcall

namespace Script

/-! ## Lines -/

/-- Whether a text is empty or ends with the end of a line. -/
def EndsLine (text : List Char) : Prop := text = [] ∨ ∃ init, text = init ++ ['\n']

def prepend (c : Char) : List (List Char) → List (List Char)
  | [] => [[c]]
  | line :: lines => (c :: line) :: lines

theorem prepend_append (c : Char) {lines : List (List Char)} (h : lines ≠ [])
    (rest : List (List Char)) : prepend c (lines ++ rest) = prepend c lines ++ rest := by
  cases lines with
  | nil => exact absurd rfl h
  | cons line lines => rfl

/-- A character that does not end a line belongs to the first line of what follows. -/
theorem linesOf_cons {c : Char} {cs : List Char} (hc : c ≠ '\n')
    (hreturn : c = '\r' → cs.head? ≠ some '\n') : linesOf (c :: cs) = prepend c (linesOf cs) := by
  rw [linesOf.eq_def]
  split
  · next h => cases h
  · next h =>
    obtain ⟨rfl, rfl⟩ := List.cons.inj h
    exact absurd rfl hc
  · next h =>
    obtain ⟨rfl, rfl⟩ := List.cons.inj h
    exact absurd rfl (hreturn rfl)
  · next h =>
    obtain ⟨rfl, rfl⟩ := List.cons.inj h
    cases linesOf cs <;> rfl

theorem linesOf_ne_nil {cs : List Char} (h : cs ≠ []) : linesOf cs ≠ [] := by
  rw [linesOf.eq_def]
  split
  · exact absurd rfl h
  · exact List.cons_ne_nil _ _
  · exact List.cons_ne_nil _ _
  · split <;> exact List.cons_ne_nil _ _

/-- A return right before the end of a line is part of that end. -/
theorem linesOf_return {cs : List Char} (h : cs.head? = some '\n') :
    linesOf ('\r' :: cs) = linesOf cs := by
  obtain ⟨cs, rfl⟩ := List.head?_eq_some_iff.mp h
  rfl

theorem linesOf_append_newline (init rest : List Char) :
    linesOf (init ++ '\n' :: rest) = linesOf (init ++ ['\n']) ++ linesOf rest := by
  induction init with
  | nil => rfl
  | cons c init ih =>
    have hhead : (init ++ '\n' :: rest).head? = (init ++ ['\n']).head? := by cases init <;> rfl
    rw [List.cons_append, List.cons_append]
    by_cases hc : c = '\n'
    · subst hc
      exact congrArg ([] :: ·) ih
    · by_cases hreturn : c = '\r' ∧ (init ++ ['\n']).head? = some '\n'
      · obtain ⟨rfl, hnewline⟩ := hreturn
        rw [linesOf_return hnewline, linesOf_return (hhead.trans hnewline), ih]
      · have hkept : c = '\r' → (init ++ ['\n']).head? ≠ some '\n' := fun h h' => hreturn ⟨h, h'⟩
        rw [linesOf_cons hc (fun h => hhead ▸ hkept h), linesOf_cons hc hkept, ih]
        exact prepend_append c (linesOf_ne_nil (by simp)) _

theorem linesOf_append {text : List Char} (h : EndsLine text) (rest : List Char) :
    linesOf (text ++ rest) = linesOf text ++ linesOf rest := by
  obtain rfl | ⟨init, rfl⟩ := h
  · rfl
  · rw [List.append_assoc, List.singleton_append, linesOf_append_newline]

/-! ## What one line does -/

/-- Whether a line is passed over. -/
def skipped (line : List Char) : Bool := (trimBlank line).isEmpty

def answer (b : Bridge) (line : List Char) (s : MarshalState) :
    Except ScriptError Outcome × MarshalState :=
  match Step.ofLine? line with
  | none => (.error .malformed, s)
  | some step => runStep b step s

def runLine (b : Bridge) (number steps : Nat) (line : List Char) (s : MarshalState) : Run :=
  if skipped line then { output := [], result := .ok steps, state := s }
  else
    match answer b line s with
    | (.error e, s) => { output := [], result := .error (number, e), state := s }
    | (.ok outcome, s) => { output := [outcome.line], result := .ok (steps + 1), state := s }

section

variable {b : Bridge} {number steps : Nat} {line : List Char} {s s' : MarshalState}

theorem runLine_of_skipped (h : skipped line) :
    runLine b number steps line s = { output := [], result := .ok steps, state := s } := by
  rw [runLine, if_pos h]

theorem runLine_of_error {e : ScriptError} (h : skipped line = false)
    (ha : answer b line s = (.error e, s')) :
    runLine b number steps line s =
      { output := [], result := .error (number, e), state := s' } := by
  rw [runLine, h, if_neg Bool.false_ne_true, ha]

theorem runLine_of_ok {outcome : Outcome} (h : skipped line = false)
    (ha : answer b line s = (.ok outcome, s')) :
    runLine b number steps line s =
      { output := [outcome.line], result := .ok (steps + 1), state := s' } := by
  rw [runLine, h, if_neg Bool.false_ne_true, ha]

end

/-! ## One run after another -/

def Run.behind (r : Run) (output : List String) : Run where
  output := output ++ r.output
  result := r.result
  state := r.state

/-- Goes on with the number of steps so far, unless the run ended early. -/
def Run.andThen (r : Run) (next : Nat → MarshalState → Run) : Run :=
  match r.result with
  | .error _ => r
  | .ok steps => (next steps r.state).behind r.output

/-- A run whose lines are counted from a later one, and its steps from a greater number. -/
def Run.shift (r : Run) (lines steps : Nat) : Run where
  output := r.output
  result :=
    match r.result with
    | .ok n => .ok (steps + n)
    | .error (number, e) => .error (lines + number, e)
  state := r.state

section

variable {r : Run} {f g : Nat → MarshalState → Run}

theorem Run.andThen_of_ok {steps : Nat} (h : r.result = .ok steps) :
    r.andThen f = (f steps r.state).behind r.output := by
  rw [Run.andThen, h]

theorem Run.andThen_of_error {e : Nat × ScriptError} (h : r.result = .error e) :
    r.andThen f = r := by
  rw [Run.andThen, h]

theorem Run.behind_andThen (output : List String) :
    (r.behind output).andThen f = (r.andThen f).behind output := by
  cases h : r.result with
  | error e => rw [andThen_of_error h, andThen_of_error (r := r.behind output) h]
  | ok steps =>
    rw [andThen_of_ok h, andThen_of_ok (r := r.behind output) h]
    exact congrArg (Run.mk · _ _) (List.append_assoc ..)

theorem Run.andThen_assoc :
    (r.andThen f).andThen g = r.andThen fun steps s => (f steps s).andThen g := by
  cases h : r.result with
  | error e => rw [andThen_of_error h, andThen_of_error h, andThen_of_error h]
  | ok steps => rw [andThen_of_ok h, andThen_of_ok h, behind_andThen]

theorem Run.result_shift_of_ok {lines steps n : Nat} (h : r.result = .ok n) :
    (r.shift lines steps).result = .ok (steps + n) := by
  rw [shift, h]

theorem Run.result_shift_of_error {lines steps number : Nat} {e : ScriptError}
    (h : r.result = .error (number, e)) :
    (r.shift lines steps).result = .error (lines + number, e) := by
  rw [shift, h]

theorem Run.shift_andThen {lines steps : Nat}
    (h : ∀ n s, g (steps + n) s = (f n s).shift lines steps) :
    (r.shift lines steps).andThen g = (r.andThen f).shift lines steps := by
  cases hr : r.result with
  | error e => rw [andThen_of_error (result_shift_of_error hr), andThen_of_error hr]
  | ok n =>
    rw [andThen_of_ok (result_shift_of_ok hr), andThen_of_ok hr, h]
    rfl

theorem Run.andThen_nil :
    (r.andThen fun steps s => { output := [], result := .ok steps, state := s }) = r := by
  cases h : r.result with
  | error e => exact andThen_of_error h
  | ok steps =>
    rw [andThen_of_ok h, behind, List.append_nil, ← h]

end

theorem runLines_cons (b : Bridge) (number steps : Nat) (line : List Char)
    (lines : List (List Char)) (s : MarshalState) :
    runLines b number steps (line :: lines) s =
      (runLine b number steps line s).andThen fun steps s => runLines b (number + 1) steps lines s := by
  rw [runLines, runLine, skipped, answer]
  split
  · rfl
  · cases Step.ofLine? line with
    | none => rfl
    | some step =>
      dsimp only
      obtain ⟨result, s'⟩ := runStep b step s
      cases result <;> rfl

theorem runLine_shift (b : Bridge) (number steps : Nat) (line : List Char) (s : MarshalState)
    (lines n : Nat) :
    runLine b (lines + number) (n + steps) line s = (runLine b number steps line s).shift lines n := by
  unfold runLine
  split
  · rfl
  · obtain ⟨result, s'⟩ := answer b line s
    cases result <;> rfl

/-- Where lines and steps are counted from makes no difference beyond the numbers. -/
theorem runLines_shift (b : Bridge) (number steps : Nat) (ls : List (List Char)) (s : MarshalState)
    (lines n : Nat) :
    runLines b (lines + number) (n + steps) ls s = (runLines b number steps ls s).shift lines n := by
  induction ls generalizing number steps s with
  | nil => rfl
  | cons line ls ih =>
    rw [runLines_cons, runLines_cons, runLine_shift]
    exact Run.shift_andThen fun steps s => ih (number + 1) steps s

/-- Lines go on from where the lines before them stopped. -/
theorem runLines_append (b : Bridge) (number steps : Nat) (before after : List (List Char))
    (s : MarshalState) :
    runLines b number steps (before ++ after) s =
      (runLines b number steps before s).andThen fun steps s =>
        runLines b (number + before.length) steps after s := by
  induction before generalizing number steps s with
  | nil => rfl
  | cons line before ih =>
    rw [List.cons_append, runLines_cons, runLines_cons, Run.andThen_assoc]
    congr 1
    funext steps s
    rw [ih, List.length_cons, Nat.add_assoc, Nat.add_comm 1]

theorem runLines_concat {b : Bridge} {number steps n : Nat} {lines : List (List Char)}
    {s : MarshalState} (line : List Char) (h : (runLines b number n lines s).result = .ok steps) :
    runLines b number n (lines ++ [line]) s =
      (runLine b (number + lines.length) steps line (runLines b number n lines s).state).behind
        (runLines b number n lines s).output := by
  rw [runLines_append, Run.andThen_of_ok h, runLines_cons]
  exact congrArg (Run.behind · _) Run.andThen_nil

/-! ## Where a run ends -/

/-- The number of lines that are not passed over. -/
def calls (lines : List (List Char)) : Nat := lines.countP fun line => !skipped line

theorem calls_append_singleton (lines : List (List Char)) (line : List Char) :
    calls (lines ++ [line]) = calls lines + if skipped line then 0 else 1 := by
  cases h : skipped line <;> simp [calls, h]

/-- Some lines succeed and leave a state, and the line behind them fails in it. -/
structure EndsEarly (b : Bridge) (s : MarshalState) (before : List (List Char)) (line : List Char)
    (mid : MarshalState) (e : ScriptError) (r : Run) : Prop where
  runs_before : runLines b 1 0 before s =
    { output := r.output, result := .ok (calls before), state := mid }
  length_output : r.output.length = calls before
  not_skipped : skipped line = false
  fails : answer b line mid = (.error e, r.state)

/-- How a run of some lines ends: with the last one, or at one that fails. -/
inductive Ends (b : Bridge) (s : MarshalState) (lines : List (List Char)) (r : Run) : Prop
  | last (hresult : r.result = .ok (calls lines)) (houtput : r.output.length = calls lines)
  | early {before after : List (List Char)} {line : List Char} {mid : MarshalState}
      {e : ScriptError} (hlines : lines = before ++ line :: after)
      (hresult : r.result = .error (before.length + 1, e))
      (h : EndsEarly b s before line mid e r)

theorem ends_runLines (b : Bridge) (s : MarshalState) (lines : List (List Char)) :
    Ends b s lines (runLines b 1 0 lines s) := by
  induction lines using List.reverseRecOn with
  | nil => exact .last rfl rfl
  | append_singleton lines line ih =>
    cases ih with
    | early hlines hresult h =>
      rw [runLines_append, Run.andThen_of_error hresult]
      exact .early (by rw [hlines, List.append_assoc, List.cons_append]) hresult h
    | last hresult houtput =>
      have hlast := runLines_concat line hresult
      have hcalls := calls_append_singleton lines line
      cases hskipped : skipped line with
      | true =>
        rw [hlast, runLine_of_skipped hskipped]
        rw [hskipped] at hcalls
        refine .last ?_ ?_
        · exact congrArg Except.ok hcalls.symm
        · rw [Run.behind, List.append_nil, houtput]
          exact hcalls.symm
      | false =>
        rw [hskipped] at hcalls
        cases ha : answer b line (runLines b 1 0 lines s).state with
        | mk result s' =>
          cases result with
          | ok outcome =>
            rw [hlast, runLine_of_ok hskipped ha]
            refine .last ?_ ?_
            · exact congrArg Except.ok hcalls.symm
            · rw [Run.behind, List.length_append, houtput]
              exact hcalls.symm
          | error e =>
            rw [hlast, runLine_of_error hskipped ha, Run.behind, List.append_nil]
            refine .early rfl ?_ ⟨?_, houtput, hskipped, ha⟩
            · rw [Nat.add_comm]
            · rw [← hresult]

/-- Nothing behind the line at which a run ends early is looked at. -/
theorem EndsEarly.eq_runLines {b : Bridge} {s mid : MarshalState} {before : List (List Char)}
    {line : List Char} {e : ScriptError} {r : Run} (h : EndsEarly b s before line mid e r)
    (hresult : r.result = .error (before.length + 1, e)) (after : List (List Char)) :
    runLines b 1 0 (before ++ line :: after) s = r := by
  obtain ⟨output, result, state⟩ := r
  obtain rfl : result = _ := hresult
  rw [runLines_append, h.runs_before, Run.andThen_of_ok rfl, runLines_cons,
    runLine_of_error h.not_skipped h.fails, Run.andThen_of_error rfl, Run.behind, List.append_nil,
    Nat.add_comm]

/-! ## The sample library -/

/-- The calls of the library end, so no step of a script nests them too deep. -/
theorem runStep_ne_nesting (settings : Settings) (step : Step) (s : MarshalState) :
    (runStep (Sample.bridge settings) step s).1 ≠ .error .nesting := by
  intro h
  cases step with
  | call target args =>
    obtain ⟨answer, s', hcall, -⟩ := Sample.settles_call settings target args s
    rw [runStep, hcall] at h
    cases answer with
    | error unknown => cases h
    | ok v => cases h
  | release handle => cases h

theorem run_ne_nesting (settings : Settings) (text : String) (s : MarshalState) (number : Nat) :
    (run (Sample.bridge settings) text s).result ≠ .error (number, .nesting) := by
  intro h
  cases ends_runLines (Sample.bridge settings) s (linesOf text.toList) with
  | last hresult => cases h.symm.trans hresult
  | @early before after line mid e hlines hresult hends =>
    obtain ⟨-, rfl⟩ := Prod.mk.inj (Except.error.inj (h.symm.trans hresult))
    have hfails := congrArg Prod.fst hends.fails
    unfold answer at hfails
    split at hfails
    · cases hfails
    · exact runStep_ne_nesting settings _ mid hfails

/-! ## Scripts -/

theorem run_append_eq {text : String} (h : EndsLine text.toList) (b : Bridge) (rest : String)
    (s : MarshalState) :
    run b (text ++ rest) s = (run b text s).andThen fun steps s =>
      (run b rest s).shift (linesOf text.toList).length steps := by
  rw [run, String.toList_append, linesOf_append h, runLines_append]
  congr 1
  funext steps s
  rw [run, ← runLines_shift, Nat.add_comm 1]
  rfl

/-- **A script goes on where the one before it stopped, and stops at the first line that fails.** Let a
text end where a line ends. If it runs to its end, then another script behind it runs from the state that
the text left: its output follows that of the text, the last state is the one it leaves, its steps are
added, and if it ends early, its lines are counted from the beginning of the text. If the text ends
early, the other script makes no difference.

A script that runs to its end gives one line of output for each line that is not blank. One that ends
early gives one for each such line before the first line that fails. What stands behind that line has
no effect. -/
theorem run_append_and_stop (b : Bridge) (s : MarshalState) :
    (∀ text rest : String, EndsLine text.toList →
      (∀ n, (run b text s).result = .ok n →
        let r := run b (text ++ rest) s
        let r' := run b rest (run b text s).state
        r.output = (run b text s).output ++ r'.output ∧ r.state = r'.state ∧
          (∀ n', r'.result = .ok n' → r.result = .ok (n + n')) ∧
          ∀ line e, r'.result = .error (line, e) →
            r.result = .error ((linesOf text.toList).length + line, e)) ∧
      (∀ e, (run b text s).result = .error e → run b (text ++ rest) s = run b text s)) ∧
    (∀ text n, (run b text s).result = .ok n →
      n = calls (linesOf text.toList) ∧ (run b text s).output.length = n) ∧
    ∀ text number e, (run b text s).result = .error (number, e) →
      ∃ before line after mid, linesOf text.toList = before ++ line :: after ∧
        number = before.length + 1 ∧ EndsEarly b s before line mid e (run b text s) ∧
        ∀ text' after', linesOf text'.toList = before ++ line :: after' →
          run b text' s = run b text s := by
  refine ⟨fun text rest htext => ⟨fun n hn => ?_, fun e he => ?_⟩, fun text n hn => ?_,
    fun text number e he => ?_⟩
  · intro r r'
    have hr : r = (r'.shift (linesOf text.toList).length n).behind (run b text s).output := by
      rw [show r = _ from run_append_eq htext b rest s, Run.andThen_of_ok hn]
    rw [hr]
    exact ⟨rfl, rfl, fun n' hn' => Run.result_shift_of_ok hn',
      fun line e he => Run.result_shift_of_error he⟩
  · rw [run_append_eq htext, Run.andThen_of_error he]
  · cases ends_runLines b s (linesOf text.toList) with
    | last hresult houtput =>
      obtain rfl := Except.ok.inj (hn.symm.trans hresult)
      exact ⟨rfl, houtput⟩
    | early _ hresult => cases hn.symm.trans hresult
  · cases ends_runLines b s (linesOf text.toList) with
    | last hresult => cases he.symm.trans hresult
    | @early before after line mid e' hlines hresult hends =>
      obtain ⟨rfl, rfl⟩ := Prod.mk.inj (Except.error.inj (he.symm.trans hresult))
      refine ⟨before, line, after, mid, hlines, rfl, hends, fun text' after' hlines' => ?_⟩
      rw [run, hlines']
      exact hends.eq_runLines hresult after'

def makingScript : String := "\x7b\"call\":\"Person\",\"args\":[\x7b\"String\":\"Ada\"\x7d]\x7d\n \n"

/-- Asks for the name of the first object in the heap, then for nothing that is known. -/
def namingScript : String :=
  "\n\x7b\"call\":\"GetName\",\"args\":[\x7b\"String\":\"&Person-1\"\x7d]\x7d\noops\n"

/-- A person is made by one script and named by the next, which ends early at its third line. -/
theorem run_append_and_stop_naming :
    let b := Sample.bridge {}
    let r := run b makingScript b.initialState
    let r' := run b namingScript r.state
    let both := run b (makingScript ++ namingScript) b.initialState
    EndsLine makingScript.toList ∧ EndsLine namingScript.toList ∧ r.result = .ok 1 ∧
      r'.output = ["\x7b\"String\":\"Ada\"\x7d"] ∧ r'.result = .error (3, .malformed) ∧
      both.output = r.output ++ r'.output ∧ both.result = .error (2 + 3, .malformed) ∧
      run b (namingScript ++ makingScript) r.state = r' ∧
      ∃ before line after mid, linesOf namingScript.toList = before ++ line :: after ∧
        EndsEarly b r.state before line mid .malformed r' := by
  intro b r r' both
  have hmaking : EndsLine makingScript.toList := Or.inr ⟨makingScript.toList.dropLast, by decide⟩
  have hnaming : EndsLine namingScript.toList := Or.inr ⟨namingScript.toList.dropLast, by decide⟩
  have hlines : (linesOf makingScript.toList).length = 2 := by decide
  have hok : r.result = .ok 1 := by
    change (run (Sample.bridge {}) makingScript (Sample.bridge {}).initialState).result = .ok 1
    cbv
  have hnamed : (r'.output, r'.result) =
      (["\x7b\"String\":\"Ada\"\x7d"], .error (3, .malformed)) := by
    subst r' r b
    cbv
  obtain ⟨hname, herror⟩ := Prod.mk.inj hnamed
  obtain ⟨houtput, -, -, hresult⟩ :=
    ((run_append_and_stop b b.initialState).1 makingScript namingScript hmaking).1 1 hok
  obtain ⟨hrests, -, hends⟩ := run_append_and_stop b r.state
  obtain ⟨before, line, after, mid, hsplit, -, hearly, -⟩ := hends namingScript 3 .malformed herror
  rw [hlines] at hresult
  exact ⟨hmaking, hnaming, hok, hname, herror, houtput, hresult 3 .malformed herror,
    (hrests namingScript makingScript hnaming).2 _ herror, before, line, after, mid, hsplit, hearly⟩

end Script

end Gridcall
