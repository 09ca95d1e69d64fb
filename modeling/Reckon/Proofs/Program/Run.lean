import Reckon.Program.Run
import Reckon.Proofs.Faults
import Reckon.Proofs.Program.Arguments

/-!
# An expression as an argument, and at the prompt

An expression is given to the program as an argument or typed when it is asked for.  It is the same
calculation, and with a value the program finishes with status zero and writes it; at the prompt it
writes a line before that.

The argument has to be taken for an expression first, and there the two part: an expression that
begins with `-` is taken for an option, unless it is a negative number or has a space in it, and
since there is no such option the program does not even begin to evaluate it (`run_evaluable`).  So
`-3 + 4` can be given as an argument, and `-3+4` cannot (`run_hidden_sum`).
-/

set_option autoImplicit false

namespace Reckon
namespace Program

variable {around : Settings.Surroundings} {present explanation refusal : List Text}
  {e r name : Text} {scale : Int}

/-! ## Starting a run -/

theorem store_fix (around : Settings.Surroundings) (level : Text) :
    (around.fix level).2.store = around.store := by
  rw [Settings.Surroundings.fix]
  split
  · rfl
  · split <;> rfl

/-- To ask for a logger changes no settings. -/
theorem store_openLogger (around : Settings.Surroundings) (name : Option Text) :
    (around.openLogger name).2.store = around.store := by
  unfold Settings.Surroundings.openLogger
  split
  · rfl
  · exact store_fix around _

/-- The finish of a run that evaluates an expression. -/
def finishOf (around : Settings.Surroundings) (expression : Text) (scale : Option Int) :
    Except Break Finish :=
  finishCalculation (around.openLogger programLogger).2.tellsDetails expression
    (calculate around.store (.string expression) scale)

theorem startEvaluation_eq (h : (around.openLogger programLogger).1 = .ok name)
    (expression : Option Text) (scale : Option Int) :
    startEvaluation around expression scale =
      match expression with
      | some expression => (finishOf around expression scale).map .finished
      | none => .ok (.asking promptLine fun expression ↦ finishOf around expression scale) := by
  have hstore := store_openLogger around programLogger
  unfold finishOf startEvaluation
  split
  · next heq => rw [heq] at h; cases h
  · next heq =>
    rw [heq] at hstore ⊢
    dsimp only at hstore
    cases expression <;> simp only [hstore]

/-- With nothing missing, a run starts with what its arguments ask for. -/
theorem start_eq (hfiles : missing present = []) (arguments : List Text) :
    start ⟨arguments, present, around, explanation, refusal⟩ =
      match request arguments with
      | .evaluate expression scale => startEvaluation around expression scale
      | .help => .ok (.finished ⟨0, explanation, []⟩)
      | .invalid => .ok (.finished ⟨2, [], refusal⟩) := by
  cases hrequest : request arguments <;> simp only [start, hfiles, hrequest]

theorem firstLine?_append (hline : '\n' ∉ e) (rest : Text) :
    firstLine? (e ++ '\n' :: rest) = some e := by
  have htake : (e ++ '\n' :: rest).takeWhile (· ≠ '\n') = e := by
    rw [List.takeWhile_append_of_pos]
    · simp
    · exact fun c hc ↦ decide_eq_true (by rintro rfl; exact hline hc)
  rw [firstLine?, htake]
  simp

/-! ## Expressions with a value -/

/-- A run with a value finishes with status zero, and writes it. -/
theorem exists_finishOf_of_result (around : Settings.Surroundings)
    (h : (calculate around.store (.string e) (some scale)).result = .ok r) :
    ∃ finish, finishOf around e (some scale) = .ok finish ∧ finish.status = 0 ∧
      finish.output = [r] := by
  rw [finishOf, finishCalculation, h]
  exact ⟨_, rfl, rfl, rfl⟩

/-- Minus signs alone have no value. -/
theorem ne_hyphens_of_outcome_evaluate {a : Answer} (h : (evaluate scale e).outcome = .ok a) :
    e ≠ ['-'] ∧ e ≠ ['-', '-'] := by
  -- There is no division in them, so what they are reduced to at one scale they are at any.
  have hreduce : ∀ s ∈ [['-'], ['-', '-']],
      (Nested.reduce 2 s).outcome = .ok s ∧ Literal.ofText? s = none ∧ '/' ∉ s := by
    intro s hs
    refine ⟨Nested.outcome_reduce_of_within 9 ?_, ?_, ?_⟩ <;> revert s <;> decide +kernel
  have hnone : ∀ s ∈ [['-'], ['-', '-']], (evaluate scale s).outcome = .error (.notNumeral s) := by
    intro s hs
    obtain ⟨hreduce, hliteral, hslash⟩ := hreduce s hs
    have hsame : Nested.reduce scale s = Nested.reduce 2 s :=
      Nested.reduce_eq_of_not_mem_slash hslash
    rw [outcome_evaluate, hsame, hreduce, Except.bind, conclude, hliteral]
  constructor
  · rintro rfl
    rw [hnone _ (by simp)] at h
    cases h
  · rintro rfl
    rw [hnone _ (by simp)] at h
    cases h

/-- **An expression with a value, at the prompt and as an argument.**  Typed at the prompt, it is
evaluated and its answer is written, whatever follows it in the input.  As an argument it comes to
the same finish, apart from the line that asks for it, if it does not read as an option; otherwise
the arguments are refused, with whatever there is to say on that.  They are refused in both cases if
the scale has too many digits. -/
theorem run_evaluable (hfiles : missing present = [])
    (hlogger : (around.openLogger programLogger).1 = .ok name) (hline : '\n' ∉ e)
    (hr : (calculate around.store (.string e) (some scale)).result = .ok r) (input rest : Text) :
    ∃ finish : Finish, finish.status = 0 ∧ finish.output = [r] ∧
      run ⟨[scaleOption, Numeral.ofInt scale], present, around, explanation, refusal⟩
          (e ++ '\n' :: rest) =
        .ok (if Numeral.isOverlong scale.natAbs then ⟨2, [], refusal⟩
          else { finish with output := promptLine :: finish.output }) ∧
      run ⟨[e, scaleOption, Numeral.ofInt scale], present, around, explanation, refusal⟩ input =
        .ok (if Numeral.isOverlong scale.natAbs || readsAsOption e then ⟨2, [], refusal⟩
          else finish) := by
  obtain ⟨a, ha, -⟩ := result_calculate_eq_ok_iff.1 hr
  obtain ⟨hhyphen, hhyphens⟩ := ne_hyphens_of_outcome_evaluate ha
  have hstrays := strays_eq_nil_of_outcome_evaluate ha
  obtain ⟨finish, hfinish, hstatus, houtput⟩ := exists_finishOf_of_result around hr
  refine ⟨finish, hstatus, houtput, ?_, ?_⟩
  · rw [run, start_eq hfiles, request_scale]
    cases Numeral.isOverlong scale.natAbs with
    | true => rfl
    | false => simp [startEvaluation_eq hlogger, firstLine?_append hline, hfinish, Except.map]
  · rw [run, start_eq hfiles, request_argument hstrays hhyphen hhyphens]
    cases Numeral.isOverlong scale.natAbs || readsAsOption e with
    | true => rfl
    | false => simp [startEvaluation_eq hlogger, hfinish, Except.map]

/-- With spaces in it, a sum that begins with a negative number can be given in both ways. -/
theorem run_evaluable_spaced_sum :
    ∃ finish : Finish, finish.status = 0 ∧ finish.output = ["= 1.00".toList] ∧
      run ⟨["--scale".toList, "2".toList], [], ⟨.fresh, none, none⟩, [], []⟩ "-3 + 4\n".toList =
        .ok { finish with output := promptLine :: finish.output } ∧
      run ⟨["-3 + 4".toList, "--scale".toList, "2".toList], [], ⟨.fresh, none, none⟩, [], []⟩
        [] = .ok finish := by
  have houtcome : (evaluate 2 "-3 + 4".toList).outcome = .ok ⟨⟨false, 100, -2⟩, false⟩ :=
    outcome_evaluate_of_within 9 (by decide +kernel)
  have hr : (calculate .fresh (.string "-3 + 4".toList) (some 2)).result =
      .ok "= 1.00".toList :=
    result_calculate_eq_ok_iff.2 ⟨_, houtcome, by decide⟩
  have hshort : Numeral.isOverlong (2 : Int).natAbs = false := by decide +kernel
  have hread : readsAsOption "-3 + 4".toList = false := by decide
  have hlogger : (Settings.Surroundings.openLogger ⟨.fresh, none, none⟩ programLogger).1 =
      .ok programLogger := rfl
  obtain ⟨finish, hstatus, houtput, hprompt, hargument⟩ :=
    run_evaluable (rfl : missing [] = []) hlogger (by decide) hr [] []
  rw [hshort] at hprompt
  rw [hshort, hread] at hargument
  exact ⟨finish, hstatus, houtput, hprompt, hargument⟩

/-- `-3+4` has a value, and is taken for an option. -/
theorem run_hidden_sum :
    (calculate .fresh (.string "-3+4".toList) (some 2)).result = .ok "= 1.00".toList ∧
      ∀ explanation refusal, run ⟨["-3+4".toList, "--scale".toList, "2".toList], [],
        ⟨.fresh, none, none⟩, explanation, refusal⟩ [] = .ok ⟨2, [], refusal⟩ := by
  have houtcome : (evaluate 2 "-3+4".toList).outcome = .ok ⟨⟨false, 100, -2⟩, false⟩ :=
    outcome_evaluate_of_within 9 (by decide +kernel)
  exact ⟨result_calculate_eq_ok_iff.2 ⟨_, houtcome, by decide⟩, fun _ _ ↦ rfl⟩

end Program
end Reckon
