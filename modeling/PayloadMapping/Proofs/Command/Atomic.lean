import PayloadMapping.Command.Help
import PayloadMapping.Proofs.Command.Stages

set_option autoImplicit false

/-!
# All or nothing

A transform hands over all of its output or nothing at all, whichever stage fails and however many
inputs were evaluated before. An attempt to write a file leaves the file as it was or holding the
whole text.
-/

namespace PayloadMapping.Command

/-- Writing a text under a file's name: it succeeds, or the file stays as it was. -/
abbrev Attempt := String → String → Except FileError Unit

/-- There is an output, but no place for it: its path names no file that can be written, or the
attempt to write it fails. -/
inductive Homeless (files : Files) (attempt : Attempt) (request : TransformRequest) : Prop
  | target {path : String} {e : FileError} (houtput : request.output = some path)
      (htarget : files.target path = .error e)
  | attempt {path name : String} {results : List Value} {e : FileError}
      (houtput : request.output = some path) (htarget : files.target path = .ok name)
      (hready : Ready files request results)
      (hattempt : attempt name (outputText results) = .error e)

structure Outcome.Nothing (outcome : Outcome) : Prop where
  printed : outcome.printed = ""
  written : outcome.written = none
  reported : ∃ failure, outcome.failure = some failure

/-- The text is in one place: in the file that was asked for, or else it is printed. -/
def Outcome.HandsOver (outcome : Outcome) (files : Files) (attempt : Attempt)
    (output : Option String) (text : String) : Prop :=
  match output with
  | none => outcome.printed = text ∧ outcome.written = none
  | some path => outcome.printed = "" ∧ ∃ name, files.target path = .ok name ∧
      attempt name text = .ok () ∧ outcome.written = some (name, text)

variable {files : Files} {request : TransformRequest} {attempt : Attempt}

theorem failed_nothing (failure : Failure) (notices : List Notice) :
    (failed failure notices).Nothing := ⟨rfl, rfl, failure, rfl⟩

theorem afterWriting_failed (failure : Failure) (notices : List Notice) :
    (failed failure notices).afterWriting attempt = failed failure notices := rfl

theorem deliver_cases {results : List Value} (hready : Ready files request results)
    (attempt : Attempt) (notices : List Notice) :
    let outcome := (deliver files request.output (outputText results) notices).afterWriting attempt
    (Homeless files attempt request ∧ ∃ failure, outcome = failed failure notices) ∨
      outcome.exit = 0 ∧ outcome.HandsOver files attempt request.output (outputText results) := by
  intro outcome
  cases houtput : request.output with
  | none =>
    right
    simp [outcome, houtput, deliver, Outcome.afterWriting, Outcome.HandsOver]
  | some path =>
    cases htarget : files.target path with
    | error e =>
      left
      refine ⟨.target houtput htarget, ⟨"failed to write " ++ path, [e.message]⟩, ?_⟩
      simp [outcome, houtput, deliver, htarget, writeFailed, afterWriting_failed]
    | ok name =>
      cases hattempt : attempt name (outputText results) with
      | error e =>
        left
        refine ⟨.attempt houtput htarget hready hattempt, ⟨"failed to write " ++ name, [e.message]⟩,
          ?_⟩
        simp [outcome, houtput, deliver, htarget, Outcome.afterWriting, hattempt, writeFailed]
      | ok =>
        right
        simp [outcome, houtput, deliver, htarget, Outcome.afterWriting, hattempt,
          Outcome.HandsOver]

theorem Homeless.not_handsOver {results : List Value} {outcome : Outcome}
    (h : Homeless files attempt request) (hready : Ready files request results) :
    ¬ outcome.HandsOver files attempt request.output (outputText results) := by
  cases h with
  | target houtput htarget =>
    rw [houtput]
    rintro ⟨-, name, hname, -⟩
    cases hname.symm.trans htarget
  | attempt houtput htarget hothers hattempt =>
    obtain rfl := hready.unique hothers
    rw [houtput]
    rintro ⟨-, name, hname, hwritten, -⟩
    obtain rfl := Except.ok.inj (hname.symm.trans htarget)
    cases hwritten.symm.trans hattempt

/-- A transform ends with the exit code 1 exactly if loading or evaluating fails for any of what was
asked for, or the output has no place. Then nothing is printed and no file is written. Otherwise the
exit code is 0 and the whole output is in one place. -/
theorem transform_all_or_nothing (files : Files) (attempt : Attempt) {arguments : List String}
    {request : TransformRequest} (h : Request.ofArguments arguments = .transform request) :
    let outcome := (run files arguments).afterWriting attempt
    (outcome.exit = 1 ↔ Blocked files request ∨ Homeless files attempt request) ∧
    (outcome.exit = 1 → outcome.Nothing) ∧
    (outcome.exit ≠ 1 → outcome.exit = 0 ∧ ∃ results, Ready files request results ∧
      outcome.HandsOver files attempt request.output (outputText results)) := by
  intro outcome
  have hrun : outcome = (transform files request).afterWriting attempt := by
    simp only [outcome, run, h]
  obtain ⟨hblocked, failure, notices, hran⟩ | ⟨results, notices, hready, hran⟩ :=
    transform_cases files request
  · rw [hran, afterWriting_failed] at hrun
    rw [hrun]
    exact ⟨iff_of_true rfl (.inl hblocked), fun _ => failed_nothing _ _, fun h => absurd rfl h⟩
  · rw [hran] at hrun
    obtain ⟨hhomeless, failure, hfailed⟩ | ⟨hexit, hover⟩ := deliver_cases hready attempt notices
    · rw [← hrun] at hfailed
      rw [hfailed]
      exact ⟨iff_of_true rfl (.inr hhomeless), fun _ => failed_nothing _ _, fun h => absurd rfl h⟩
    · rw [← hrun] at hexit hover
      have hclear : ¬ (Blocked files request ∨ Homeless files attempt request) := by
        rintro (hblocked | hhomeless)
        · exact hblocked.not_ready hready
        · exact hhomeless.not_handsOver hready hover
      have hone : outcome.exit ≠ 1 := by simp [hexit]
      exact ⟨iff_of_false hone hclear, fun h => absurd h hone,
        fun _ => ⟨hexit, results, hready, hover⟩⟩

/-- The second input fails after the first one has been evaluated. -/
theorem transform_all_or_nothing_second_input :
    let trimmed := "\x7b\"from\":\"a\",\"to\":\"b\",\"action\":\x7b\"action_type\":\"trim\"\x7d\x7d"
    let directory : Directory :=
      [("legs.json", "\x7b\"field_set\":[" ++ trimmed ++ "]\x7d"),
        ("one.json", "\x7b\"a\":\" x\"\x7d"), ("two.json", "\x7b\"a\":[]\x7d")]
    let arguments :=
      ["transform", "one.json", "two.json", "--strict", "-m", "legs.json", "-o", "out.json"]
    let request : TransformRequest :=
      { inputs := ["one.json", "two.json"], mapping := "legs.json", output := some "out.json",
        config := none, providerAttributes := none, strict := true, report := false }
    let outcome := (run directory.files arguments).afterWriting fun _ _ => .ok ()
    Request.ofArguments arguments = .transform request ∧ outcome.exit = 1 ∧ outcome.Nothing := by
  intro trimmed directory arguments request outcome
  have hrequest : Request.ofArguments arguments = .transform request := by decide +kernel
  have hexit : outcome.exit = 1 := by decide +kernel
  obtain ⟨_, hnothing, _⟩ := transform_all_or_nothing directory.files (fun _ _ => .ok ()) hrequest
  exact ⟨hrequest, hexit, hnothing hexit⟩

end PayloadMapping.Command
