import Stacklet.Interpreter
import Stacklet.Proofs.PairedRuns

set_option autoImplicit false
set_option relaxedAutoImplicit false

/-!
Printed text is only written. What a machine has printed before a run stays in front of what the run
prints, and has no other part in it.
-/

namespace Stacklet

namespace Machine

def printedAfter (before : String) (m : Machine) : Machine :=
  { m with output := before ++ m.output }

variable {before : String}

private theorem resolve_printedAfter (m : Machine) (mode : ScopingMode) (t : Token) :
    (m.printedAfter before).resolve mode t = m.resolve mode t := by
  have performed (op : Operator) (rest : Stack) (operands : Operands op.signature) :
      op.perform { m.printedAfter before with stack := rest } operands =
        op.perform { m with stack := rest } operands := by
    cases op <;> rfl
  cases t with
  | name word =>
      simp only [resolve, Operator.invoke]
      split
      · simp only [performed]
        rfl
      · rfl
  | _ => rfl

private theorem apply_printedAfter (m : Machine) (c : Change) :
    (m.printedAfter before).apply c = (m.apply c).printedAfter before := by
  cases c <;> simp [apply, printedAfter, String.append_assoc]

private def printing (mode : ScopingMode) (before : String) : Pairing mode mode where
  sim := fun m m' => m' = m.printedAfter before
  code := fun _ => True
  twin := Eq
  excused := fun _ => False
  twin_body := by
    rintro m _ p _ rfl rfl
    rfl
  code_body := fun _ _ _ _ => trivial
  push_int := by
    rintro m _ n rfl
    rfl
  set_depth := by
    rintro m _ f rfl
    rfl
  resolve := by
    rintro m _ t rfl _
    rw [resolve_printedAfter]
    rcases m.resolve mode t with ⟨e | effect, rest⟩
    · exact .failure rfl
    · refine .effect ?_
      cases effect with
      | change c => exact .change (apply_printedAfter { m with stack := rest } c)
      | quit => exact .quit rfl
      | run body => exact .run rfl fun _ _ => trivial
      | times count p => exact .times rfl rfl
      | range first count p => exact .range rfl rfl

/-- What has been printed before a run stays in front of what it prints and has no other part
in it. -/
theorem execute_printedAfter (settings : Settings) (tokens : List Token) (m : Machine) :
    (m.printedAfter before).execute settings tokens =
      ((m.execute settings tokens).1, (m.execute settings tokens).2.printedAfter before) := by
  have matched : Matched (fun m m' => m' = m.printedAfter before) (fun _ => False)
      (m.execute settings tokens) ((m.printedAfter before).execute settings tokens) :=
    (printing settings.mode before).execute_matched settings.limit (fun _ _ => trivial) rfl rfl
  generalize m.execute settings tokens = result at matched ⊢
  generalize (m.printedAfter before).execute settings tokens = result' at matched ⊢
  cases matched with
  | same related =>
      cases related
      rfl
  | excuse never => exact never.elim

end Machine

namespace Interpreter

def printedAfter (before : String) (i : Interpreter) : Interpreter :=
  { i with machine := i.machine.printedAfter before }

theorem execute_printedAfter (before : String) (tokens : List Token) (i : Interpreter) :
    (i.printedAfter before).execute tokens =
      ((i.execute tokens).1, (i.execute tokens).2.printedAfter before) := by
  simp only [execute, printedAfter, Machine.execute_printedAfter]

theorem printedAfter_takeOutput (i : Interpreter) :
    i.takeOutput.2.printedAfter i.takeOutput.1 = i := by
  simp [takeOutput, printedAfter, Machine.printedAfter]

theorem takeOutput_printedAfter (before : String) (i : Interpreter) :
    (i.printedAfter before).takeOutput.2 = i.takeOutput.2 := rfl

theorem printedAfter_empty (i : Interpreter) : i.printedAfter "" = i := by
  simp [printedAfter, Machine.printedAfter]

theorem exists_output_runSource (i : Interpreter) (source : String) :
    ∃ text, (i.runSource source).2.machine.output = i.machine.output ++ text := by
  cases read : Token.ofSource source with
  | error e => exact ⟨"", by simp [runSource_of_error read]⟩
  | ok tokens =>
      have put := execute_printedAfter i.takeOutput.1 tokens i.takeOutput.2
      rw [printedAfter_takeOutput] at put
      rw [runSource_of_ok read, put]
      exact ⟨_, rfl⟩

end Interpreter

end Stacklet
