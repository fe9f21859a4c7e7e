import Stacklet.Command
import Stacklet.Proofs.InputLines
import Stacklet.Proofs.PriorOutput
import Stacklet.Proofs.SourceJoin
import Stacklet.Proofs.TrimmedSource

set_option autoImplicit false
set_option relaxedAutoImplicit false

/-!
A session beside the run of a whole source. A session runs a source line by line, leaves out the
white space around each line and takes the output after it; a run takes the source in one piece.
When each line reads by itself, both do the same to the interpreter, up to the first line that
fails or ends the program.
-/

namespace Stacklet

theorem Machine.execute_nil {settings : Settings} {m : Machine}
    (room : m.depth < settings.limit) : m.execute settings [] = (.ok .completed, m) := by
  obtain ⟨inner, rooms⟩ : ∃ inner, settings.limit - m.depth = inner + 1 :=
    ⟨settings.limit - m.depth - 1, by omega⟩
  unfold execute
  rw [rooms]
  rfl

namespace Interpreter

theorem execute_append_of_completed {i : Interpreter} {ts : List Token}
    (completed : (i.execute ts).1 = .ok .completed) (us : List Token) :
    i.execute (ts ++ us) = (i.execute ts).2.execute us := by
  rw [execute_append]
  generalize i.execute ts = result at completed ⊢
  obtain ⟨outcome, after⟩ := result
  cases completed
  rfl

theorem execute_append_of_ne_completed {i : Interpreter} {ts : List Token}
    (ended : (i.execute ts).1 ≠ .ok .completed) (us : List Token) :
    i.execute (ts ++ us) = i.execute ts := by
  rw [execute_append]
  generalize i.execute ts = result at ended ⊢
  rcases result with ⟨e | (_ | _), after⟩
  · rfl
  · exact absurd rfl ended
  · rfl

end Interpreter

theorem Token.ofSource_intercalate {lines : List String} (nonempty : lines ≠ [])
    {program : String → List Token}
    (reads : ∀ line ∈ lines, ofSource line = .ok (program line)) :
    ofSource ("\n".intercalate lines) = .ok (lines.flatMap program) := by
  induction lines with
  | nil => exact absurd rfl nonempty
  | cons line lines ih =>
      obtain ⟨here, later⟩ := List.forall_mem_cons.mp reads
      cases lines with
      | nil => simpa using here
      | cons next lines =>
          rw [String.intercalate_cons_cons, ofSource_newline here, ih (by simp) later]
          rfl

theorem Command.runProgram_eq (options : RunOptions) (source : String) :
    runProgram options source =
      let ran := (Interpreter.create options.settings).runSource source
      let output := ran.2.takeOutput.1 ++
        if options.showStack then "stack: " ++ ran.2.takeOutput.2.stackListing ++ "\n" else ""
      match ran.1 with
      | .ok _ => success output
      | .error (.runtime e) => failure output [] e.display
      | .error (.source e) => rejected source e := by
  cases read : Token.ofSource source with
  | error e => simp only [runProgram, read, Interpreter.runSource_of_error read]
  | ok tokens =>
      simp only [runProgram, read, Interpreter.runSource_of_ok read]
      rcases (Interpreter.create options.settings).execute tokens with ⟨e | flow, after⟩
      · rfl
      · rfl

namespace Session

structure Turn where
  before : Interpreter
  line : String

namespace Turn

def reply (t : Turn) : Reply := feed t.before t.line

/-- What running the line comes to; a blank line is not run. -/
def run? (t : Turn) : Option (Except RunError Flow × Interpreter) :=
  if content t.line = "" then none else some (t.before.runSource (content t.line))

def printed (t : Turn) : String :=
  match t.run? with
  | none => ""
  | some (_, after) => after.machine.output

end Turn

def Reply.isLast (r : Reply) : Bool := r.finished || !r.transcript.notices.isEmpty

/-- The turns of a session up to the first line that fails or ends it. -/
def turns (i : Interpreter) : List String → List Turn
  | [] => []
  | line :: lines =>
      ⟨i, line⟩ :: if (feed i line).isLast then [] else turns (feed i line).interpreter lines

def afterTurns (i : Interpreter) (turns : List Turn) : Interpreter :=
  turns.foldl (fun _ t => t.reply.interpreter) i

theorem feed_of_read {line : String} {tokens : List Token} (read : Token.ofSource line = .ok tokens)
    (i : Interpreter) :
    feed i line = if content line = "" then say i "" else evaluate i (content line) := by
  have trimmed := Token.ofSource_trim read
  have nonempty {cs : List Char} (shape : cs ≠ []) : String.ofList cs ≠ "" := by
    intro same
    exact shape (by simpa using congrArg String.toList same)
  unfold feed content
  split
  · rename_i blank
    simp [blank]
  · rename_i rest command
    -- No lexeme starts with a colon.
    have unread : Lexeme.scan (String.ofList (':' :: rest)) =
        .error ⟨.unexpectedInput ":", ⟨0, 1⟩⟩ := by
      rw [Lexeme.scan, String.toList_ofList]
      rfl
    rw [command, Token.ofSource, unread] at trimmed
    cases trimmed
  · rename_i blank _
    rw [if_neg (nonempty blank)]

theorem mapError_eq_error_iff {outcome : Outcome} {e : RunError} :
    outcome.mapError RunError.runtime = .error e ↔
      ∃ cause, e = .runtime cause ∧ outcome = .error cause := by
  cases outcome <;> simp [Except.mapError, eq_comm]

theorem mapError_eq_ok_iff {outcome : Outcome} {flow : Flow} :
    outcome.mapError RunError.runtime = .ok flow ↔ outcome = .ok flow := by
  cases outcome <;> simp [Except.mapError]

theorem evaluate_of_read {line : String} {tokens : List Token}
    (read : Token.ofSource line = .ok tokens) (i : Interpreter) :
    (evaluate i line).interpreter = (i.execute tokens).2.takeOutput.2 ∧
      ((evaluate i line).finished = true ↔ (i.execute tokens).1 = .ok .terminated) ∧
      ((evaluate i line).isLast = false ↔ (i.execute tokens).1 = .ok .completed) := by
  unfold evaluate
  rw [Interpreter.runSource_of_ok read]
  rcases i.execute tokens with ⟨e | (_ | _), after⟩
  · exact ⟨rfl, by simp [Except.mapError], by simp [Except.mapError, Reply.isLast]⟩
  · exact ⟨rfl, by simp [Except.mapError, say], by simp [Except.mapError, Reply.isLast, say]⟩
  · exact ⟨rfl, by simp [Except.mapError], by simp [Except.mapError, Reply.isLast]⟩

/-- How a session up to its first line that fails or ends it agrees with a run of all its lines. -/
structure Agreement (i : Interpreter) (turns : List Turn) (ran : Outcome × Interpreter) : Prop where
  replies : ∀ t ∈ turns, t.reply =
    if content t.line = "" then say t.before "" else evaluate t.before (content t.line)
  final : afterTurns i turns = ran.2.takeOutput.2
  printed : String.join (turns.map Turn.printed) = ran.2.machine.output
  fails : ∀ e, ran.1 = .error e ↔ ∃ t ∈ turns, ∃ after, t.run? = some (.error (.runtime e), after)
  quits : ran.1 = .ok .terminated ↔ ∃ t ∈ turns, t.reply.finished = true

namespace Agreement

variable {i : Interpreter} {t : Turn} {turns : List Turn} {ran : Outcome × Interpreter}
  {tokens : List Token}

theorem nil (silent : i.machine.output = "") (room : i.machine.depth < i.settings.limit) :
    Agreement i [] (i.execute []) := by
  have nothing : i.execute [] = (.ok .completed, i) := by
    simp only [Interpreter.execute, Machine.execute_nil room]
  rw [nothing]
  refine ⟨by simp, ?_, by simp [silent], by simp, by simp⟩
  obtain ⟨settings, machine⟩ := i
  obtain ⟨store, stack, scopes, output, depth⟩ := machine
  cases silent
  rfl

private theorem cons
    (reply : t.reply =
      if content t.line = "" then say t.before "" else evaluate t.before (content t.line))
    (sound : ∀ e after, t.run? ≠ some (.error e, after)) (continues : t.reply.finished = false)
    (rest : Agreement t.reply.interpreter turns ran) :
    Agreement t.before (t :: turns) (ran.1, ran.2.printedAfter t.printed) := by
  refine ⟨?_, ?_, ?_, ?_, ?_⟩
  · exact List.forall_mem_cons.mpr ⟨reply, rest.replies⟩
  · rw [Interpreter.takeOutput_printedAfter, ← rest.final]
    rfl
  · rw [List.map_cons, String.join_cons, rest.printed]
    rfl
  · intro e
    rw [rest.fails e]
    simp [sound]
  · rw [rest.quits]
    simp [continues]

theorem cons_blank (blank : content t.line = "") (reply : t.reply = say t.before "")
    (rest : Agreement t.before turns ran) : Agreement t.before (t :: turns) ran := by
  have unrun : t.run? = none := by rw [Turn.run?, if_pos blank]
  have nothing : t.printed = "" := by rw [Turn.printed, unrun]
  have continues : t.reply.finished = false := by
    rw [reply]
    rfl
  have after : Agreement t.reply.interpreter turns ran := by
    rw [reply]
    exact rest
  have whole := cons (by rw [reply, if_pos blank]) (by simp [unrun]) continues after
  rwa [nothing, Interpreter.printedAfter_empty] at whole

theorem cons_completed (nonblank : content t.line ≠ "")
    (read : Token.ofSource (content t.line) = .ok tokens)
    (reply : t.reply = evaluate t.before (content t.line))
    (completed : (t.before.execute tokens).1 = .ok .completed) {later : List Token}
    (rest : Agreement t.reply.interpreter turns (t.reply.interpreter.execute later)) :
    Agreement t.before (t :: turns) (t.before.execute (tokens ++ later)) := by
  obtain ⟨interpreter, finished, _⟩ := evaluate_of_read read t.before
  rw [← reply] at interpreter finished
  have run : t.run? = some (.ok .completed, (t.before.execute tokens).2) := by
    rw [Turn.run?, if_neg nonblank, Interpreter.runSource_of_ok read, completed]
    rfl
  have printed : t.printed = (t.before.execute tokens).2.takeOutput.1 := by
    rw [Turn.printed, run]
    rfl
  have continues : t.reply.finished = false := by
    rw [Bool.eq_false_iff, Ne, finished, completed]
    nofun
  have whole := cons (by rw [reply, if_neg nonblank]) (by simp [run]) continues rest
  -- The run goes on with the output that the session has taken.
  rwa [interpreter, ← Interpreter.execute_printedAfter, printed,
    Interpreter.printedAfter_takeOutput,
    ← Interpreter.execute_append_of_completed completed] at whole

theorem last (nonblank : content t.line ≠ "")
    (read : Token.ofSource (content t.line) = .ok tokens)
    (reply : t.reply = evaluate t.before (content t.line)) :
    Agreement t.before [t] (t.before.execute tokens) := by
  have run : t.run? = some ((t.before.execute tokens).1.mapError .runtime,
      (t.before.execute tokens).2) := by
    rw [Turn.run?, if_neg nonblank, Interpreter.runSource_of_ok read]
  obtain ⟨interpreter, finished, _⟩ := evaluate_of_read read t.before
  rw [← reply] at interpreter finished
  refine ⟨?_, interpreter, ?_, ?_, ?_⟩
  · simpa [nonblank] using reply
  · simp [Turn.printed, run]
  · intro e
    simp [run, mapError_eq_error_iff]
  · simp [finished]

end Agreement

theorem agreement {lines : List String} {program : String → List Token}
    (reads : ∀ line ∈ lines, Token.ofSource line = .ok (program line)) (i : Interpreter)
    (silent : i.machine.output = "") (room : i.machine.depth < i.settings.limit) :
    Agreement i (turns i lines) (i.execute (lines.flatMap program)) := by
  induction lines generalizing i with
  | nil => exact .nil silent room
  | cons line lines ih =>
      obtain ⟨read, later⟩ := List.forall_mem_cons.mp reads
      have trimmed : Token.ofSource (content line) = .ok (program line) := Token.ofSource_trim read
      have reply := feed_of_read read i
      rw [turns, List.flatMap_cons]
      by_cases blank : content line = ""
      · rw [if_pos blank] at reply
        have none : program line = [] := by
          rw [blank] at trimmed
          exact (Except.ok.inj trimmed).symm
        rw [reply, none, List.nil_append]
        exact .cons_blank (t := ⟨i, line⟩) blank reply (ih later i silent room)
      · rw [if_neg blank] at reply
        obtain ⟨interpreter, _, goesOn⟩ := evaluate_of_read trimmed i
        rw [← reply] at interpreter goesOn
        by_cases completed : (i.execute (program line)).1 = .ok .completed
        · have rest := ih later (feed i line).interpreter (by rw [interpreter]; rfl) (by
            rw [interpreter]
            exact Nat.lt_of_le_of_lt (Nat.le_of_eq (depth_execute ..)) room)
          rw [goesOn.mpr completed]
          exact .cons_completed (t := ⟨i, line⟩) blank trimmed reply completed rest
        · rw [Interpreter.execute_append_of_ne_completed completed,
            if_pos (by simpa using mt goesOn.mp completed)]
          exact .last (t := ⟨i, line⟩) blank trimmed reply

theorem map_line_turns (i : Interpreter) (lines : List String) :
    (turns i lines).map Turn.line = lines.take (turns i lines).length := by
  induction lines generalizing i with
  | nil => rfl
  | cons line lines ih =>
      rw [turns, List.map_cons, List.length_cons, List.take_succ_cons]
      split
      · rfl
      · rw [ih]

/-- What a session writes goes through its turns, and from there on if none of them ends it. -/
theorem converse_turns_append (i : Interpreter) (written : Transcript) (lines rest : List String) :
    converse i written ((turns i lines).map Turn.line ++ rest) =
      let wrote := (turns i lines).foldl (fun w t => w.append t.reply.transcript) written
      if (turns i lines).any (·.reply.finished) then wrote
      else converse (afterTurns i (turns i lines)) wrote rest := by
  induction lines generalizing i written with
  | nil => rfl
  | cons line lines ih =>
      have answer : (⟨i, line⟩ : Turn).reply = feed i line := rfl
      simp only [turns, List.map_cons, List.cons_append, converse, List.foldl_cons, List.any_cons,
        afterTurns, answer]
      cases last : (feed i line).isLast with
      | false =>
          have continues : (feed i line).finished = false := (Bool.or_eq_false_iff.mp last).1
          simp only [continues, Bool.false_eq_true, reduceIte, Bool.false_or]
          exact ih (feed i line).interpreter _
      | true =>
          cases finished : (feed i line).finished with
          | false => simp
          | true => simp

theorem converse_turns (i : Interpreter) (written : Transcript) (lines : List String) :
    converse i written ((turns i lines).map Turn.line) =
      ((turns i lines).foldl (fun w t => w.append t.reply.transcript) written).append
        ⟨if (turns i lines).any (·.reply.finished) then "" else farewell, []⟩ := by
  have given := converse_turns_append i written lines []
  rw [List.append_nil] at given
  rw [given]
  split
  · rw [Transcript.append_silent]
  · rfl

end Session

end Stacklet
