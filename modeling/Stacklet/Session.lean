import Stacklet.Interpreter
import Stacklet.Text.Blank

set_option autoImplicit false
set_option relaxedAutoImplicit false

/-!
A session: lines are read one after the other, each is run on the same interpreter, and the stack
is shown after it. A line that starts with a colon is a command to the session.
-/

namespace Stacklet

inductive Notice where
  | line (text : String)
  | report (source : String) (e : SourceError)

structure Transcript where
  output : String
  notices : List Notice

namespace Transcript

def empty : Transcript := ⟨"", []⟩

def append (t u : Transcript) : Transcript := ⟨t.output ++ u.output, t.notices ++ u.notices⟩

end Transcript

namespace Session

structure Reply where
  interpreter : Interpreter
  transcript : Transcript
  finished : Bool

def banner : String := "pscript 0.1.0\nType :help for help, :quit to exit.\n\n"

def farewell : String := "Goodbye!\n"

/-- Rows of `width` words; `row` holds the words of the row being filled, the last one first. -/
def rows (width : Nat) (row : List String) : List String → List (List String)
  | [] => if row.isEmpty then [] else [row.reverse]
  | word :: words =>
      if row.length + 1 = width then (word :: row).reverse :: rows width [] words
      else rows width (word :: row) words

def help : String :=
  "\n".intercalate
    (["pscript REPL Commands:",
      "  :help, :h, :?          Show this help",
      "  :quit, :q              Exit the REPL",
      "  :stack, :s             Show the operand stack",
      "  :clear                 Empty the operand stack",
      "  :reset                 Clear the stack and every definition",
      "  :scope [dynamic|lexical]  Show or set the scoping mode",
      "",
      "You can enter:",
      "  - Literals: 42 3.5 (text) \"text\" true",
      "  - Definitions: 5 /x   or   (x) 5 def",
      "  - Procedures: \x7b 2 mul \x7d  (pushed)   [ 2 mul ]  (run inline)",
      "  - Control flow: 1 5 \x7b print \x7d for   true \x7b 1 \x7d \x7b 2 \x7d ifelse",
      "",
      "Builtin operators:"]
      ++ (rows 10 [] Operator.names).map fun row => "  " ++ " ".intercalate row) ++ "\n"

def say (i : Interpreter) (output : String) : Reply := ⟨i, ⟨output, []⟩, false⟩

def showStack (i : Interpreter) : Reply := say i (i.stackListing ++ "\n")

def command (i : Interpreter) (line : String) : Reply :=
  let words := (Text.words line.toList).map String.ofList
  let head := words.headD ""
  if head = ":quit" ∨ head = ":q" ∨ head = ":exit" then ⟨i, ⟨farewell, []⟩, true⟩
  else if head = ":help" ∨ head = ":h" ∨ head = ":?" then say i help
  else if head = ":stack" ∨ head = ":s" then showStack i
  else if head = ":clear" then showStack i.clearStack
  else if head = ":reset" then say i.reset "Interpreter reset.\n"
  else if head = ":scope" then
    match words.tail.head? with
    | none => say i ("Scoping: " ++ i.settings.mode.label ++ "\n")
    | some label =>
        match ScopingMode.ofLabel label with
        | .ok mode => say (i.setMode mode) ("Scoping: " ++ mode.label ++ "\n")
        | .error message => ⟨i, ⟨"", [.line message]⟩, false⟩
  else say i ("Unknown command: " ++ line ++ "\nType :help for help.\n")

def evaluate (i : Interpreter) (line : String) : Reply :=
  let (result, after) := i.runSource line
  let (printed, after) := after.takeOutput
  match result with
  | .ok .completed => say after (printed ++ after.stackListing ++ "\n")
  | .ok .terminated => ⟨after, ⟨printed ++ farewell, []⟩, true⟩
  | .error (.runtime e) =>
      ⟨after, ⟨printed ++ after.stackListing ++ "\n", [.line e.display]⟩, false⟩
  | .error (.source e) => ⟨after, ⟨printed, [.report line e]⟩, false⟩

/-- Answers a line. White space around it does not count, and an empty line does nothing. -/
def feed (i : Interpreter) (line : String) : Reply :=
  match Text.trim line.toList with
  | [] => say i ""
  | ':' :: rest => command i (String.ofList (':' :: rest))
  | cs => evaluate i (String.ofList cs)

def converse (i : Interpreter) (written : Transcript) : List String → Transcript
  | [] => written.append ⟨farewell, []⟩
  | line :: lines =>
      let reply := feed i line
      let written := written.append reply.transcript
      if reply.finished then written else converse reply.interpreter written lines

end Session

end Stacklet
