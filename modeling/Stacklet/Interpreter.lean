import Stacklet.Machine.Execution
import Stacklet.Token.Reader

set_option autoImplicit false
set_option relaxedAutoImplicit false

/-!
The interpreter: a machine with its settings, as a host uses it.
-/

namespace Stacklet

inductive RunError where
  | source (e : SourceError)
  | runtime (e : RuntimeError)

structure Interpreter where
  settings : Settings
  machine : Machine

namespace Interpreter

def defaultLimit : Nat := 10000

def create (settings : Settings) : Interpreter := ⟨settings, Machine.fresh⟩

def push (i : Interpreter) (v : Value) : Interpreter := { i with machine := i.machine.push v }

def pop (i : Interpreter) : Except RuntimeError Value × Interpreter :=
  match i.machine.stack.pop "pop" with
  | .ok (v, rest) => (.ok v, { i with machine := { i.machine with stack := rest } })
  | .error e => (.error e, i)

def peek (i : Interpreter) : Except RuntimeError Value := i.machine.stack.peek "peek"

def define (i : Interpreter) (word : String) (value : Value) : Interpreter :=
  { i with machine := i.machine.apply (.bind word value) }

def lookup (i : Interpreter) (word : String) : Except RuntimeError Value :=
  i.machine.scopes.lookup i.machine.store i.settings.mode word

def setMode (i : Interpreter) (mode : ScopingMode) : Interpreter :=
  { i with settings := { i.settings with mode := mode } }

def clearStack (i : Interpreter) : Interpreter :=
  { i with machine := { i.machine with stack := [] } }

def reset (i : Interpreter) : Interpreter :=
  let (scopes, store) := i.machine.scopes.reset i.machine.store
  { i with machine := { i.machine with store := store, scopes := scopes, stack := [], depth := 0 } }

def takeOutput (i : Interpreter) : String × Interpreter :=
  (i.machine.output, { i with machine := { i.machine with output := "" } })

def execute (i : Interpreter) (tokens : List Token) : Outcome × Interpreter :=
  let (outcome, machine) := i.machine.execute i.settings tokens
  (outcome, { i with machine := machine })

/-- Runs tokens to their end; a program that ends itself fails. -/
def run (i : Interpreter) (tokens : List Token) : Except RuntimeError Unit × Interpreter :=
  match i.execute tokens with
  | (.ok .completed, i) => (.ok (), i)
  | (.ok .terminated, i) => (.error .terminated, i)
  | (.error e, i) => (.error e, i)

def call (i : Interpreter) (p : ProcedureId) : Outcome × Interpreter :=
  let (outcome, machine) := i.machine.call i.settings p
  (outcome, { i with machine := machine })

/-- Reads and runs a source; nothing runs of a source with an error. -/
def runSource (i : Interpreter) (source : String) : Except RunError Flow × Interpreter :=
  match Token.ofSource source with
  | .error e => (.error (.source e), i)
  | .ok tokens =>
      match i.execute tokens with
      | (.ok flow, i) => (.ok flow, i)
      | (.error e, i) => (.error (.runtime e), i)

theorem runSource_of_error {source : String} {e : SourceError}
    (failed : Token.ofSource source = .error e) (i : Interpreter) :
    i.runSource source = (.error (.source e), i) := by
  simp only [runSource, failed]

theorem runSource_of_ok {source : String} {tokens : List Token}
    (read : Token.ofSource source = .ok tokens) (i : Interpreter) :
    i.runSource source = ((i.execute tokens).1.mapError .runtime, (i.execute tokens).2) := by
  simp only [runSource, read]
  rcases i.execute tokens with ⟨e | flow, after⟩
  · rfl
  · rfl

def stackListing (i : Interpreter) : String :=
  "[" ++ " ".intercalate (i.machine.stack.reverse.map i.machine.store.listing) ++ "]"

end Interpreter

end Stacklet
