import Stacklet.Operator.Effect

set_option autoImplicit false
set_option relaxedAutoImplicit false

/-!
Running programs. A token is first resolved to an effect, which looks at the state only, and the
effect is then carried out. Lists of tokens run inside each other down to a limit; the recursion is
on how many more levels there are room for, so every run ends.
-/

namespace Stacklet

inductive Flow where
  | completed
  | terminated
deriving DecidableEq

abbrev Outcome := Except RuntimeError Flow

structure Settings where
  mode : ScopingMode
  limit : Nat
deriving DecidableEq

namespace Machine

/-- What a name asks for that is no operator: a procedure bound to it runs, another value bound to
it is pushed, and an unbound name is pushed as a text. -/
def meaning (m : Machine) (mode : ScopingMode) (word : String) : Effect :=
  match m.find? mode word with
  | some (.procedure p) => .run (m.store.body p)
  | some v => .push v
  | none => .push (.text word)

def resolve (m : Machine) (mode : ScopingMode) : Token → Except RuntimeError Effect × Stack
  | .number n => (.ok (.push (.number n)), m.stack)
  | .bool b => (.ok (.push (.bool b)), m.stack)
  | .text s => (.ok (.push (.text s)), m.stack)
  | .procedure body => (.ok (.change (.makeProcedure body)), m.stack)
  | .inline body => (.ok (.run body), m.stack)
  | .define word =>
      match m.stack with
      | [] => (.error (.stackUnderflow ("/" ++ word)), [])
      | v :: rest => (.ok (.change (.bind word v)), rest)
  | .name word =>
      match Operator.ofName? word with
      | some op => op.invoke m
      | none => (.ok (m.meaning mode word), m.stack)

@[inline] def andThen (result : Outcome × Machine) (next : Machine → Outcome × Machine) :
    Outcome × Machine :=
  match result with
  | (.ok .completed, m) => next m
  | ended => ended

/-- Runs the tokens that `p` holds, `count` times; each time those that it holds then. -/
def runTimes (enter : List Token → Machine → Outcome × Machine) (p : ProcedureId) :
    (count : Nat) → Machine → Outcome × Machine
  | 0, m => (.ok .completed, m)
  | count + 1, m => andThen (enter (m.store.body p) m) (runTimes enter p count)

/-- Runs the tokens that `p` holds for each of the `count` integers from `i` on, which is pushed
first. -/
def runRange (enter : List Token → Machine → Outcome × Machine) (p : ProcedureId) :
    (count : Nat) → (i : Int) → Machine → Outcome × Machine
  | 0, _, m => (.ok .completed, m)
  | count + 1, i, m =>
      andThen (enter (m.store.body p) (m.push (.int (Int64.ofInt i))))
        (runRange enter p count (i + 1))

/-- Carries out an effect; `enter` runs a list of tokens one level deeper. -/
def perform (enter : List Token → Machine → Outcome × Machine) :
    Effect → Machine → Outcome × Machine
  | .change c, m => (.ok .completed, m.apply c)
  | .quit, m => (.ok .terminated, m)
  | .run body, m => enter body m
  | .times count p, m => runTimes enter p count m
  | .range first count p, m => runRange enter p count first m

def step (mode : ScopingMode) (enter : List Token → Machine → Outcome × Machine) (t : Token)
    (m : Machine) : Outcome × Machine :=
  match m.resolve mode t with
  | (.ok effect, rest) => perform enter effect { m with stack := rest }
  | (.error e, rest) => (.error e, { m with stack := rest })

def runAll (mode : ScopingMode) (enter : List Token → Machine → Outcome × Machine) :
    List Token → Machine → Outcome × Machine
  | [], m => (.ok .completed, m)
  | t :: ts, m => andThen (step mode enter t m) (runAll mode enter ts)

/-- Runs tokens one level deeper, with room for `room` more levels. -/
def nested (settings : Settings) : (room : Nat) → List Token → Machine → Outcome × Machine
  | 0, _, m => (.error (.nestingExceeded settings.limit), m)
  | room + 1, tokens, m =>
      let (outcome, after) :=
        runAll settings.mode (nested settings room) tokens { m with depth := m.depth + 1 }
      (outcome, { after with depth := after.depth - 1 })

def execute (settings : Settings) (tokens : List Token) (m : Machine) : Outcome × Machine :=
  nested settings (settings.limit - m.depth) tokens m

def call (settings : Settings) (p : ProcedureId) (m : Machine) : Outcome × Machine :=
  m.execute settings (m.store.body p)

end Machine

end Stacklet
