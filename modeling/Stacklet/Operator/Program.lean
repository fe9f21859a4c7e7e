import Stacklet.Machine.Execution

set_option autoImplicit false
set_option relaxedAutoImplicit false

/-!
Operators step by step. Each is a program that takes values off the stack, checks them, looks at the
machine and changes it, in an order of its own. What a program has done when it fails stays done.
-/

namespace Stacklet

/-- A program on a machine: it answers or fails, and leaves the machine as it is by then. -/
abbrev Program := ExceptT RuntimeError (StateM Machine)

namespace Program

variable {α : Type}

def on (p : Program α) (m : Machine) : Except RuntimeError α × Machine := ExceptT.run p m

def ensure (condition : Prop) [Decidable condition] (e : RuntimeError) : Program Unit :=
  if condition then return () else throw e

def require (found : Option α) (e : RuntimeError) : Program α :=
  match found with
  | some x => return x
  | none => throw e

def pop (operator : String) : Program Value := do
  let (v, rest) ← (← get).stack.pop operator
  modify ({ · with stack := rest })
  return v

/-- Takes the top value, and only then looks whether it is of the class that is asked for. -/
def take (operator : String) (o : Operand) : Program o.Content := do
  let v ← pop operator
  match o.read v with
  | .ok x => return x
  | .error expected => throw (.typeMismatch operator expected v.kind)

def push (v : Value) : Program Unit := modify (·.push v)

def answer (v : Value) : Program Flow := do
  push v
  return .completed

def exchange : Program Unit := do
  ensure (2 ≤ (← get).stack.length) (.stackUnderflow "exch")
  modify fun m => { m with stack := (m.stack.take 2).reverse ++ m.stack.drop 2 }

def copy (count : Int64) : Program Unit := do
  ensure (0 ≤ count.toInt) .negativeCount
  let n := count.toInt.toNat
  let depth := (← get).stack.length
  ensure (n ≤ depth) (.countExceedsDepth n depth)
  modify fun m => { m with stack := m.stack.take n ++ m.stack }

def makeDictionary (capacity : Nat) : Program Value := do
  let (d, store) := (← get).store.addDictionary (Dictionary.empty capacity)
  modify ({ · with store := store })
  return .dictionary d

def endScope : Program Unit := do
  ensure (1 < (← get).scopes.frames.length) .baseScope
  modify fun m => { m with scopes := { m.scopes with inner := m.scopes.inner.tail } }

def realize (d : Datum) : Program Value := do
  let (v, store) := (← get).store.realize d
  modify ({ · with store := store })
  return v

def element (operator : String) (index : Int64) : Value → Program Value
  | .text t => do
      let c ← require (Interval.element? index.toInt t.toList)
        (.indexOutOfRange operator index.toInt t.toList.length)
      return .text (String.singleton c)
  | .procedure p => do
      let body := (← get).store.body p
      let token ← require (Interval.element? index.toInt body)
        (.indexOutOfRange operator index.toInt body.length)
      realize token.datum
  | v => throw (.typeMismatch operator .sequence v.kind)

def interval (operator : String) (start count : Int64) : Value → Program Value
  | .text t => do
      let (first, last) ← require (Interval.bounds? start count t.toList.length)
        (.intervalOutOfRange operator start.toInt count.toInt t.toList.length)
      return .text (String.ofList (t.toList.extract first last))
  | .procedure p => do
      let body := (← get).store.body p
      let (first, last) ← require (Interval.bounds? start count body.length)
        (.intervalOutOfRange operator start.toInt count.toInt body.length)
      realize (.procedure (body.extract first last))
  | v => throw (.typeMismatch operator .sequence v.kind)

def overwrite (operator : String) (start : Int64) : (target part : Value) → Program Value
  | .text t, .text u => do
      ensure (0 ≤ start.toInt ∧ start.toInt + u.toList.length ≤ t.toList.length)
        (.intervalOutOfRange operator start.toInt u.toList.length t.toList.length)
      let first := start.toInt.toNat
      let last := first + u.toList.length
      return .text (String.ofList (Interval.splice first last u.toList t.toList))
  | .procedure p, .procedure q => do
      -- The part is read before anything is written: the two can be one procedure.
      let part := (← get).store.body q
      let length := ((← get).store.body p).length
      ensure (0 ≤ start.toInt ∧ start.toInt + part.length ≤ length)
        (.intervalOutOfRange operator start.toInt part.length length)
      let first := start.toInt.toNat
      let last := first + part.length
      modify fun m => { m with
        store := m.store.setBody p (Interval.splice first last part (m.store.body p)) }
      return .procedure p
  | .text _, v => throw (.typeMismatch operator (.kind .text) v.kind)
  | .procedure _, v => throw (.typeMismatch operator (.kind .procedure) v.kind)
  | v, _ => throw (.typeMismatch operator .sequence v.kind)

def call (enter : List Token → Machine → Outcome × Machine) (p : ProcedureId) : Program Flow := do
  let body := (← get).store.body p
  ExceptT.mk (enter body)

/-- Runs a program for each of the `count` integers from `i` on, until it ends the run. -/
def loop (body : Int → Program Flow) : (count : Nat) → (i : Int) → Program Flow
  | 0, _ => return .completed
  | count + 1, i => do
      match ← body i with
      | .terminated => return .terminated
      | .completed => loop body count (i + 1)

/-- What an operator does, step by step; `enter` runs a list of tokens one level deeper. -/
def ofOperator (enter : List Token → Machine → Outcome × Machine) : Operator → Program Flow
  | .arithmetic f => do
      let b ← take f.label .number
      let a ← take f.label .number
      answer (.number (← f.apply a b))
  | .transform f => do
      let a ← take f.label .number
      answer (.number (← f.apply a))
  | .equal => do
      let b ← take "eq" .any
      let a ← take "eq" .any
      answer (.bool ((← get).store.same a b))
  | .notEqual => do
      let b ← take "ne" .any
      let a ← take "ne" .any
      answer (.bool !(← get).store.same a b)
  | .relation r => do
      let b ← take r.label .any
      let a ← take r.label .any
      answer (.bool (r.holds (← Operator.order r.label a b)))
  | .conjunction => do
      let b ← take "and" .boolean
      let a ← take "and" .boolean
      answer (.bool (a && b))
  | .disjunction => do
      let b ← take "or" .boolean
      let a ← take "or" .boolean
      answer (.bool (a || b))
  | .negation => do
      let a ← take "not" .boolean
      answer (.bool !a)
  | .constant b => answer (.bool b)
  | .duplicate => do
      let top ← (← get).stack.peek "dup"
      answer top
  | .exchange => do
      exchange
      return .completed
  | .discard => do
      let _ ← take "pop" .any
      return .completed
  | .clear => do
      modify ({ · with stack := [] })
      return .completed
  | .count => do answer (.int (Int64.ofNat (← get).stack.length))
  | .copy => do
      let n ← take "copy" .integer
      copy n
      return .completed
  | .makeDictionary => do
      let n ← take "dict" .integer
      ensure (0 ≤ n.toInt) .negativeSize
      answer (← makeDictionary n.toInt.toNat)
  | .enterScope => do
      let d ← take "begin" .dictionary
      modify fun m => { m with scopes := m.scopes.enter d }
      return .completed
  | .leaveScope => do
      endScope
      return .completed
  | .define => do
      let value ← take "def" .any
      let key ← take "def" .any
      let word ← require key.key? (.typeMismatch "def" .key key.kind)
      modify fun m => { m with store := m.scopes.define m.store word value }
      return .completed
  | .length => do
      let v ← take "length" .any
      let n ← require ((← get).store.length? v) (.typeMismatch "length" .collection v.kind)
      answer (.int (Int64.ofNat n))
  | .maxLength => do
      let d ← take "maxlength" .dictionary
      answer (.int (Int64.ofNat ((← get).store.dictionary d).maxLength))
  | .element => do
      let index ← take "get" .integer
      let v ← take "get" .any
      answer (← element "get" index v)
  | .interval => do
      let count ← take "getinterval" .integer
      let start ← take "getinterval" .integer
      let v ← take "getinterval" .any
      answer (← interval "getinterval" start count v)
  | .overwrite => do
      let part ← take "putinterval" .any
      let start ← take "putinterval" .integer
      let v ← take "putinterval" .any
      answer (← overwrite "putinterval" start v part)
  | .choose long => do
      let whenFalse ← take (Operator.choose long).label .procedure
      let whenTrue ← take (Operator.choose long).label .procedure
      let condition ← take (Operator.choose long).label .boolean
      call enter (if condition then whenTrue else whenFalse)
  | .forRange => do
      let body ← take "for" .procedure
      let last ← take "for" .integer
      let first ← take "for" .integer
      loop (fun i => do push (.int (Int64.ofInt i)); call enter body)
        (last.toInt - first.toInt + 1).toNat first.toInt
  | .times => do
      let body ← take "repeat" .procedure
      let n ← take "repeat" .integer
      loop (fun _ => call enter body) n.toInt.toNat 0
  | .quit => return .terminated
  | .print => do
      let v ← take "print" .any
      modify fun m => { m with output := m.output ++ m.store.display v ++ "\n" }
      return .completed

end Program

end Stacklet
