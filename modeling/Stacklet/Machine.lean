import Stacklet.Scopes
import Stacklet.Stack

set_option autoImplicit false
set_option relaxedAutoImplicit false

/-!
The state of a running program, and the changes that a step can make to it.
-/

namespace Stacklet

structure Machine where
  store : Store
  stack : Stack
  scopes : Scopes
  output : String
  /-- How many lists of tokens are being run, one inside the other. -/
  depth : Nat

inductive Change where
  /-- Puts values on the stack, the first one on top. -/
  | push (values : List Value)
  | restack (stack : Stack)
  | makeProcedure (body : List Token)
  | makeDictionary (capacity : Nat)
  /-- Gives a procedure other tokens and puts it on the stack. -/
  | setBody (p : ProcedureId) (body : List Token)
  | bind (word : String) (value : Value)
  | enterScope (d : DictionaryId)
  | leaveScope
  | print (line : String)

namespace Machine

def fresh : Machine :=
  let (scopes, store) := Scopes.create Store.empty
  ⟨store, [], scopes, "", 0⟩

def find? (m : Machine) (mode : ScopingMode) (word : String) : Option Value :=
  m.scopes.find? m.store mode word

def push (m : Machine) (v : Value) : Machine := { m with stack := v :: m.stack }

def apply (m : Machine) : Change → Machine
  | .push values => { m with stack := values ++ m.stack }
  | .restack stack => { m with stack := stack }
  | .makeProcedure body =>
      let (p, store) := m.store.addProcedure body
      { m with store := store, stack := .procedure p :: m.stack }
  | .makeDictionary capacity =>
      let (d, store) := m.store.addDictionary (Dictionary.empty capacity)
      { m with store := store, stack := .dictionary d :: m.stack }
  | .setBody p body =>
      { m with store := m.store.setBody p body, stack := .procedure p :: m.stack }
  | .bind word value => { m with store := m.scopes.define m.store word value }
  | .enterScope d => { m with scopes := m.scopes.enter d }
  | .leaveScope => { m with scopes := { m.scopes with inner := m.scopes.inner.tail } }
  | .print line => { m with output := m.output ++ line ++ "\n" }

end Machine

end Stacklet
