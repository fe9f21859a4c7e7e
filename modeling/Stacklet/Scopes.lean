import Stacklet.RuntimeError
import Stacklet.Store

set_option autoImplicit false
set_option relaxedAutoImplicit false

/-!
Scopes: the dictionaries in which names are looked up. The base dictionary is always there, and
more are entered on top of it. Scopes hold identities, so a definition in a scope is seen by
everyone who holds the same dictionary.
-/

namespace Stacklet

inductive ScopingMode where
  /-- In all scopes, the innermost first. -/
  | dynamic
  /-- In the base dictionary only. -/
  | lexical
deriving DecidableEq

namespace ScopingMode

def label : ScopingMode → String
  | .dynamic => "dynamic"
  | .lexical => "lexical"

def ofLabel (label : String) : Except String ScopingMode :=
  if label = "dynamic" then .ok .dynamic
  else if label = "lexical" then .ok .lexical
  else .error ("unknown scoping mode: " ++ label)

end ScopingMode

structure Scopes where
  base : DictionaryId
  inner : List DictionaryId
deriving DecidableEq

namespace Scopes

def create (s : Store) : Scopes × Store :=
  let (base, s) := s.addDictionary (Dictionary.empty 0)
  (⟨base, []⟩, s)

def frames (scopes : Scopes) : List DictionaryId := scopes.inner ++ [scopes.base]

def current (scopes : Scopes) : DictionaryId := scopes.inner.headD scopes.base

def depth (scopes : Scopes) : Nat := scopes.inner.length + 1

def enter (scopes : Scopes) (d : DictionaryId) : Scopes :=
  { scopes with inner := d :: scopes.inner }

def leave (scopes : Scopes) : Except RuntimeError (DictionaryId × Scopes) :=
  match scopes.inner with
  | [] => .error .baseScope
  | d :: outer => .ok (d, { scopes with inner := outer })

def define (scopes : Scopes) (s : Store) (word : String) (value : Value) : Store :=
  s.insert scopes.current word value

def searched (scopes : Scopes) : ScopingMode → List DictionaryId
  | .dynamic => scopes.frames
  | .lexical => [scopes.base]

/-- The value of a name; a definition sign in front is dropped. -/
def find? (scopes : Scopes) (s : Store) (mode : ScopingMode) (word : String) : Option Value :=
  (scopes.searched mode).findSome? fun d => (s.dictionary d).get? (Token.stripSign word)

def lookup (scopes : Scopes) (s : Store) (mode : ScopingMode) (word : String) :
    Except RuntimeError Value :=
  match scopes.find? s mode word with
  | some v => .ok v
  | none => .error (.nameNotFound (Token.stripSign word))

def reset (scopes : Scopes) (s : Store) : Scopes × Store :=
  ({ scopes with inner := [] }, s.clear scopes.base)

@[simp] theorem current_enter (scopes : Scopes) (d : DictionaryId) :
    (scopes.enter d).current = d := rfl

@[simp] theorem frames_enter (scopes : Scopes) (d : DictionaryId) :
    (scopes.enter d).frames = d :: scopes.frames := rfl

@[simp] theorem leave_enter (scopes : Scopes) (d : DictionaryId) :
    (scopes.enter d).leave = .ok (d, scopes) := rfl

@[simp] theorem length_frames (scopes : Scopes) : scopes.frames.length = scopes.depth := by
  simp [frames, depth]

/-- On the list of scopes, closing one takes the first off, and is refused to the last one. -/
theorem map_leave_frames (scopes : Scopes) :
    (scopes.leave.map fun (d, outer) => d :: outer.frames) =
      if scopes.frames.length ≤ 1 then .error .baseScope else .ok scopes.frames := by
  obtain ⟨base, inner⟩ := scopes
  cases inner with
  | nil => rfl
  | cons d outer =>
      rw [if_neg (by simp [depth])]
      rfl

/-- And resetting cuts off all but the last one. -/
theorem frames_reset (scopes : Scopes) (s : Store) :
    (scopes.reset s).1.frames = scopes.frames.drop (scopes.frames.length - 1) := by
  rw [length_frames]
  simp [frames, reset, depth]

end Scopes

end Stacklet
