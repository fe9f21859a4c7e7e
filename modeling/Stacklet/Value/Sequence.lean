import Stacklet.Interval
import Stacklet.RuntimeError
import Stacklet.Store

set_option autoImplicit false
set_option relaxedAutoImplicit false

/-!
Texts and procedures as sequences, of characters and of tokens. A text never changes: overwriting
a part of one gives a new text. A procedure is overwritten in place.
-/

namespace Stacklet

inductive Revision where
  | text (s : String)
  | procedure (p : ProcedureId) (body : List Token)

namespace Store

def element (s : Store) (operator : String) (index : Int) : Value → Except RuntimeError Datum
  | .text t =>
      match Interval.element? index t.toList with
      | some c => .ok (.value (.text (String.singleton c)))
      | none => .error (.indexOutOfRange operator index t.toList.length)
  | .procedure p =>
      match Interval.element? index (s.body p) with
      | some token => .ok token.datum
      | none => .error (.indexOutOfRange operator index (s.body p).length)
  | v => .error (.typeMismatch operator .sequence v.kind)

def interval (s : Store) (operator : String) (start count : Int) :
    Value → Except RuntimeError Datum
  | .text t =>
      match Interval.read? start count t.toList with
      | some part => .ok (.value (.text (String.ofList part)))
      | none => .error (.intervalOutOfRange operator start count t.toList.length)
  | .procedure p =>
      match Interval.read? start count (s.body p) with
      | some part => .ok (.procedure part)
      | none => .error (.intervalOutOfRange operator start count (s.body p).length)
  | v => .error (.typeMismatch operator .sequence v.kind)

def overwrite (s : Store) (operator : String) (start : Int) :
    (target part : Value) → Except RuntimeError Revision
  | .text t, .text u =>
      match Interval.write? start u.toList t.toList with
      | some cs => .ok (.text (String.ofList cs))
      | none => .error (.intervalOutOfRange operator start u.toList.length t.toList.length)
  | .procedure p, .procedure q =>
      match Interval.write? start (s.body q) (s.body p) with
      | some tokens => .ok (.procedure p tokens)
      | none => .error (.intervalOutOfRange operator start (s.body q).length (s.body p).length)
  | .text _, v => .error (.typeMismatch operator (.kind .text) v.kind)
  | .procedure _, v => .error (.typeMismatch operator (.kind .procedure) v.kind)
  | v, _ => .error (.typeMismatch operator .sequence v.kind)

def revise (s : Store) : Revision → Value × Store
  | .text t => (.text t, s)
  | .procedure p tokens => (.procedure p, s.setBody p tokens)

end Store

end Stacklet
