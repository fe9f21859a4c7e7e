import Stacklet.Kind

set_option autoImplicit false
set_option relaxedAutoImplicit false

/-!
What can go wrong while a program runs.
-/

namespace Stacklet

inductive RuntimeError where
  | stackUnderflow (operator : String)
  | nameNotFound (name : String)
  | typeMismatch (operator : String) (expected : Expected) (found : Kind)
  | divisionByZero (operator : String)
  | indexOutOfRange (operator : String) (index : Int) (length : Nat)
  | intervalOutOfRange (operator : String) (start count : Int) (length : Nat)
  | baseScope
  /-- A program ended itself where its result was asked for. -/
  | terminated
  | negativeRoot
  | negativeCount
  | countExceedsDepth (count depth : Nat)
  | negativeSize
  | nestingExceeded (limit : Nat)
  | outputFailed (reason : String)
deriving DecidableEq

inductive ErrorKind where
  | stackUnderflow
  | nameNotFound
  | typeMismatch
  | divisionByZero
  | indexOutOfRange
  | dictionaryBounds
  | executionTerminated
  | domainError
  | rangeCheck
  | stackOverflow
  | ioError
deriving DecidableEq

def ErrorKind.label : ErrorKind → String
  | .stackUnderflow => "StackUnderflow"
  | .nameNotFound => "NameNotFound"
  | .typeMismatch => "TypeMismatch"
  | .divisionByZero => "DivisionByZero"
  | .indexOutOfRange => "IndexOutOfRange"
  | .dictionaryBounds => "DictionaryBoundsError"
  | .executionTerminated => "ExecutionTerminated"
  | .domainError => "DomainError"
  | .rangeCheck => "RangeCheck"
  | .stackOverflow => "StackOverflow"
  | .ioError => "IoError"

namespace RuntimeError

def kind : RuntimeError → ErrorKind
  | .stackUnderflow _ => .stackUnderflow
  | .nameNotFound _ => .nameNotFound
  | .typeMismatch _ _ _ => .typeMismatch
  | .divisionByZero _ => .divisionByZero
  | .indexOutOfRange _ _ _ => .indexOutOfRange
  | .intervalOutOfRange _ _ _ _ => .indexOutOfRange
  | .baseScope => .dictionaryBounds
  | .terminated => .executionTerminated
  | .negativeRoot => .domainError
  | .negativeCount => .rangeCheck
  | .countExceedsDepth _ _ => .rangeCheck
  | .negativeSize => .rangeCheck
  | .nestingExceeded _ => .stackOverflow
  | .outputFailed _ => .ioError

def message : RuntimeError → String
  | .stackUnderflow operator => "stack underflow in " ++ operator
  | .nameNotFound name => "name not found: " ++ name
  | .typeMismatch operator expected found =>
      "type mismatch in " ++ operator ++ ": expected " ++ expected.label ++ ", got " ++ found.label
  | .divisionByZero operator => "division by zero in " ++ operator
  | .indexOutOfRange operator index length =>
      operator ++ ": index " ++ toString index ++ " out of range for length " ++ toString length
  | .intervalOutOfRange operator start count length =>
      operator ++ ": interval " ++ toString start ++ "+" ++ toString count
        ++ " out of range for length " ++ toString length
  | .baseScope => "end: cannot pop the base dictionary"
  | .terminated => "execution terminated by quit"
  | .negativeRoot => "sqrt: negative operand"
  | .negativeCount => "copy: negative count"
  | .countExceedsDepth count depth =>
      "copy: count " ++ toString count ++ " exceeds stack depth " ++ toString depth
  | .negativeSize => "dict: negative size"
  | .nestingExceeded limit =>
      "stack overflow: procedure nesting exceeded " ++ toString limit
  | .outputFailed reason => "IO error: " ++ reason

def display (e : RuntimeError) : String := "Runtime error: " ++ e.message

end RuntimeError

end Stacklet
