import Stacklet.Json
import Stacklet.Token

set_option autoImplicit false
set_option relaxedAutoImplicit false

/-!
Programs as data: each token under a tag that names its kind.
-/

namespace Stacklet.Token

def numberData : Number → Json
  | .int n => .tagged "Int" (.int n)
  | .real x => .tagged "Real" (.real x)

mutual

def data : Token → Json
  | .number n => .tagged "Number" (numberData n)
  | .bool b => .tagged "Bool" (.bool b)
  | .text s => .tagged "Text" (.string s)
  | .name word => .tagged "Name" (.string word)
  | .define word => .tagged "Define" (.string word)
  | .inline body => .tagged "NestedProcedure" (.array (dataAll body))
  | .procedure body => .tagged "ProcedureLiteral" (.array (dataAll body))

def dataAll : List Token → List Json
  | [] => []
  | t :: ts => t.data :: dataAll ts

end

def listData (tokens : List Token) : Json := .array (dataAll tokens)

def programData (tokens : List Token) : Json := .tagged "tokens" (listData tokens)

end Stacklet.Token
