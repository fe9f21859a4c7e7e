import Stacklet.Dictionary

set_option autoImplicit false
set_option relaxedAutoImplicit false

/-!
The store holds the shared objects. Objects are added and changed, never removed, so an identity
keeps its meaning.
-/

namespace Stacklet

/-- All procedures and dictionaries, each at the index of its identity. -/
structure Store where
  procedures : Array (List Token)
  dictionaries : Array Dictionary

namespace Store

def empty : Store := ⟨#[], #[]⟩

def body (s : Store) (p : ProcedureId) : List Token := s.procedures.getD p.index []

def dictionary (s : Store) (d : DictionaryId) : Dictionary :=
  s.dictionaries.getD d.index (Dictionary.empty 0)

def addProcedure (s : Store) (tokens : List Token) : ProcedureId × Store :=
  (⟨s.procedures.size⟩, { s with procedures := s.procedures.push tokens })

def addDictionary (s : Store) (d : Dictionary) : DictionaryId × Store :=
  (⟨s.dictionaries.size⟩, { s with dictionaries := s.dictionaries.push d })

def setBody (s : Store) (p : ProcedureId) (tokens : List Token) : Store :=
  { s with procedures := s.procedures.setIfInBounds p.index tokens }

def insert (s : Store) (d : DictionaryId) (key : String) (value : Value) : Store :=
  { s with dictionaries := s.dictionaries.modify d.index (·.insert key value) }

def clear (s : Store) (d : DictionaryId) : Store :=
  { s with dictionaries := s.dictionaries.modify d.index Dictionary.clear }

def realize (s : Store) : Datum → Value × Store
  | .value v => (v, s)
  | .procedure tokens =>
      let (p, s) := s.addProcedure tokens
      (.procedure p, s)

def display (s : Store) : Value → String
  | .number n => n.display
  | .bool b => if b then "true" else "false"
  | .text t => t
  | .name word => word
  | .procedure p => (Token.procedure (s.body p)).display
  | .dictionary _ => "-dict-"

def listing (s : Store) : Value → String
  | .text t => "(" ++ t ++ ")"
  | .name word => "/" ++ word
  | v => s.display v

def length? (s : Store) : Value → Option Nat
  | .text t => some t.toList.length
  | .procedure p => some (s.body p).length
  | .dictionary d => some (s.dictionary d).size
  | _ => none

@[simp] theorem body_setBody_self (s : Store) (p : ProcedureId) (tokens : List Token)
    (h : p.index < s.procedures.size) : (s.setBody p tokens).body p = tokens := by
  simp [setBody, body, h]

theorem body_setBody_of_ne (s : Store) {p q : ProcedureId} (tokens : List Token) (ne : q ≠ p) :
    (s.setBody p tokens).body q = s.body q := by
  have : p.index ≠ q.index := fun h => ne (by cases p; cases q; simp_all)
  simp [setBody, body, Array.getD_eq_getD_getElem?, this]

@[simp] theorem body_addProcedure_self (s : Store) (tokens : List Token) :
    (s.addProcedure tokens).2.body (s.addProcedure tokens).1 = tokens := by
  simp [addProcedure, body]

theorem dictionary_insert_of_ne (s : Store) {d e : DictionaryId} (key : String) (value : Value)
    (ne : e ≠ d) : (s.insert d key value).dictionary e = s.dictionary e := by
  have : d.index ≠ e.index := fun h => ne (by cases d; cases e; simp_all)
  simp [insert, dictionary, Array.getD_eq_getD_getElem?, Array.getElem?_modify, this]

theorem dictionary_insert_self (s : Store) (d : DictionaryId) (key : String) (value : Value)
    (h : d.index < s.dictionaries.size) :
    (s.insert d key value).dictionary d = (s.dictionary d).insert key value := by
  simp [insert, dictionary, Array.getD_eq_getD_getElem?, Array.getElem_modify, h]

end Store

end Stacklet
