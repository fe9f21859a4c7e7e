import Stacklet.Machine.Execution

set_option autoImplicit false
set_option relaxedAutoImplicit false

/-!
Where the tokens come from that a program runs and stores. A property of tokens that passes to the
tokens inside brackets, and that all tokens of the store have, is kept by everything that a token
with the property asks for.
-/

namespace Stacklet

namespace Token

/-- A property of tokens that passes to the tokens inside brackets. -/
structure Hereditary (Q : Token → Prop) : Prop where
  inline : ∀ {body : List Token}, Q (.inline body) → ∀ t ∈ body, Q t
  procedure : ∀ {body : List Token}, Q (.procedure body) → ∀ t ∈ body, Q t

def parts : Token → List Token
  | .inline body => body
  | .procedure body => body
  | _ => []

theorem Hereditary.parts {Q : Token → Prop} (hereditary : Hereditary Q) {t : Token} (held : Q t) :
    ∀ u ∈ t.parts, Q u := by
  cases t with
  | inline body => exact hereditary.inline held
  | procedure body => exact hereditary.procedure held
  | _ => simp [Token.parts]

mutual

/-- Whether one of some words occurs in a token as a name, at any nesting. -/
def mentions (words : List String) : Token → Bool
  | .name word => words.contains word
  | .inline body => anyMentions words body
  | .procedure body => anyMentions words body
  | _ => false

def anyMentions (words : List String) : List Token → Bool
  | [] => false
  | t :: ts => t.mentions words || anyMentions words ts

end

theorem anyMentions_eq_false_iff (words : List String) (ts : List Token) :
    anyMentions words ts = false ↔ ∀ t ∈ ts, t.mentions words = false := by
  induction ts with
  | nil => simp [anyMentions]
  | cons t ts ih => simp [anyMentions, ih]

theorem hereditary_mentions (words : List String) :
    Hereditary fun t => t.mentions words = false where
  inline := fun {body} free => (anyMentions_eq_false_iff words body).mp free
  procedure := fun {body} free => (anyMentions_eq_false_iff words body).mp free

end Token

def Store.Holds (s : Store) (Q : Token → Prop) : Prop := ∀ p, ∀ t ∈ s.body p, Q t

def Datum.Holds (Q : Token → Prop) : Datum → Prop
  | .value _ => True
  | .procedure body => ∀ t ∈ body, Q t

def Change.Holds (Q : Token → Prop) : Change → Prop
  | .makeProcedure body => ∀ t ∈ body, Q t
  | .setBody _ body => ∀ t ∈ body, Q t
  | _ => True

def Effect.Holds (Q : Token → Prop) : Effect → Prop
  | .change c => c.Holds Q
  | .run body => ∀ t ∈ body, Q t
  | _ => True

theorem bind_eq_ok_iff {ε α β : Type} {x : Except ε α} {f : α → Except ε β} {b : β} :
    (x >>= f) = .ok b ↔ ∃ a, x = .ok a ∧ f a = .ok b := by
  cases x <;> simp [bind, Except.bind]

variable {Q : Token → Prop}

namespace Store

theorem holds_addProcedure {s : Store} {tokens : List Token} (held : s.Holds Q)
    (added : ∀ t ∈ tokens, Q t) : (s.addProcedure tokens).2.Holds Q := by
  intro p t member
  simp only [addProcedure, body, Array.getD_eq_getD_getElem?, Array.getElem?_push] at member
  split at member
  · exact added t member
  · exact held p t (by simpa [body, Array.getD_eq_getD_getElem?] using member)

theorem holds_setBody {s : Store} {q : ProcedureId} {tokens : List Token} (held : s.Holds Q)
    (replaced : ∀ t ∈ tokens, Q t) : (s.setBody q tokens).Holds Q := by
  intro p t member
  by_cases same : p = q
  · subst same
    by_cases bound : p.index < s.procedures.size
    · rw [body_setBody_self s p tokens bound] at member
      exact replaced t member
    · simp [setBody, body, bound] at member
  · rw [body_setBody_of_ne s tokens same] at member
    exact held p t member

private theorem mem_of_element? {α : Type} {index : Int} {xs : List α} {x : α}
    (found : Interval.element? index xs = some x) : x ∈ xs := by
  unfold Interval.element? at found
  split at found
  · exact List.mem_of_getElem? found
  · cases found

private theorem mem_of_read? {α : Type} {start count : Int} {xs part : List α} {x : α}
    (found : Interval.read? start count xs = some part) (member : x ∈ part) : x ∈ xs := by
  unfold Interval.read? at found
  split at found
  · cases found
    exact List.mem_of_mem_drop (List.mem_of_mem_take member)
  · cases found

private theorem mem_of_write? {α : Type} {start : Int} {part xs result : List α} {x : α}
    (written : Interval.write? start part xs = some result) (member : x ∈ result) :
    x ∈ part ∨ x ∈ xs := by
  unfold Interval.write? at written
  split at written
  · cases written
    rcases List.mem_append.mp member with front | back
    · rcases List.mem_append.mp front with before | inPart
      · exact .inr (List.mem_of_mem_take before)
      · exact .inl inPart
    · exact .inr (List.mem_of_mem_drop back)
  · cases written

private theorem datum_holds (hereditary : Token.Hereditary Q) {t : Token} (held : Q t) :
    t.datum.Holds Q := by
  cases t with
  | inline body => exact hereditary.inline held
  | procedure body => exact hereditary.procedure held
  | _ => trivial

private theorem element_holds (hereditary : Token.Hereditary Q) {s : Store} (held : s.Holds Q)
    {operator : String} {index : Int} {v : Value} {datum : Datum}
    (success : s.element operator index v = .ok datum) : datum.Holds Q := by
  cases v <;> simp only [element, reduceCtorEq] at success
  case text t =>
    split at success <;> cases success
    trivial
  case procedure p =>
    split at success <;> cases success
    rename_i found
    exact datum_holds hereditary (held p _ (mem_of_element? found))

private theorem interval_holds {s : Store} (held : s.Holds Q) {operator : String}
    {start count : Int} {v : Value} {datum : Datum}
    (success : s.interval operator start count v = .ok datum) : datum.Holds Q := by
  cases v <;> simp only [interval, reduceCtorEq] at success
  case text t =>
    split at success <;> cases success
    trivial
  case procedure p =>
    split at success <;> cases success
    rename_i found
    exact fun t member => held p t (mem_of_read? found member)

private theorem overwrite_holds {s : Store} (held : s.Holds Q) {operator : String} {start : Int}
    {target part : Value} {revision : Revision}
    (success : s.overwrite operator start target part = .ok revision) :
    (Effect.ofRevision revision).Holds Q := by
  cases target <;> cases part <;> simp only [overwrite, reduceCtorEq] at success
  case text.text t u =>
    split at success <;> cases success
    trivial
  case procedure.procedure p q =>
    split at success <;> cases success
    rename_i written
    intro t member
    rcases mem_of_write? written member with inPart | inTarget
    · exact held q t inPart
    · exact held p t inTarget

end Store

private theorem ofDatum_holds {datum : Datum} (held : datum.Holds Q) :
    (Effect.ofDatum datum).Holds Q := by
  cases datum with
  | value v => trivial
  | procedure body => exact held

theorem Operator.perform_holds (hereditary : Token.Hereditary Q) {m : Machine}
    (held : m.store.Holds Q) {op : Operator} {operands : Operands op.signature} {e : Effect}
    (success : op.perform m operands = .ok e) : e.Holds Q := by
  cases op with
  | arithmetic | transform | relation | exchange | copy | leaveScope =>
      obtain ⟨_, _, value⟩ := bind_eq_ok_iff.mp success
      cases value
      trivial
  | makeDictionary | define | length =>
      simp only [perform] at success
      split at success <;> cases success
      trivial
  | element =>
      obtain ⟨_, found, value⟩ := bind_eq_ok_iff.mp success
      cases value
      exact ofDatum_holds (Store.element_holds hereditary held found)
  | interval =>
      obtain ⟨_, found, value⟩ := bind_eq_ok_iff.mp success
      cases value
      exact ofDatum_holds (Store.interval_holds held found)
  | overwrite =>
      obtain ⟨_, written, value⟩ := bind_eq_ok_iff.mp success
      cases value
      exact Store.overwrite_holds held written
  | choose long =>
      cases success
      exact held _
  | _ =>
      cases success
      trivial

namespace Machine

theorem fresh_holds : fresh.store.Holds Q := by
  intro p t member
  simp [fresh, Scopes.create, Store.addDictionary, Store.empty, Store.body] at member

theorem apply_holds {m : Machine} {c : Change} (held : m.store.Holds Q) (stored : c.Holds Q) :
    (m.apply c).store.Holds Q := by
  cases c with
  | makeProcedure body => exact Store.holds_addProcedure held stored
  | setBody p body => exact Store.holds_setBody held stored
  | _ => exact held

theorem resolve_holds_of_parts (hereditary : Token.Hereditary Q) {mode : ScopingMode} {m : Machine}
    (held : m.store.Holds Q) {t : Token} (inside : ∀ u ∈ t.parts, Q u) {e : Effect} {rest : Stack}
    (success : m.resolve mode t = (.ok e, rest)) : e.Holds Q := by
  cases t with
  | inline body =>
      cases success
      exact inside
  | procedure body =>
      cases success
      exact inside
  | define word =>
      simp only [resolve] at success
      split at success <;> cases success
      trivial
  | name word =>
      simp only [resolve] at success
      split at success
      · simp only [Operator.invoke] at success
        split at success
        · obtain ⟨performed, _⟩ := Prod.mk.inj success
          refine Operator.perform_holds hereditary ?_ performed
          exact held
        · cases success
      · cases success
        unfold meaning
        split
        · exact held _
        · trivial
        · trivial
  | _ =>
      cases success
      trivial

theorem resolve_holds (hereditary : Token.Hereditary Q) {mode : ScopingMode} {m : Machine}
    (held : m.store.Holds Q) {t : Token} (code : Q t) {e : Effect} {rest : Stack}
    (success : m.resolve mode t = (.ok e, rest)) : e.Holds Q :=
  resolve_holds_of_parts hereditary held (hereditary.parts code) success

end Machine

end Stacklet
