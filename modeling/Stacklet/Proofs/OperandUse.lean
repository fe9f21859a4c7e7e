import Stacklet.Proofs.CodeProvenance

set_option autoImplicit false
set_option relaxedAutoImplicit false

/-!
What operators find on the stack. An operator gets its operands exactly when the values that hold
them lie on top, so what the control operators ask for can be read off the stack.
-/

namespace Stacklet

def Operand.value : (o : Operand) → o.Content → Value
  | .any, v => v
  | .number, n => .number n
  | .integer, n => .int n
  | .boolean, b => .bool b
  | .procedure, p => .procedure p
  | .dictionary, d => .dictionary d

def Operands.values : (os : List Operand) → Operands os → Stack
  | [], () => []
  | o :: os, (x, xs) => o.value x :: values os xs

theorem Operand.read_eq_ok_iff {o : Operand} {v : Value} {x : o.Content} :
    o.read v = .ok x ↔ v = o.value x := by
  constructor
  · intro success
    unfold read at success
    split at success <;> cases success <;> rfl
  · rintro rfl
    cases o <;> rfl

theorem Operands.take_eq_ok_iff {operator : String} {os : List Operand} {s rest : Stack}
    {operands : Operands os} :
    take operator os s = (.ok operands, rest) ↔ s = values os operands ++ rest := by
  induction os generalizing s with
  | nil => simp [take, values]
  | cons o os ih =>
      obtain ⟨x, xs⟩ := operands
      cases s with
      | nil => simp [take, values]
      | cons v s =>
          constructor
          · intro taken
            simp only [take] at taken
            split at taken
            · cases taken
            · rename_i y found
              split at taken
              · rename_i ys left inner
                cases taken
                rw [Operand.read_eq_ok_iff.mp found, ih.mp inner]
                rfl
              · cases taken
          · intro shape
            have ⟨top, below⟩ : v = o.value x ∧ s = values os xs ++ rest := List.cons.inj shape
            simp only [take, Operand.read_eq_ok_iff.mpr top, ih.mpr below]

def Change.opensScope : Change → Bool
  | .enterScope _ => true
  | _ => false

namespace Operator

theorem ofName?_mem {word : String} {op : Operator} (found : ofName? word = some op) :
    (word, op) ∈ table := by
  obtain ⟨before, after, split, _⟩ := List.lookup_eq_some_iff.mp found
  simp [split]

theorem ofName?_eq_none_iff {word : String} : ofName? word = none ↔ word ∉ names := by
  rw [ofName?, List.lookup_eq_none_iff, names, List.mem_map]
  constructor
  · rintro absent ⟨entry, listed, rfl⟩
    simpa using absent entry listed
  · intro absent entry listed
    have other : word ≠ entry.1 := fun same => absent ⟨entry, listed, same.symm⟩
    simpa using other

theorem eq_of_ofName? {word name : String} {op : Operator} (found : ofName? word = some op)
    (once : ∀ entry ∈ table, entry.2 = op → entry.1 = name) : word = name :=
  once _ (ofName?_mem found) rfl

/-- With its operands on top of the stack an operator is performed on what lies below them. -/
theorem invoke_of_values {op : Operator} {m : Machine} {rest : Stack}
    (operands : Operands op.signature)
    (shape : m.stack = Operands.values op.signature operands ++ rest) :
    op.invoke m = (op.perform { m with stack := rest } operands, rest) := by
  have taken : Operands.take op.label op.signature m.stack = (.ok operands, rest) :=
    Operands.take_eq_ok_iff.mpr shape
  simp only [invoke, taken]

theorem invoke_eq_ok_iff {op : Operator} {m : Machine} {e : Effect} {rest : Stack} :
    op.invoke m = (.ok e, rest) ↔
      ∃ operands, m.stack = Operands.values op.signature operands ++ rest ∧
        op.perform { m with stack := rest } operands = .ok e := by
  constructor
  · intro success
    unfold invoke at success
    split at success
    · rename_i operands left taken
      obtain ⟨performed, rfl⟩ := Prod.mk.inj success
      exact ⟨operands, Operands.take_eq_ok_iff.mp taken, performed⟩
    · cases success
  · rintro ⟨operands, shape, performed⟩
    rw [invoke_of_values operands shape, performed]

def isControl : Operator → Bool
  | .choose _ => true
  | .forRange => true
  | .times => true
  | .quit => true
  | _ => false

private theorem exists_change_of_closed {op : Operator} {c : Change}
    (closed : c.opensScope = false) :
    ∃ c', Effect.change c = .change c' ∧ (c'.opensScope = true → op = .enterScope) :=
  ⟨c, rfl, fun opens => absurd (closed.symm.trans opens) Bool.false_ne_true⟩

/-- The other operators only change the state, and one of them opens a scope. -/
theorem exists_change_of_perform {op : Operator} (plain : op.isControl = false) {m : Machine}
    {operands : Operands op.signature} {e : Effect} (success : op.perform m operands = .ok e) :
    ∃ c, e = .change c ∧ (c.opensScope = true → op = .enterScope) := by
  cases op with
  | arithmetic | transform | relation | exchange | copy | leaveScope =>
      obtain ⟨_, _, value⟩ := bind_eq_ok_iff.mp success
      cases value
      exact exists_change_of_closed rfl
  | makeDictionary | define | length =>
      simp only [perform] at success
      split at success <;> cases success
      exact exists_change_of_closed rfl
  | element | interval =>
      obtain ⟨datum, _, value⟩ := bind_eq_ok_iff.mp success
      cases value
      cases datum <;> exact exists_change_of_closed rfl
  | overwrite =>
      obtain ⟨revision, _, value⟩ := bind_eq_ok_iff.mp success
      cases value
      cases revision <;> exact exists_change_of_closed rfl
  | choose | forRange | times | quit => cases plain
  | enterScope =>
      cases success
      exact ⟨_, rfl, fun _ => rfl⟩
  | _ =>
      cases success
      exact exists_change_of_closed rfl

theorem eq_enterScope_of_perform {op : Operator} {m : Machine} {operands : Operands op.signature}
    {c : Change} (success : op.perform m operands = .ok (.change c)) (opens : c.opensScope = true) :
    op = .enterScope := by
  cases control : op.isControl with
  | false =>
      obtain ⟨_, same, only⟩ := exists_change_of_perform control success
      cases same
      exact only opens
  | true =>
      cases op with
      | choose | forRange | times | quit => cases success
      | _ => cases control

end Operator

namespace Machine

variable {m : Machine} {mode : ScopingMode} {word : String} {rest : Stack}

theorem resolve_operator {op : Operator} (found : Operator.ofName? word = some op)
    (operands : Operands op.signature)
    (shape : m.stack = Operands.values op.signature operands ++ rest) :
    m.resolve mode (.name word) = (op.perform { m with stack := rest } operands, rest) := by
  simp only [resolve, found]
  exact Operator.invoke_of_values operands shape

theorem resolve_choose {long condition : Bool} {yes no : ProcedureId}
    (found : Operator.ofName? word = some (.choose long))
    (shape : m.stack = .procedure no :: .procedure yes :: .bool condition :: rest) :
    m.resolve mode (.name word) =
      (.ok (.run (m.store.body (if condition then yes else no))), rest) :=
  resolve_operator found (no, yes, condition, ()) shape

theorem resolve_forRange {first last : Int64} {p : ProcedureId}
    (found : Operator.ofName? word = some .forRange)
    (shape : m.stack = .procedure p :: .int last :: .int first :: rest) :
    m.resolve mode (.name word) =
      (.ok (.range first.toInt (last.toInt - first.toInt + 1).toNat p), rest) :=
  resolve_operator found (p, last, first, ()) shape

theorem resolve_times {n : Int64} {p : ProcedureId}
    (found : Operator.ofName? word = some .times)
    (shape : m.stack = .procedure p :: .int n :: rest) :
    m.resolve mode (.name word) = (.ok (.times n.toInt.toNat p), rest) :=
  resolve_operator found (p, n, ()) shape

theorem resolve_quit (found : Operator.ofName? word = some .quit) :
    m.resolve mode (.name word) = (.ok .quit, m.stack) :=
  resolve_operator found () rfl

theorem resolve_call {p : ProcedureId} (free : Operator.ofName? word = none)
    (bound : m.find? mode word = some (.procedure p)) :
    m.resolve mode (.name word) = (.ok (.run (m.store.body p)), m.stack) := by
  simp only [resolve, free, meaning, bound]

theorem called_or_pushed (m : Machine) (mode : ScopingMode) (word : String) :
    (∃ p, m.find? mode word = some (.procedure p)) ∨ ∃ v, m.meaning mode word = .push v := by
  unfold meaning
  split
  · rename_i p bound
    exact .inl ⟨p, bound⟩
  · exact .inr ⟨_, rfl⟩
  · exact .inr ⟨_, rfl⟩

end Machine

end Stacklet
