import Stacklet.Proofs.Evaluation

set_option autoImplicit false
set_option relaxedAutoImplicit false

/-!
Where the changes come from that tokens ask for. A procedure is given as many tokens as it has,
only the two kinds of definitions bind, and a dictionary that is pushed, bound or entered was a
value on the stack or in a dictionary before.
-/

namespace Stacklet

def Dictionary.values (d : Dictionary) : List Value := d.entries.map Prod.snd

def Machine.Carries (m : Machine) (d : DictionaryId) : Prop :=
  .dictionary d ∈ m.stack ∨ ∃ e, .dictionary d ∈ (m.store.dictionary e).values

/-- What a moment binds, if its token is a definition that succeeds: a token with the definition
sign takes a value, the operator for it takes a value and a key. -/
def Moment.binding? (moment : Moment) : Option (String × Value) :=
  match moment.token, moment.state.stack with
  | .define word, v :: _ => some (word, v)
  | .name word, v :: key :: _ => if word = "def" then key.key?.map (·, v) else none
  | _, _ => none

def Change.Fits (moment : Moment) : Change → Prop
  | .push values => ∀ d, .dictionary d ∈ values → moment.state.Carries d
  | .restack stack => ∀ d, .dictionary d ∈ stack → moment.state.Carries d
  | .setBody p body => body.length = (moment.state.store.body p).length
  | .bind word v => moment.binding? = some (word, v)
  | .enterScope d => moment.state.Carries d
  | _ => True

theorem Dictionary.mem_values_of_get? {d : Dictionary} {key : String} {v : Value}
    (found : d.get? key = some v) : v ∈ d.values := by
  obtain ⟨before, after, split, _⟩ := List.lookup_eq_some_iff.mp found
  simp [values, split]

theorem Interval.length_write? {α : Type} {start : Int} {part xs result : List α}
    (written : write? start part xs = some result) : result.length = xs.length := by
  unfold write? at written
  split at written
  · cases written
    simp only [List.length_append, List.length_take, List.length_drop]
    omega
  · cases written

namespace Change

variable {t : Token} {m : Machine}

private theorem fits_push {v : Value} (plain : ∀ d, v ≠ .dictionary d) :
    (Change.push [v]).Fits ⟨t, m⟩ := by
  intro d member
  exact absurd (List.mem_singleton.mp member).symm (plain d)

private theorem fits_ofDatum {datum : Datum} {c : Change}
    (plain : ∀ d, datum ≠ .value (.dictionary d)) (asked : Effect.ofDatum datum = .change c) :
    c.Fits ⟨t, m⟩ := by
  cases datum with
  | value v =>
      cases asked
      exact fits_push fun d same => plain d (congrArg Datum.value same)
  | procedure body =>
      cases asked
      trivial

end Change

namespace Store

private theorem element_ne_dictionary {s : Store} {operator : String} {index : Int} {v : Value}
    {datum : Datum} (success : s.element operator index v = .ok datum) (d : DictionaryId) :
    datum ≠ .value (.dictionary d) := by
  cases v <;> simp only [element, reduceCtorEq] at success
  case text t =>
    split at success <;> cases success
    simp
  case procedure p =>
    split at success <;> cases success
    rename_i token _
    cases token <;> simp [Token.datum]

private theorem interval_ne_dictionary {s : Store} {operator : String} {start count : Int}
    {v : Value} {datum : Datum} (success : s.interval operator start count v = .ok datum)
    (d : DictionaryId) : datum ≠ .value (.dictionary d) := by
  cases v <;> simp only [interval, reduceCtorEq] at success
  case text t =>
    split at success <;> cases success
    simp
  case procedure p =>
    split at success <;> cases success
    simp

private theorem overwrite_fits {t : Token} {m : Machine} {operator : String} {start : Int}
    {target part : Value} {revision : Revision} {c : Change}
    (success : m.store.overwrite operator start target part = .ok revision)
    (asked : Effect.ofRevision revision = .change c) : c.Fits ⟨t, m⟩ := by
  cases target <;> cases part <;> simp only [overwrite, reduceCtorEq] at success
  case text.text =>
    split at success <;> cases success
    cases asked
    exact Change.fits_push (by simp)
  case procedure.procedure p q =>
    split at success <;> cases success
    rename_i written
    cases asked
    exact Interval.length_write? written

end Store

namespace Stack

private theorem mem_of_exchange {s s' : Stack} (exchanged : exchange s = .ok s') {v : Value}
    (member : v ∈ s') : v ∈ s := by
  unfold exchange at exchanged
  split at exchanged
  · cases exchanged
    simp only [List.mem_cons] at member ⊢
    grind
  · cases exchanged

private theorem mem_of_copy {count : Int} {s s' : Stack} (copied : copy count s = .ok s')
    {v : Value} (member : v ∈ s') : v ∈ s := by
  unfold copy at copied
  split at copied
  · cases copied
  · split at copied <;> cases copied
    rcases List.mem_append.mp member with front | back
    · exact List.mem_of_mem_take front
    · exact back

end Stack

namespace Operator

private theorem perform_fits {word : String} {op : Operator} (found : ofName? word = some op)
    {m : Machine} {rest : Stack} {operands : Operands op.signature} {c : Change}
    (shape : m.stack = Operands.values op.signature operands ++ rest)
    (success : op.perform { m with stack := rest } operands = .ok (.change c)) :
    c.Fits ⟨.name word, m⟩ := by
  cases op with
  | arithmetic | transform | relation =>
      obtain ⟨_, _, value⟩ := bind_eq_ok_iff.mp success
      cases value
      exact Change.fits_push (by simp)
  | equal | notEqual | conjunction | disjunction | negation | constant | count | maxLength =>
      cases success
      exact Change.fits_push (by simp)
  | duplicate =>
      obtain ⟨v, ⟨⟩⟩ := operands
      cases success
      intro d member
      have top : Value.dictionary d = v := by simpa using member
      exact .inl (by simp [shape, Operands.values, Operand.value, top])
  | exchange =>
      obtain ⟨stack, exchanged, value⟩ := bind_eq_ok_iff.mp success
      cases value
      intro d member
      exact .inl (by rw [shape]; exact Stack.mem_of_exchange exchanged member)
  | copy =>
      obtain ⟨stack, copied, value⟩ := bind_eq_ok_iff.mp success
      cases value
      intro d member
      exact .inl (by rw [shape]; exact List.mem_append_right _ (Stack.mem_of_copy copied member))
  | discard | clear =>
      cases success
      intro d member
      cases member
  | makeDictionary =>
      simp only [perform] at success
      split at success <;> cases success
      trivial
  | enterScope =>
      obtain ⟨d, ⟨⟩⟩ := operands
      cases success
      exact .inl (by simp [shape, Operands.values, Operand.value])
  | leaveScope =>
      obtain ⟨_, _, value⟩ := bind_eq_ok_iff.mp success
      cases value
      trivial
  | define =>
      obtain ⟨v, key, ⟨⟩⟩ := operands
      simp only [perform] at success
      split at success
      · rename_i name keyed
        cases success
        have named : word = "def" := eq_of_ofName? found (by decide)
        simp [Change.Fits, Moment.binding?, named, shape, Operands.values, Operand.value, keyed]
      · cases success
  | length =>
      simp only [perform] at success
      split at success <;> cases success
      exact Change.fits_push (by simp)
  | element =>
      obtain ⟨datum, read, value⟩ := bind_eq_ok_iff.mp success
      exact Change.fits_ofDatum (Store.element_ne_dictionary read) (Except.ok.inj value)
  | interval =>
      obtain ⟨datum, read, value⟩ := bind_eq_ok_iff.mp success
      exact Change.fits_ofDatum (Store.interval_ne_dictionary read) (Except.ok.inj value)
  | overwrite =>
      obtain ⟨revision, written, value⟩ := bind_eq_ok_iff.mp success
      exact Store.overwrite_fits written (Except.ok.inj value)
  | choose | forRange | times | quit => cases success
  | print =>
      cases success
      trivial

end Operator

namespace Machine

variable {m : Machine} {mode : ScopingMode} {t : Token}

theorem carries_of_find? {word : String} {d : DictionaryId}
    (found : m.find? mode word = some (.dictionary d)) : m.Carries d := by
  obtain ⟨e, _, value⟩ := List.exists_of_findSome?_eq_some found
  exact .inr ⟨e, Dictionary.mem_values_of_get? value⟩

private theorem meaning_fits {word : String} {c : Change}
    (asked : m.meaning mode word = .change c) : c.Fits ⟨.name word, m⟩ := by
  unfold meaning at asked
  split at asked <;> cases asked
  · rename_i v _ found
    intro d member
    cases List.mem_singleton.mp member
    exact carries_of_find? found
  · exact Change.fits_push (by simp)

/-- What a change is like that a token asks for, said once for all tokens. -/
theorem resolve_fits {c : Change} {left : Stack}
    (answer : m.resolve mode t = (.ok (.change c), left)) : c.Fits ⟨t, m⟩ := by
  cases t with
  | number | bool | text =>
      cases answer
      exact Change.fits_push (by simp)
  | procedure body =>
      cases answer
      trivial
  | inline body => cases answer
  | define word =>
      simp only [resolve] at answer
      split at answer <;> cases answer
      rename_i v shape
      simp [Change.Fits, Moment.binding?, shape]
  | name word =>
      simp only [resolve] at answer
      split at answer
      · rename_i op found
        obtain ⟨operands, shape, performed⟩ := Operator.invoke_eq_ok_iff.mp answer
        exact Operator.perform_fits found shape performed
      · exact meaning_fits (Except.ok.inj (congrArg Prod.fst answer))

theorem resolve_of_binding? (mode : ScopingMode) {word : String} {v : Value}
    (binding : (⟨t, m⟩ : Moment).binding? = some (word, v)) :
    ∃ left, m.resolve mode t = (.ok (.change (.bind word v)), left) := by
  simp only [Moment.binding?] at binding
  split at binding
  · rename_i v' left shape
    cases binding
    exact ⟨left, by simp only [resolve, shape]⟩
  · rename_i name v' key left shape
    split at binding
    · rename_i named
      subst named
      obtain ⟨_, keyed, pair⟩ := Option.map_eq_some_iff.mp binding
      cases pair
      refine ⟨left, ?_⟩
      have performed : Operator.define.perform { m with stack := left } (v, key, ()) =
          .ok (.change (.bind word v)) := by
        simp only [Operator.perform, keyed]
      exact Operator.invoke_eq_ok_iff.mpr ⟨(v, key, ()), shape, performed⟩
    · cases binding
  · cases binding

end Machine

theorem Operands.exists_taken (operator : String) (os : List Operand) (s : Stack) :
    ∃ taken, s = taken ++ (take operator os s).2 ∧ taken.length ≤ os.length := by
  induction os generalizing s with
  | nil => exact ⟨[], rfl, Nat.le_refl _⟩
  | cons o os ih =>
      cases s with
      | nil => exact ⟨[], rfl, Nat.zero_le _⟩
      | cons v s =>
          obtain ⟨taken, split, few⟩ := ih s
          simp only [take]
          split
          · exact ⟨[v], rfl, Nat.succ_le_succ (Nat.zero_le _)⟩
          · split <;> rename_i inner <;> rw [inner] at split
            · exact ⟨v :: taken, congrArg (v :: ·) split, Nat.succ_le_succ few⟩
            · exact ⟨v :: taken, congrArg (v :: ·) split, Nat.succ_le_succ few⟩

theorem Operator.invoke_snd (op : Operator) (m : Machine) :
    (op.invoke m).2 = (Operands.take op.label op.signature m.stack).2 := by
  unfold invoke
  split <;> rename_i left <;> rw [left]

theorem Machine.resolve_suffix (m : Machine) (mode : ScopingMode) (t : Token) :
    (m.resolve mode t).2 <:+ m.stack := by
  cases t with
  | define word =>
      simp only [resolve]
      split <;> rename_i shape
      · exact List.nil_suffix
      · rw [shape]
        exact List.suffix_cons _ _
  | name word =>
      simp only [resolve]
      split
      · rename_i op _
        obtain ⟨taken, split, _⟩ := Operands.exists_taken op.label op.signature m.stack
        rw [op.invoke_snd m]
        exact ⟨taken, split.symm⟩
      · exact List.suffix_rfl
  | _ => exact List.suffix_rfl

end Stacklet
