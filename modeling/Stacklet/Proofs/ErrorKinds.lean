import Stacklet.Proofs.RunInvariant

set_option autoImplicit false
set_option relaxedAutoImplicit false

/-!
Which errors programs can raise. A run fails at the limit of nesting or at a token that has no
answer, and every operator has few ways to fail. The rest cannot come from a run: an unbound name is
a text, and a program that ends itself does not fail.
-/

namespace Stacklet

def ErrorKind.ofPrograms : List ErrorKind :=
  [.stackUnderflow, .typeMismatch, .divisionByZero, .indexOutOfRange, .dictionaryBounds,
   .domainError, .rangeCheck, .stackOverflow]

def Operator.failures : Operator → List ErrorKind
  | .arithmetic f => if f.divides then [.divisionByZero] else []
  | .transform f => if f = .sqrt then [.domainError] else []
  | .relation _ => [.typeMismatch]
  | .exchange => [.stackUnderflow]
  | .copy => [.rangeCheck]
  | .makeDictionary => [.rangeCheck]
  | .leaveScope => [.dictionaryBounds]
  | .define => [.typeMismatch]
  | .length => [.typeMismatch]
  | .element => [.typeMismatch, .indexOutOfRange]
  | .interval => [.typeMismatch, .indexOutOfRange]
  | .overwrite => [.typeMismatch, .indexOutOfRange]
  | _ => []

private theorem error_of_bind_pure {ε α β : Type} {x : Except ε α} {f : α → β} {e : ε}
    (failed : (x >>= fun a => pure (f a)) = .error e) : x = .error e := by
  cases x with
  | error e' => exact congrArg Except.error (Except.error.inj failed)
  | ok a => cases failed

variable {e : RuntimeError}

theorem Operands.kind_of_take_error {operator : String} {os : List Operand} {s rest : Stack}
    (failed : take operator os s = (.error e, rest)) :
    e.kind = .stackUnderflow ∨ e.kind = .typeMismatch := by
  induction os generalizing s rest with
  | nil => cases failed
  | cons o os ih =>
      cases s with
      | nil =>
          cases failed
          exact .inl rfl
      | cons v s =>
          simp only [take] at failed
          split at failed
          · cases failed
            exact .inr rfl
          · split at failed
            · cases failed
            · rename_i inner
              cases failed
              exact ih inner

namespace Store

variable {s : Store} {operator : String} {start count index : Int}

private theorem kind_of_element_error {v : Value} (failed : s.element operator index v = .error e) :
    e.kind = .typeMismatch ∨ e.kind = .indexOutOfRange := by
  cases v <;> simp only [element] at failed
  case text | procedure =>
    split at failed <;> cases failed
    exact .inr rfl
  all_goals
    cases failed
    exact .inl rfl

private theorem kind_of_interval_error {v : Value}
    (failed : s.interval operator start count v = .error e) :
    e.kind = .typeMismatch ∨ e.kind = .indexOutOfRange := by
  cases v <;> simp only [interval] at failed
  case text | procedure =>
    split at failed <;> cases failed
    exact .inr rfl
  all_goals
    cases failed
    exact .inl rfl

private theorem kind_of_overwrite_error {v part : Value}
    (failed : s.overwrite operator start v part = .error e) :
    e.kind = .typeMismatch ∨ e.kind = .indexOutOfRange := by
  cases v <;> cases part <;> simp only [overwrite] at failed
  case text.text | procedure.procedure =>
    split at failed <;> cases failed
    exact .inr rfl
  all_goals
    cases failed
    exact .inl rfl

end Store

namespace Stack

private theorem kind_of_exchange_error {s : Stack} (failed : s.exchange = .error e) :
    e.kind = .stackUnderflow := by
  unfold exchange at failed
  split at failed <;> cases failed
  rfl

private theorem kind_of_copy_error {s : Stack} {count : Int} (failed : s.copy count = .error e) :
    e.kind = .rangeCheck := by
  unfold copy at failed
  split at failed
  · cases failed
    rfl
  · split at failed <;> cases failed
    rfl

end Stack

namespace Operator

private theorem kind_of_arithmetic_error {f : Arithmetic} {a b : Number}
    (failed : f.apply a b = .error e) : f.divides = true ∧ e.kind = .divisionByZero := by
  unfold Arithmetic.apply at failed
  split at failed <;> cases failed
  rename_i divides
  exact ⟨(Bool.and_eq_true_iff.mp divides).1, rfl⟩

private theorem kind_of_transform_error {f : Transform} {a : Number}
    (failed : f.apply a = .error e) : f = .sqrt ∧ e.kind = .domainError := by
  unfold Transform.apply at failed
  split at failed <;> try cases failed
  split at failed <;> cases failed
  exact ⟨rfl, rfl⟩

private theorem kind_of_order_error {operator : String} {v w : Value}
    (failed : order operator v w = .error e) : e.kind = .typeMismatch := by
  unfold order at failed
  split at failed <;> cases failed <;> rfl

private theorem kind_of_leave_error {scopes : Scopes} (failed : scopes.leave = .error e) :
    e.kind = .dictionaryBounds := by
  unfold Scopes.leave at failed
  split at failed <;> cases failed
  rfl

theorem kind_mem_failures {op : Operator} {m : Machine} {operands : Operands op.signature}
    (failed : op.perform m operands = .error e) : e.kind ∈ op.failures := by
  cases op with
  | arithmetic f =>
      obtain ⟨divides, kind⟩ := kind_of_arithmetic_error (error_of_bind_pure failed)
      simp [failures, divides, kind]
  | transform f =>
      obtain ⟨rfl, kind⟩ := kind_of_transform_error (error_of_bind_pure failed)
      simp [failures, kind]
  | relation r => simp [failures, kind_of_order_error (error_of_bind_pure failed)]
  | exchange => simp [failures, Stack.kind_of_exchange_error (error_of_bind_pure failed)]
  | copy => simp [failures, Stack.kind_of_copy_error (error_of_bind_pure failed)]
  | leaveScope => simp [failures, kind_of_leave_error (error_of_bind_pure failed)]
  | makeDictionary | define | length =>
      simp only [perform] at failed
      split at failed <;> cases failed
      simp [failures, RuntimeError.kind]
  | element => simpa [failures] using Store.kind_of_element_error (error_of_bind_pure failed)
  | interval => simpa [failures] using Store.kind_of_interval_error (error_of_bind_pure failed)
  | overwrite => simpa [failures] using Store.kind_of_overwrite_error (error_of_bind_pure failed)
  | _ => cases failed

theorem failures_subset (op : Operator) : op.failures ⊆ ErrorKind.ofPrograms := by
  cases op with
  | arithmetic f => cases f <;> decide
  | transform f => cases f <;> decide
  | _ => simp [failures, ErrorKind.ofPrograms]

end Operator

namespace Machine

variable {m : Machine} {mode : ScopingMode} {t : Token} {rest : Stack}

theorem kind_of_resolve_error (failed : m.resolve mode t = (.error e, rest)) :
    e.kind ∈ ErrorKind.ofPrograms := by
  cases t with
  | define word =>
      simp only [resolve] at failed
      split at failed <;> cases failed
      simp [RuntimeError.kind, ErrorKind.ofPrograms]
  | name word =>
      simp only [resolve] at failed
      split at failed
      · rename_i op _
        simp only [Operator.invoke] at failed
        split at failed
        · exact op.failures_subset (Operator.kind_mem_failures (Prod.mk.inj failed).1)
        · rename_i taken
          cases failed
          rcases Operands.kind_of_take_error taken with kind | kind
          · simp [kind, ErrorKind.ofPrograms]
          · simp [kind, ErrorKind.ofPrograms]
      · cases failed
  | _ => cases failed

theorem define_of_resolve_error (free : t.mentions Operator.names = false)
    (failed : m.resolve mode t = (.error e, rest)) :
    ∃ word, t = .define word ∧ m.stack = [] ∧ e = .stackUnderflow ("/" ++ word) := by
  cases t with
  | define word =>
      simp only [resolve] at failed
      split at failed <;> cases failed
      rename_i empty
      exact ⟨word, rfl, empty, rfl⟩
  | name word =>
      have unlisted : word ∉ Operator.names := by
        simpa [Token.mentions] using free
      simp only [resolve, Operator.ofName?_eq_none_iff.mpr unlisted] at failed
      cases failed
  | _ => cases failed

private def unrestricted (mode : ScopingMode) : Invariant mode where
  holds := fun _ => True
  code := fun _ => True
  stored := fun _ _ _ _ => trivial
  inline := fun _ _ _ => trivial
  push_int := fun _ _ => trivial
  set_depth := fun _ _ => trivial
  operands := fun _ _ _ => trivial
  change := fun _ _ _ => trivial

/-- Runs of tokens that name no operator, where the store names none either. -/
private def operatorFree (mode : ScopingMode) : Invariant mode where
  holds := fun m => m.store.Holds fun t => t.mentions Operator.names = false
  code := fun t => t.mentions Operator.names = false
  stored := fun held => held
  inline := (Token.hereditary_mentions Operator.names).inline
  push_int := fun _ held => held
  set_depth := fun _ held => held
  operands := fun held _ _ => held
  change := fun held free answer =>
    apply_holds held (resolve_holds (Token.hereditary_mentions _) held free answer)

variable {settings : Settings} {tokens : List Token} {after : Machine}

theorem kind_of_execute_error (failed : m.execute settings tokens = (.error e, after)) :
    e.kind ∈ ErrorKind.ofPrograms := by
  obtain ⟨_, evaluation⟩ := exists_evaluates_execute settings tokens m
  have origin := (unrestricted settings.mode).origin_of_evaluates evaluation (fun _ _ => trivial)
    trivial (congrArg Prod.fst failed)
  rcases origin with rfl | ⟨_, _, _, _, _, _, _, unanswered⟩
  · simp [RuntimeError.kind, ErrorKind.ofPrograms]
  · exact kind_of_resolve_error unanswered

theorem origin_of_operatorFree (program : ∀ t ∈ tokens, t.mentions Operator.names = false)
    (stored : m.store.Holds fun t => t.mentions Operator.names = false)
    (failed : m.execute settings tokens = (.error e, after)) :
    e = .nestingExceeded settings.limit ∨
      ∃ word earlier state, e = .stackUnderflow ("/" ++ word) ∧ state.stack = [] ∧
        Evaluates settings (.execute tokens) m (earlier ++ [⟨.define word, state⟩])
          (.error e, after) := by
  obtain ⟨trace, evaluation⟩ := exists_evaluates_execute settings tokens m
  have origin := (operatorFree settings.mode).origin_of_evaluates evaluation program stored
    (congrArg Prod.fst failed)
  refine origin.imp_right ?_
  rintro ⟨earlier, t, state, left, rfl, _, free, unanswered⟩
  obtain ⟨word, rfl, empty, error⟩ := define_of_resolve_error free unanswered
  rw [failed] at evaluation
  exact ⟨word, earlier, state, error, empty, evaluation⟩

/-- Which errors programs raise. The error of a run that fails, from any state, is of one of eight
kinds; it is no unbound name, no end that the program gives itself and no failed output. Where
neither the program nor the store names an operator, at any nesting, a run fails only at the limit
of nesting or at a definition for which there is no value on the stack. -/
theorem errors_of_programs (settings : Settings) (m : Machine) (tokens : List Token) :
    (∀ e after, m.execute settings tokens = (.error e, after) →
      e.kind ∈ ErrorKind.ofPrograms ∧
      e.kind ≠ .nameNotFound ∧ e.kind ≠ .executionTerminated ∧ e.kind ≠ .ioError) ∧
    (Token.anyMentions Operator.names tokens = false →
      (∀ p, Token.anyMentions Operator.names (m.store.body p) = false) →
      ∀ e after, m.execute settings tokens = (.error e, after) →
        e = .nestingExceeded settings.limit ∨
          ∃ word earlier state, e = .stackUnderflow ("/" ++ word) ∧ state.stack = [] ∧
            Evaluates settings (.execute tokens) m (earlier ++ [⟨.define word, state⟩])
              (.error e, after)) := by
  constructor
  · intro e after failed
    have kind : e.kind ∈ ErrorKind.ofPrograms := kind_of_execute_error failed
    refine ⟨kind, ?_, ?_, ?_⟩
    all_goals
      intro other
      rw [other] at kind
      revert kind
      decide
  · intro program stored e after failed
    exact origin_of_operatorFree ((Token.anyMentions_eq_false_iff _ _).mp program)
      (fun p => (Token.anyMentions_eq_false_iff _ _).mp (stored p)) failed

/-- One program for each of the kinds; in the second an unbound name has become a text, in the last
a procedure calls itself. And one without operators that binds a text and has none left for a
definition in a bracket. -/
theorem errors_of_programs_each :
    let programs : List (List Token) :=
      [[.name "pop"], [.name "nowhere", .number (.int 1), .name "add"],
       [.number (.int 1), .number (.int 0), .name "idiv"],
       [.text "a", .number (.int 1), .name "get"], [.name "end"],
       [.number (.int (-1)), .name "sqrt"], [.number (.int (-1)), .name "dict"],
       [.procedure [.name "f"], .define "f", .name "f"]]
    let plain : List Token := [.name "nowhere", .define "x", .inline [.define "y", .name "x"]]
    (programs.map fun tokens =>
        (fresh.execute ⟨.dynamic, 3⟩ tokens).1.mapError RuntimeError.kind) =
      ErrorKind.ofPrograms.map .error ∧
    ∃ after, fresh.execute ⟨.dynamic, 3⟩ plain = (.error (.stackUnderflow "/y"), after) ∧
      (RuntimeError.stackUnderflow "/y").kind ∈ ErrorKind.ofPrograms ∧
      ∃ earlier word state, state.stack = [] ∧
        Evaluates ⟨.dynamic, 3⟩ (.execute plain) fresh (earlier ++ [⟨.define word, state⟩])
          (.error (.stackUnderflow "/y"), after) := by
  intro programs plain
  obtain ⟨kinds, origin⟩ := errors_of_programs ⟨.dynamic, 3⟩ fresh plain
  have stored : ∀ p, Token.anyMentions Operator.names (fresh.store.body p) = false := fun p =>
    (Token.anyMentions_eq_false_iff _ _).mpr (fresh_holds p)
  refine ⟨rfl, _, rfl, (kinds _ _ rfl).1, ?_⟩
  rcases origin rfl stored _ _ rfl with overflow | ⟨word, earlier, state, _, empty, evaluation⟩
  · cases overflow
  · exact ⟨earlier, word, state, empty, evaluation⟩

end Machine

end Stacklet
