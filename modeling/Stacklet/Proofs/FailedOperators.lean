import Stacklet.Proofs.OperatorPrograms
import Stacklet.Proofs.SourceJoin

set_option autoImplicit false
set_option relaxedAutoImplicit false

/-!
Operators that fail. The program of an operator does nothing but take values off the stack until its
last check is made: nothing that can fail comes after a change of another kind. So a failed operator
leaves no trace but on top of the stack.
-/

namespace Stacklet

/-- What is left of a machine that has only lost values on top of its stack, at most `n` of them:
everything else is as it was. -/
structure Machine.OnlyPops (n : Nat) (before after : Machine) : Prop where
  stack : ∃ taken, before.stack = taken ++ after.stack ∧ taken.length ≤ n
  scopes : after.scopes = before.scopes
  store : after.store = before.store
  output : after.output = before.output
  depth : after.depth = before.depth

namespace Machine.OnlyPops

variable {j k : Nat} {a b c : Machine}

theorem refl (n : Nat) (m : Machine) : OnlyPops n m m :=
  ⟨⟨[], rfl, Nat.zero_le n⟩, rfl, rfl, rfl, rfl⟩

theorem trans (first : OnlyPops j a b) (second : OnlyPops k b c) : OnlyPops (j + k) a c := by
  obtain ⟨upper, above, short⟩ := first.stack
  obtain ⟨lower, below, few⟩ := second.stack
  refine ⟨⟨upper ++ lower, ?_, ?_⟩, second.scopes.trans first.scopes,
    second.store.trans first.store, second.output.trans first.output,
    second.depth.trans first.depth⟩
  · rw [above, below, List.append_assoc]
  · rw [List.length_append]
    omega

theorem mono (pops : OnlyPops j a b) (more : j ≤ k) : OnlyPops k a b := by
  obtain ⟨taken, split, short⟩ := pops.stack
  exact { pops with stack := ⟨taken, split, Nat.le_trans short more⟩ }

end Machine.OnlyPops

namespace Program

open Machine (OnlyPops)

variable {α β : Type} {n j k : Nat} {p : Program α} {f : α → Program β}

/-- Whether a program takes at most `n` values and does nothing else, however it ends. -/
def Takes (n : Nat) (p : Program α) : Prop := ∀ m, OnlyPops n m (p.on m).2

/-- Whether a program that fails has only taken values by then, at most `n` of them. One that
succeeds can have done anything. -/
def Checked (n : Nat) (p : Program α) : Prop :=
  ∀ m e after, p.on m = (.error e, after) → OnlyPops n m after

def Succeeds (p : Program α) : Prop := ∀ m, ∃ x after, p.on m = (.ok x, after)

section Rules

theorem Takes.checked (takes : Takes n p) : Checked n p := by
  intro m e after failed
  have taken := takes m
  rwa [failed] at taken

theorem Succeeds.checked (succeeds : Succeeds p) : Checked 0 p := by
  intro m e after failed
  obtain ⟨x, between, ran⟩ := succeeds m
  cases failed.symm.trans ran

theorem Checked.mono (checked : Checked j p) (more : j ≤ k) : Checked k p :=
  fun m e after failed => (checked m e after failed).mono more

theorem Takes.bind (takes : Takes j p) (rest : ∀ x, Checked k (f x)) :
    Checked (j + k) (p >>= f) := by
  intro m e after failed
  have first := takes m
  rcases ran : p.on m with ⟨e' | x, between⟩
  · rw [on_bind_of_error ran] at failed
    cases failed
    rw [ran] at first
    exact first.mono (Nat.le_add_right j k)
  · rw [on_bind_of_ok ran] at failed
    rw [ran] at first
    exact first.trans (rest x between e after failed)

/-- Whatever a program does when it succeeds, it can be followed by one that never fails. -/
theorem Checked.bind (checked : Checked n p) (rest : ∀ x, Succeeds (f x)) :
    Checked n (p >>= f) := by
  intro m e after failed
  rcases ran : p.on m with ⟨e' | x, between⟩
  · rw [on_bind_of_error ran] at failed
    cases failed
    exact checked m _ _ ran
  · obtain ⟨y, final, finished⟩ := rest x between
    rw [on_bind_of_ok ran, finished] at failed
    cases failed

theorem Succeeds.bind (succeeds : Succeeds p) (rest : ∀ x, Succeeds (f x)) :
    Succeeds (p >>= f) := by
  intro m
  obtain ⟨x, between, ran⟩ := succeeds m
  rw [on_bind_of_ok ran]
  exact rest x between

end Rules

section Steps

theorem takes_get : Takes 0 (get : Program Machine) := OnlyPops.refl 0

theorem takes_throw (e : RuntimeError) : Takes 0 (throw e : Program α) := OnlyPops.refl 0

theorem takes_liftM (x : Except RuntimeError α) : Takes 0 (liftM x : Program α) := OnlyPops.refl 0

theorem takes_ensure (condition : Prop) [Decidable condition] (e : RuntimeError) :
    Takes 0 (ensure condition e) := by
  intro m
  rw [on_ensure]
  split <;> exact .refl 0 m

theorem takes_require (found : Option α) (e : RuntimeError) : Takes 0 (require found e) := by
  intro m
  cases found <;> exact .refl 0 m

theorem takes_take (operator : String) (o : Operand) : Takes 1 (take operator o) := by
  intro m
  cases shape : m.stack with
  | nil =>
      rw [on_take_nil operator o shape]
      exact .refl 1 m
  | cons v rest =>
      have popped : OnlyPops 1 m { m with stack := rest } :=
        ⟨⟨[v], shape, Nat.le_refl 1⟩, rfl, rfl, rfl, rfl⟩
      cases read : o.read v with
      | ok x => rwa [on_take_of_ok shape read]
      | error expected => rwa [on_take_of_error shape read]

theorem succeeds_pure (x : α) : Succeeds (pure x : Program α) := fun _ => ⟨_, _, rfl⟩

theorem succeeds_modify (g : Machine → Machine) : Succeeds (modify g : Program PUnit) :=
  fun _ => ⟨_, _, rfl⟩

theorem succeeds_push (v : Value) : Succeeds (push v) := fun _ => ⟨_, _, rfl⟩

theorem succeeds_answer (v : Value) : Succeeds (answer v) := fun _ => ⟨_, _, rfl⟩

theorem succeeds_realize (d : Datum) : Succeeds (realize d) := fun _ => ⟨_, _, rfl⟩

theorem succeeds_makeDictionary (capacity : Nat) : Succeeds (makeDictionary capacity) :=
  fun _ => ⟨_, _, rfl⟩

theorem succeeds_loop {body : Int → Program Flow} (each : ∀ i, Succeeds (body i)) (count : Nat)
    (i : Int) : Succeeds (loop body count i) := by
  induction count generalizing i with
  | zero => exact succeeds_pure _
  | succ count ih =>
      refine (each i).bind fun flow => ?_
      cases flow with
      | completed => exact ih (i + 1)
      | terminated => exact succeeds_pure _

end Steps

def idle : List Token → Machine → Outcome × Machine := fun _ m => (.ok .completed, m)

theorem succeeds_call_idle (p : ProcedureId) : Succeeds (call idle p) := fun _ => ⟨_, _, rfl⟩

theorem checked_exchange : Checked 0 exchange :=
  takes_get.bind fun _ => (takes_ensure _ _).bind fun _ => (succeeds_modify _).checked

theorem checked_copy (count : Int64) : Checked 0 (copy count) :=
  (takes_ensure _ _).bind fun _ => takes_get.bind fun _ => (takes_ensure _ _).bind fun _ =>
    (succeeds_modify _).checked

theorem checked_endScope : Checked 0 endScope :=
  takes_get.bind fun _ => (takes_ensure _ _).bind fun _ => (succeeds_modify _).checked

theorem checked_element (operator : String) (index : Int64) (v : Value) :
    Checked 0 (element operator index v) := by
  cases v with
  | text t => exact (takes_require _ _).bind fun _ => (succeeds_pure _).checked
  | procedure p =>
      exact takes_get.bind fun _ => (takes_require _ _).bind fun _ => (succeeds_realize _).checked
  | _ => exact (takes_throw _).checked

theorem checked_interval (operator : String) (start count : Int64) (v : Value) :
    Checked 0 (interval operator start count v) := by
  cases v with
  | text t => exact (takes_require _ _).bind fun _ => (succeeds_pure _).checked
  | procedure p =>
      exact takes_get.bind fun _ => (takes_require _ _).bind fun _ => (succeeds_realize _).checked
  | _ => exact (takes_throw _).checked

theorem checked_overwrite (operator : String) (start : Int64) (v part : Value) :
    Checked 0 (overwrite operator start v part) := by
  cases v with
  | text t =>
      cases part with
      | text u => exact (takes_ensure _ _).bind fun _ => (succeeds_pure _).checked
      | _ => exact (takes_throw _).checked
  | procedure p =>
      cases part with
      | procedure q =>
          exact takes_get.bind fun _ => takes_get.bind fun _ => (takes_ensure _ _).bind fun _ =>
            ((succeeds_modify _).bind fun _ => succeeds_pure _).checked
      | _ => exact (takes_throw _).checked
  | _ => exact (takes_throw _).checked

theorem checked_ofOperator_idle (op : Operator) :
    Checked op.signature.length (ofOperator idle op) := by
  cases op with
  | arithmetic | relation =>
      exact (takes_take _ _).bind fun _ => (takes_take _ _).bind fun _ =>
        (takes_liftM _).bind fun _ => (succeeds_answer _).checked
  | transform =>
      exact (takes_take _ _).bind fun _ => (takes_liftM _).bind fun _ =>
        (succeeds_answer _).checked
  | equal | notEqual =>
      exact (takes_take _ _).bind fun _ => (takes_take _ _).bind fun _ =>
        takes_get.bind fun _ => (succeeds_answer _).checked
  | conjunction | disjunction =>
      exact (takes_take _ _).bind fun _ => (takes_take _ _).bind fun _ =>
        (succeeds_answer _).checked
  | negation => exact (takes_take _ _).bind fun _ => (succeeds_answer _).checked
  | constant => exact (succeeds_answer _).checked
  | duplicate =>
      have looks : Checked 0 (ofOperator idle .duplicate) :=
        takes_get.bind fun _ => (takes_liftM _).bind fun _ => (succeeds_answer _).checked
      exact looks.mono (Nat.zero_le 1)
  | exchange => exact checked_exchange.bind fun _ => succeeds_pure _
  | discard => exact (takes_take _ _).bind fun _ => (succeeds_pure _).checked
  | clear => exact ((succeeds_modify _).bind fun _ => succeeds_pure _).checked
  | count => exact takes_get.bind fun _ => (succeeds_answer _).checked
  | copy =>
      exact (takes_take _ .integer).bind fun n =>
        (checked_copy n).bind fun _ => succeeds_pure _
  | makeDictionary =>
      exact (takes_take _ _).bind fun _ => (takes_ensure _ _).bind fun _ =>
        ((succeeds_makeDictionary _).bind fun _ => succeeds_answer _).checked
  | enterScope | print =>
      exact (takes_take _ _).bind fun _ =>
        ((succeeds_modify _).bind fun _ => succeeds_pure _).checked
  | leaveScope => exact checked_endScope.bind fun _ => succeeds_pure _
  | define =>
      exact (takes_take _ _).bind fun _ => (takes_take _ _).bind fun _ =>
        (takes_require _ _).bind fun _ =>
          ((succeeds_modify _).bind fun _ => succeeds_pure _).checked
  | length =>
      exact (takes_take _ _).bind fun _ => takes_get.bind fun _ =>
        (takes_require _ _).bind fun _ => (succeeds_answer _).checked
  | maxLength =>
      exact (takes_take _ _).bind fun _ => takes_get.bind fun _ => (succeeds_answer _).checked
  | element =>
      exact (takes_take _ .integer).bind fun index => (takes_take _ .any).bind fun v =>
        (checked_element "get" index v).bind fun _ => succeeds_answer _
  | interval =>
      exact (takes_take _ .integer).bind fun count => (takes_take _ .integer).bind fun start =>
        (takes_take _ .any).bind fun v =>
          (checked_interval "getinterval" start count v).bind fun _ => succeeds_answer _
  | overwrite =>
      exact (takes_take _ .any).bind fun part => (takes_take _ .integer).bind fun start =>
        (takes_take _ .any).bind fun v =>
          (checked_overwrite "putinterval" start v part).bind fun _ => succeeds_answer _
  | choose =>
      exact (takes_take _ _).bind fun _ => (takes_take _ _).bind fun _ =>
        (takes_take _ _).bind fun _ => (succeeds_call_idle _).checked
  | forRange =>
      exact (takes_take _ .procedure).bind fun body => (takes_take _ _).bind fun _ =>
        (takes_take _ _).bind fun _ =>
          (succeeds_loop (fun _ => (succeeds_push _).bind fun _ => succeeds_call_idle body)
            _ _).checked
  | times =>
      exact (takes_take _ .procedure).bind fun body => (takes_take _ _).bind fun _ =>
        (succeeds_loop (fun _ => succeeds_call_idle body) _ _).checked
  | quit => exact (succeeds_pure _).checked

end Program

namespace Operator

open Program (idle ofOperator)

def runsProcedure : Operator → Bool
  | .choose _ => true
  | .forRange => true
  | .times => true
  | _ => false

/-- Whether an operator, if it runs procedures at all, fails before it runs one: it would also fail
if procedures did nothing. -/
def FailsEarly (op : Operator) (m : Machine) : Prop :=
  op.runsProcedure = true → ∃ e, ((ofOperator idle op).on m).1 = .error e

end Operator

namespace Program

open Machine (OnlyPops)

variable {op : Operator} {m : Machine}

theorem ofOperator_of_plain (plain : op.runsProcedure = false)
    (enter : List Token → Machine → Outcome × Machine) :
    ofOperator enter op = ofOperator idle op := by
  cases op with
  | choose | forRange | times => cases plain
  | _ => rfl

theorem exists_finish_idle (runs : op.runsProcedure = true) (operands : Operands op.signature)
    (m : Machine) : ∃ flow after, op.finish idle operands m = (.ok flow, after) := by
  cases op with
  | choose => exact ⟨_, _, rfl⟩
  | forRange =>
      obtain ⟨p, last, first, ⟨⟩⟩ := operands
      have each (i : Int) : Succeeds (do push (.int (Int64.ofInt i)); call idle p) :=
        (succeeds_push _).bind fun _ => succeeds_call_idle p
      have ran := succeeds_loop each (last.toInt - first.toInt + 1).toNat first.toInt m
      rwa [on_loop_push_call] at ran
  | times =>
      obtain ⟨p, n, ⟨⟩⟩ := operands
      have ran := succeeds_loop (fun _ => succeeds_call_idle p) n.toInt.toNat 0 m
      rwa [on_loop_call] at ran
  | _ => cases runs

theorem failsEarly_iff :
    op.FailsEarly m ↔ (op.runsProcedure = true →
      ∃ e, (Operands.take op.label op.signature m.stack).1 = .error e) := by
  refine forall_congr' fun runs => ?_
  rw [follows_ofOperator op m]
  rcases Operands.take op.label op.signature m.stack with ⟨e | operands, rest⟩
  · simp
  · obtain ⟨flow, after, ran⟩ := exists_finish_idle runs operands { m with stack := rest }
    simp [ran]

theorem on_idle_of_error {enter : List Token → Machine → Outcome × Machine} {e : RuntimeError}
    {after : Machine} (early : op.FailsEarly m)
    (failed : (ofOperator enter op).on m = (.error e, after)) :
    (ofOperator idle op).on m = (.error e, after) := by
  cases runs : op.runsProcedure with
  | false => rwa [ofOperator_of_plain runs] at failed
  | true =>
      obtain ⟨_, missing⟩ := failsEarly_iff.mp early runs
      rw [follows_ofOperator op m] at failed ⊢
      rcases taken : Operands.take op.label op.signature m.stack with ⟨e' | operands, rest⟩
      · rwa [taken] at failed
      · rw [taken] at missing
        cases missing

theorem onlyPops_of_error {enter : List Token → Machine → Outcome × Machine} {e : RuntimeError}
    {after : Machine} (early : op.FailsEarly m)
    (failed : (ofOperator enter op).on m = (.error e, after)) :
    OnlyPops op.signature.length m after :=
  checked_ofOperator_idle op m e after (on_idle_of_error early failed)

end Program

namespace Machine

/-- A failed operator only pops. If the program of an operator fails, for one that runs procedures
before any of them is run, the stack has lost at most as many values on top as the operator has
operands; the scopes, all procedures and dictionaries, the output and the depth are as they were.
It fails before it runs a procedure exactly if it does not get its operands. The program is what a
name of the operator does at any place in a run, and so the same holds of a program of that name
alone. -/
theorem failed_operator_only_pops (op : Operator) :
    (∀ m enter e after, op.FailsEarly m →
      (Program.ofOperator enter op).on m = (.error e, after) →
        OnlyPops op.signature.length m after) ∧
    (∀ m, op.FailsEarly m ↔ (op.runsProcedure = true →
      ∃ e, (Operands.take op.label op.signature m.stack).1 = .error e)) ∧
    ∀ word, Operator.ofName? word = some op →
      (∀ m mode enter,
        step mode enter (.name word) m = (Program.ofOperator enter op).on m) ∧
      ∀ m settings e after, op.FailsEarly m →
        m.execute settings [.name word] = (.error e, after) →
          OnlyPops op.signature.length m after := by
  refine ⟨fun m enter e after early failed => Program.onlyPops_of_error early failed,
    fun m => Program.failsEarly_iff, ?_⟩
  intro word listed
  refine ⟨fun m mode enter => Program.step_eq_on listed mode enter m, ?_⟩
  intro m settings e after early failed
  by_cases room : m.depth < settings.limit
  · -- The operator runs one level down, and the level is left again.
    let inside : Machine := { m with depth := m.depth + 1 }
    have down : op.FailsEarly inside :=
      Program.failsEarly_iff.mpr ((Program.failsEarly_iff (m := m)).mp early)
    rw [execute_singleton room] at failed
    rcases ran : (Task.token (.name word)).run settings (settings.limit - (m.depth + 1)) inside
      with ⟨outcome, left⟩
    rw [ran] at failed
    cases failed
    have pops : OnlyPops op.signature.length inside left :=
      Program.onlyPops_of_error down ((Program.step_eq_on listed _ _ inside).symm.trans ran)
    exact ⟨pops.stack, pops.scopes, pops.store, pops.output, rfl⟩
  · rw [execute_of_le (Nat.not_lt.mp room)] at failed
    cases failed
    exact .refl _ m

/-- A procedure that is to be overwritten by itself past its end stays as it is, so does a name that
is to be bound under a key that is none, and a choice without its condition runs neither side. -/
theorem failed_operator_only_pops_overwrite :
    let body : List Token := [.number (.int 1), .name "add"]
    let m : Machine := fresh.apply (.makeProcedure body)
    let overlong : Machine := { m with stack := m.stack ++ [.int 1] ++ m.stack ++ [.bool true] }
    let keyless : Machine := { m with stack := m.stack ++ [.bool true] }
    let unconditional : Machine := { m with stack := m.stack ++ m.stack }
    (overlong.step .dynamic Program.idle (.name "putinterval") =
        (.error (.intervalOutOfRange "putinterval" 1 2 2), { m with stack := [.bool true] }) ∧
      OnlyPops 3 overlong { m with stack := [.bool true] }) ∧
    (keyless.execute ⟨.dynamic, 1⟩ [.name "def"] =
        (.error (.typeMismatch "def" .key .boolean), { m with stack := [] }) ∧
      OnlyPops 2 keyless { m with stack := [] }) ∧
    unconditional.execute ⟨.dynamic, 1⟩ [.name "if"] =
        (.error (.stackUnderflow "if"), { m with stack := [] }) ∧
      OnlyPops 3 unconditional { m with stack := [] } := by
  intro body m overlong keyless unconditional
  have overwrites : Operator.ofName? "putinterval" = some .overwrite := by decide
  have defines : Operator.ofName? "def" = some .define := by decide
  have chooses : Operator.ofName? "if" = some (.choose false) := by decide
  have unwritten : overlong.step .dynamic Program.idle (.name "putinterval") =
      (.error (.intervalOutOfRange "putinterval" 1 2 2), { m with stack := [.bool true] }) := rfl
  have unbound : keyless.execute ⟨.dynamic, 1⟩ [.name "def"] =
      (.error (.typeMismatch "def" .key .boolean), { m with stack := [] }) := rfl
  have unchosen : unconditional.execute ⟨.dynamic, 1⟩ [.name "if"] =
      (.error (.stackUnderflow "if"), { m with stack := [] }) := rfl
  have early : Operator.FailsEarly (.choose false) unconditional := fun _ => ⟨_, rfl⟩
  obtain ⟨pops, -, named⟩ := failed_operator_only_pops .overwrite
  have stepped := (named _ overwrites).1 overlong .dynamic Program.idle
  refine ⟨⟨unwritten, ?_⟩, ⟨unbound, ?_⟩, unchosen, ?_⟩
  · exact pops overlong _ _ _ nofun (stepped.symm.trans unwritten)
  · exact ((failed_operator_only_pops .define).2.2 _ defines).2 keyless _ _ _ nofun unbound
  · exact ((failed_operator_only_pops (.choose false)).2.2 _ chooses).2 _ _ _ _ early unchosen

end Machine

end Stacklet
