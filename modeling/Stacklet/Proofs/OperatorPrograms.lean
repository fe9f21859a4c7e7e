import Stacklet.Operator.Program
import Stacklet.Proofs.IntervalLaws

set_option autoImplicit false
set_option relaxedAutoImplicit false

/-!
Operators as programs. What a name of an operator does in a run is what the program of the operator
does, step by step: it ends in the same way and leaves the same machine, also where it fails.
-/

namespace Stacklet

namespace Program

variable {α β : Type} {m : Machine} {enter : List Token → Machine → Outcome × Machine}

theorem on_get (m : Machine) : (get : Program Machine).on m = (.ok m, m) := rfl

theorem on_ensure (condition : Prop) [Decidable condition] (e : RuntimeError) (m : Machine) :
    (ensure condition e).on m = if condition then (.ok (), m) else (.error e, m) := by
  unfold ensure
  split <;> rfl

/-- A program goes on where the one before it has succeeded, and else leaves what that one left. -/
theorem on_bind (p : Program α) (f : α → Program β) (m : Machine) :
    (p >>= f).on m =
      match p.on m with
      | (.ok x, n) => (f x).on n
      | (.error e, n) => (.error e, n) := by
  have unfolded : (p >>= f).on m =
      match p.on m with
      | (a, n) => (ExceptT.bindCont f a).run n := rfl
  rw [unfolded]
  rcases p.on m with ⟨e | x, n⟩ <;> rfl

theorem on_bind_of_ok {p : Program α} {x : α} {n : Machine} (first : p.on m = (.ok x, n))
    (f : α → Program β) : (p >>= f).on m = (f x).on n := by
  rw [on_bind, first]

theorem on_bind_of_error {p : Program α} {e : RuntimeError} {n : Machine}
    (first : p.on m = (.error e, n)) (f : α → Program β) : (p >>= f).on m = (.error e, n) := by
  rw [on_bind, first]

theorem on_take_nil (operator : String) (o : Operand) (empty : m.stack = []) :
    (take operator o).on m = (.error (.stackUnderflow operator), m) := by
  obtain ⟨store, stack, scopes, output, depth⟩ := m
  cases empty
  rfl

theorem on_take_of_error {operator : String} {o : Operand} {v : Value} {rest : Stack}
    {expected : Expected} (shape : m.stack = v :: rest) (other : o.read v = .error expected) :
    (take operator o).on m =
      (.error (.typeMismatch operator expected v.kind), { m with stack := rest }) := by
  have popped : (pop operator).on m = (.ok v, { m with stack := rest }) := by
    obtain ⟨store, stack, scopes, output, depth⟩ := m
    cases shape
    rfl
  rw [take, on_bind_of_ok popped, other]
  rfl

theorem on_take_of_ok {operator : String} {o : Operand} {v : Value} {rest : Stack} {x : o.Content}
    (shape : m.stack = v :: rest) (read : o.read v = .ok x) :
    (take operator o).on m = (.ok x, { m with stack := rest }) := by
  have popped : (pop operator).on m = (.ok v, { m with stack := rest }) := by
    obtain ⟨store, stack, scopes, output, depth⟩ := m
    cases shape
    rfl
  rw [take, on_bind_of_ok popped, read]
  rfl

/-- Whether a program takes operands off the stack, as `Operands.take` does, and then comes to what
`finish` says of them and of the machine without them. -/
def Follows (operator : String) (os : List Operand) (p : Program Flow)
    (finish : Operands os → Machine → Outcome × Machine) : Prop :=
  ∀ m, p.on m =
    match Operands.take operator os m.stack with
    | (.ok operands, rest) => finish operands { m with stack := rest }
    | (.error e, rest) => (.error e, { m with stack := rest })

theorem Follows.nil {operator : String} {p : Program Flow}
    {finish : Operands [] → Machine → Outcome × Machine} (same : ∀ m, p.on m = finish () m) :
    Follows operator [] p finish := same

theorem Follows.cons {operator : String} {o : Operand} {os : List Operand}
    {f : o.Content → Program Flow} {finish : Operands (o :: os) → Machine → Outcome × Machine}
    (rest : ∀ x, Follows operator os (f x) fun xs => finish (x, xs)) :
    Follows operator (o :: os) (take operator o >>= f) finish := by
  intro m
  cases shape : m.stack with
  | nil =>
      rw [on_bind_of_error (on_take_nil operator o shape)]
      simp only [Operands.take, ← shape]
  | cons v below =>
      cases read : o.read v with
      | error expected =>
          rw [on_bind_of_error (on_take_of_error shape read)]
          simp only [Operands.take, read]
      | ok x =>
          rw [on_bind_of_ok (on_take_of_ok shape read), rest x]
          simp only [Operands.take, read]
          rcases Operands.take operator os below with ⟨e | xs, left⟩ <;> rfl

end Program

namespace Operator

def finish (enter : List Token → Machine → Outcome × Machine) (op : Operator)
    (operands : Operands op.signature) (m : Machine) : Outcome × Machine :=
  match op.perform m operands with
  | .ok effect => Machine.perform enter effect m
  | .error e => (.error e, m)

end Operator

namespace Program

variable {m : Machine} {enter : List Token → Machine → Outcome × Machine}

theorem on_exchange (m : Machine) :
    exchange.on m =
      match m.stack.exchange with
      | .ok stack => (.ok (), { m with stack := stack })
      | .error e => (.error e, m) := by
  obtain ⟨store, stack, scopes, output, depth⟩ := m
  match stack with
  | [] => rfl
  | [v] => rfl
  | v :: w :: rest => rfl

theorem on_copy (count : Int64) (m : Machine) :
    (copy count).on m =
      match m.stack.copy count.toInt with
      | .ok stack => (.ok (), { m with stack := stack })
      | .error e => (.error e, m) := by
  simp only [copy, Stack.copy, on_bind, on_get, on_ensure]
  by_cases negative : count.toInt < 0
  · rw [if_neg (by omega), if_pos negative]
  · rw [if_pos (by omega), if_neg negative]
    by_cases deep : count.toInt.toNat ≤ m.stack.length
    · simp only [if_pos deep, if_neg (Nat.not_lt.mpr deep)]
      rfl
    · simp only [if_neg deep, if_pos (Nat.not_le.mp deep)]

theorem on_endScope (m : Machine) :
    endScope.on m =
      match m.scopes.leave with
      | .ok (_, outer) => (.ok (), { m with scopes := outer })
      | .error e => (.error e, m) := by
  obtain ⟨store, stack, ⟨base, inner⟩, output, depth⟩ := m
  cases inner with
  | nil => rfl
  | cons d outer =>
      have more : 1 < (Scopes.mk base (d :: outer)).frames.length := by simp [Scopes.depth]
      simp only [endScope, on_bind, on_get, on_ensure, if_pos more]
      rfl

theorem on_element (operator : String) (index : Int64) (v : Value) (m : Machine) :
    (element operator index v).on m =
      match m.store.element operator index.toInt v with
      | .ok d => (.ok (m.store.realize d).1, { m with store := (m.store.realize d).2 })
      | .error e => (.error e, m) := by
  cases v with
  | text t =>
      simp only [element, Store.element]
      cases Interval.element? index.toInt t.toList <;> rfl
  | procedure p =>
      simp only [element, Store.element, on_bind, on_get]
      cases Interval.element? index.toInt (m.store.body p) <;> rfl
  | _ => rfl

theorem on_interval (operator : String) (start count : Int64) (v : Value) (m : Machine) :
    (interval operator start count v).on m =
      match m.store.interval operator start.toInt count.toInt v with
      | .ok d => (.ok (m.store.realize d).1, { m with store := (m.store.realize d).2 })
      | .error e => (.error e, m) := by
  cases v with
  | text t =>
      simp only [interval, Store.interval, Interval.read?_eq_map_bounds?]
      cases Interval.bounds? start count t.toList.length <;> rfl
  | procedure p =>
      simp only [interval, Store.interval, Interval.read?_eq_map_bounds?, on_bind, on_get]
      cases Interval.bounds? start count (m.store.body p).length <;> rfl
  | _ => rfl

theorem on_overwrite (operator : String) (start : Int64) (v part : Value) (m : Machine) :
    (overwrite operator start v part).on m =
      match m.store.overwrite operator start.toInt v part with
      | .ok r => (.ok (m.store.revise r).1, { m with store := (m.store.revise r).2 })
      | .error e => (.error e, m) := by
  cases v with
  | text t =>
      cases part with
      | text u =>
          simp only [overwrite, Store.overwrite, Interval.write?, on_bind, on_ensure]
          by_cases inside : 0 ≤ start.toInt ∧ start.toInt + u.toList.length ≤ t.toList.length
          · simp only [if_pos inside]
            rfl
          · simp only [if_neg inside]
      | _ => rfl
  | procedure p =>
      cases part with
      | procedure q =>
          simp only [overwrite, Store.overwrite, Interval.write?, on_bind, on_get, on_ensure]
          by_cases inside : 0 ≤ start.toInt ∧
              start.toInt + (m.store.body q).length ≤ (m.store.body p).length
          · simp only [if_pos inside]
            rfl
          · simp only [if_neg inside]
      | _ => rfl
  | _ => rfl

theorem on_loop_succ (body : Int → Program Flow) (count : Nat) (i : Int) (m : Machine) :
    (loop body (count + 1) i).on m =
      Machine.andThen ((body i).on m) (loop body count (i + 1)).on := by
  rw [loop, on_bind]
  rcases (body i).on m with ⟨e | flow, n⟩
  · rfl
  · cases flow <;> rfl

theorem on_loop_call (p : ProcedureId) (count : Nat) (i : Int) (m : Machine) :
    (loop (fun _ => call enter p) count i).on m = Machine.runTimes enter p count m := by
  induction count generalizing i m with
  | zero => rfl
  | succ count ih =>
      have later : (loop (fun _ => call enter p) count (i + 1)).on =
          Machine.runTimes enter p count := funext (ih (i + 1))
      rw [on_loop_succ, later]
      rfl

theorem on_loop_push_call (p : ProcedureId) (count : Nat) (i : Int) (m : Machine) :
    (loop (fun i => do push (.int (Int64.ofInt i)); call enter p) count i).on m =
      Machine.runRange enter p count i m := by
  induction count generalizing i m with
  | zero => rfl
  | succ count ih => rw [on_loop_succ, funext (ih (i + 1))]; rfl

theorem follows_ofOperator (op : Operator) :
    Follows op.label op.signature (ofOperator enter op) (op.finish enter) := by
  cases op with
  | arithmetic f =>
      refine .cons fun b => .cons fun a => .nil fun m => ?_
      simp only [Operator.finish, Operator.perform]
      cases f.apply a b <;> rfl
  | transform f =>
      refine .cons fun a => .nil fun m => ?_
      simp only [Operator.finish, Operator.perform]
      cases f.apply a <;> rfl
  | relation r =>
      refine .cons fun b => .cons fun a => .nil fun m => ?_
      simp only [Operator.finish, Operator.perform]
      cases Operator.order r.label a b <;> rfl
  | equal | notEqual | conjunction | disjunction =>
      exact .cons fun _ => .cons fun _ => .nil fun _ => rfl
  | negation | discard | enterScope | maxLength | print => exact .cons fun _ => .nil fun _ => rfl
  | constant | clear | count | quit => exact .nil fun _ => rfl
  | duplicate =>
      -- The top value stays where it is and is pushed again, with the same result.
      rintro ⟨store, stack, scopes, output, depth⟩
      cases stack <;> rfl
  | exchange =>
      refine .nil fun m => ?_
      simp only [Operator.finish, Operator.perform, ofOperator, on_bind, on_exchange]
      cases m.stack.exchange <;> rfl
  | copy =>
      refine .cons fun n => .nil fun m => ?_
      simp only [Operator.finish, Operator.perform, on_bind, on_copy]
      cases m.stack.copy n.toInt <;> rfl
  | makeDictionary =>
      refine .cons fun n => .nil fun m => ?_
      simp only [Operator.finish, Operator.perform, on_bind, on_ensure]
      by_cases negative : n.toInt < 0
      · rw [if_neg (by omega), if_pos negative]
      · rw [if_pos (by omega), if_neg negative]
        rfl
  | leaveScope =>
      refine .nil fun m => ?_
      simp only [Operator.finish, Operator.perform, ofOperator, on_bind, on_endScope]
      obtain ⟨store, stack, ⟨base, inner⟩, output, depth⟩ := m
      cases inner <;> rfl
  | define =>
      refine .cons fun value => .cons fun key => .nil fun m => ?_
      simp only [Operator.finish, Operator.perform]
      cases Value.key? key <;> rfl
  | length =>
      refine .cons fun v => .nil fun m => ?_
      simp only [Operator.finish, Operator.perform, on_bind, on_get]
      cases m.store.length? v <;> rfl
  | element =>
      refine .cons fun index => .cons fun v => .nil fun m => ?_
      simp only [Operator.finish, Operator.perform, on_bind, on_element]
      rcases m.store.element "get" index.toInt v with e | ⟨u | body⟩ <;> rfl
  | interval =>
      refine .cons fun count => .cons fun start => .cons fun v => .nil fun m => ?_
      simp only [Operator.finish, Operator.perform, on_bind, on_interval]
      rcases m.store.interval "getinterval" start.toInt count.toInt v with e | ⟨u | body⟩ <;> rfl
  | overwrite =>
      refine .cons fun part => .cons fun start => .cons fun v => .nil fun m => ?_
      simp only [Operator.finish, Operator.perform, on_bind, on_overwrite]
      rcases m.store.overwrite "putinterval" start.toInt v part with e | ⟨u | ⟨p, body⟩⟩ <;> rfl
  | choose long => exact .cons fun _ => .cons fun _ => .cons fun _ => .nil fun _ => rfl
  | forRange =>
      exact .cons fun body => .cons fun last => .cons fun first => .nil (on_loop_push_call body _ _)
  | times => exact .cons fun body => .cons fun n => .nil (on_loop_call body _ 0)

/-- The name of an operator does what the program of the operator does. -/
theorem step_eq_on {word : String} {op : Operator} (listed : Operator.ofName? word = some op)
    (mode : ScopingMode) (enter : List Token → Machine → Outcome × Machine) (m : Machine) :
    m.step mode enter (.name word) = (ofOperator enter op).on m := by
  rw [follows_ofOperator op m]
  simp only [Machine.step, Machine.resolve, listed, Operator.invoke, Operator.finish]
  rcases Operands.take op.label op.signature m.stack with ⟨e | operands, rest⟩
  · rfl
  · dsimp only
    cases op.perform { m with stack := rest } operands <;> rfl

end Program

end Stacklet
