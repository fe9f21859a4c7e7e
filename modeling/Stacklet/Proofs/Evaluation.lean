import Stacklet.Proofs.OperandUse

set_option autoImplicit false
set_option relaxedAutoImplicit false

/-!
Evaluation as a relation. Its rules say how each kind of token runs and know no bound in advance:
a level is entered whenever the depth is below the limit, a call runs what the procedure holds at
that moment, and a loop goes on as long as its index is within its bounds. A derivation is finite,
so one for every program means that every program ends.
-/

namespace Stacklet

structure Moment where
  token : Token
  state : Machine

inductive Task where
  | execute (tokens : List Token)
  | sequence (tokens : List Token)
  | token (t : Token)
  | times (count : Nat) (p : ProcedureId)
  | range (i last : Int) (p : ProcedureId)

/-- The rules of evaluation: a task, the state before, the tokens taken up on the way at all levels
in their order, and how it ends. Every state in which a part of a derivation begins or ends has the
property `P`. -/
inductive EvaluatesWithin (settings : Settings) (P : Machine → Prop) :
    Task → Machine → List Moment → Outcome × Machine → Prop
  | overflow {tokens : List Token} {m : Machine} (exceeded : settings.limit ≤ m.depth)
      (here : P m := by trivial) :
      EvaluatesWithin settings P (.execute tokens) m []
        (.error (.nestingExceeded settings.limit), m)
  | enter {tokens : List Token} {m after : Machine} {trace : List Moment} {outcome : Outcome}
      (within : m.depth < settings.limit)
      (inside : EvaluatesWithin settings P (.sequence tokens) { m with depth := m.depth + 1 } trace
        (outcome, after))
      (here : P m := by trivial)
      (there : P { after with depth := after.depth - 1 } := by trivial) :
      EvaluatesWithin settings P (.execute tokens) m trace
        (outcome, { after with depth := after.depth - 1 })
  | done {m : Machine}
      (here : P m := by trivial) :
      EvaluatesWithin settings P (.sequence []) m [] (.ok .completed, m)
  | next {t : Token} {ts : List Token} {m between : Machine} {trace trace' : List Moment}
      {result : Outcome × Machine}
      (first : EvaluatesWithin settings P (.token t) m trace (.ok .completed, between))
      (rest : EvaluatesWithin settings P (.sequence ts) between trace' result)
      (here : P m := by trivial) :
      EvaluatesWithin settings P (.sequence (t :: ts)) m (trace ++ trace') result
  | stop {t : Token} {ts : List Token} {m after : Machine} {trace : List Moment}
      {outcome : Outcome}
      (first : EvaluatesWithin settings P (.token t) m trace (outcome, after))
      (ended : outcome ≠ .ok .completed)
      (here : P m := by trivial) :
      EvaluatesWithin settings P (.sequence (t :: ts)) m trace (outcome, after)
  | failure {t : Token} {m : Machine} {e : RuntimeError} {left : Stack}
      (answer : m.resolve settings.mode t = (.error e, left))
      (here : P m := by trivial)
      (there : P { m with stack := left } := by trivial) :
      EvaluatesWithin settings P (.token t) m [⟨t, m⟩] (.error e, { m with stack := left })
  | change {t : Token} {m : Machine} {c : Change} {left : Stack}
      (answer : m.resolve settings.mode t = (.ok (.change c), left))
      (here : P m := by trivial)
      (there : P (({ m with stack := left } : Machine).apply c) := by trivial) :
      EvaluatesWithin settings P (.token t) m [⟨t, m⟩]
        (.ok .completed, ({ m with stack := left } : Machine).apply c)
  | quit {word : String} {m : Machine} (found : Operator.ofName? word = some .quit)
      (here : P m := by trivial) :
      EvaluatesWithin settings P (.token (.name word)) m [⟨.name word, m⟩] (.ok .terminated, m)
  | inline {body : List Token} {m : Machine} {trace : List Moment} {result : Outcome × Machine}
      (inside : EvaluatesWithin settings P (.execute body) m trace result)
      (here : P m := by trivial) :
      EvaluatesWithin settings P (.token (.inline body)) m (⟨.inline body, m⟩ :: trace) result
  | call {word : String} {p : ProcedureId} {m : Machine} {trace : List Moment}
      {result : Outcome × Machine} (free : Operator.ofName? word = none)
      (bound : m.find? settings.mode word = some (.procedure p))
      (inside : EvaluatesWithin settings P (.execute (m.store.body p)) m trace result)
      (here : P m := by trivial) :
      EvaluatesWithin settings P (.token (.name word)) m (⟨.name word, m⟩ :: trace) result
  | choose {word : String} {long condition : Bool} {yes no : ProcedureId} {m : Machine}
      {left : Stack} {trace : List Moment} {result : Outcome × Machine}
      (found : Operator.ofName? word = some (.choose long))
      (shape : m.stack = .procedure no :: .procedure yes :: .bool condition :: left)
      (inside : EvaluatesWithin settings P
        (.execute (m.store.body (if condition then yes else no))) { m with stack := left } trace
        result)
      (here : P m := by trivial) :
      EvaluatesWithin settings P (.token (.name word)) m (⟨.name word, m⟩ :: trace) result
  | forRange {word : String} {first last : Int64} {p : ProcedureId} {m : Machine} {left : Stack}
      {trace : List Moment} {result : Outcome × Machine}
      (found : Operator.ofName? word = some .forRange)
      (shape : m.stack = .procedure p :: .int last :: .int first :: left)
      (inside : EvaluatesWithin settings P (.range first.toInt last.toInt p)
        { m with stack := left } trace result)
      (here : P m := by trivial) :
      EvaluatesWithin settings P (.token (.name word)) m (⟨.name word, m⟩ :: trace) result
  | times {word : String} {n : Int64} {p : ProcedureId} {m : Machine} {left : Stack}
      {trace : List Moment} {result : Outcome × Machine}
      (found : Operator.ofName? word = some .times)
      (shape : m.stack = .procedure p :: .int n :: left)
      (inside : EvaluatesWithin settings P (.times n.toInt.toNat p) { m with stack := left } trace
        result)
      (here : P m := by trivial) :
      EvaluatesWithin settings P (.token (.name word)) m (⟨.name word, m⟩ :: trace) result
  | timesDone {p : ProcedureId} {m : Machine}
      (here : P m := by trivial) :
      EvaluatesWithin settings P (.times 0 p) m [] (.ok .completed, m)
  | timesNext {count : Nat} {p : ProcedureId} {m between : Machine} {trace trace' : List Moment}
      {result : Outcome × Machine}
      (first : EvaluatesWithin settings P (.execute (m.store.body p)) m trace
        (.ok .completed, between))
      (rest : EvaluatesWithin settings P (.times count p) between trace' result)
      (here : P m := by trivial) :
      EvaluatesWithin settings P (.times (count + 1) p) m (trace ++ trace') result
  | timesStop {count : Nat} {p : ProcedureId} {m after : Machine} {trace : List Moment}
      {outcome : Outcome}
      (first : EvaluatesWithin settings P (.execute (m.store.body p)) m trace (outcome, after))
      (ended : outcome ≠ .ok .completed)
      (here : P m := by trivial) :
      EvaluatesWithin settings P (.times (count + 1) p) m trace (outcome, after)
  | rangeDone {i last : Int} {p : ProcedureId} {m : Machine} (beyond : last < i)
      (here : P m := by trivial) :
      EvaluatesWithin settings P (.range i last p) m [] (.ok .completed, m)
  | rangeNext {i last : Int} {p : ProcedureId} {m between : Machine} {trace trace' : List Moment}
      {result : Outcome × Machine} (within : i ≤ last)
      (first : EvaluatesWithin settings P (.execute (m.store.body p))
        (m.push (.int (Int64.ofInt i))) trace (.ok .completed, between))
      (rest : EvaluatesWithin settings P (.range (i + 1) last p) between trace' result)
      (here : P m := by trivial) :
      EvaluatesWithin settings P (.range i last p) m (trace ++ trace') result
  | rangeStop {i last : Int} {p : ProcedureId} {m after : Machine} {trace : List Moment}
      {outcome : Outcome} (within : i ≤ last)
      (first : EvaluatesWithin settings P (.execute (m.store.body p))
        (m.push (.int (Int64.ofInt i))) trace (outcome, after))
      (ended : outcome ≠ .ok .completed)
      (here : P m := by trivial) :
      EvaluatesWithin settings P (.range i last p) m trace (outcome, after)

abbrev Evaluates (settings : Settings) := EvaluatesWithin settings fun _ => True

namespace Machine

@[simp] theorem depth_apply (m : Machine) (c : Change) : (m.apply c).depth = m.depth := by
  cases c <;> rfl

@[simp] theorem andThen_completed (m : Machine) (next : Machine → Outcome × Machine) :
    andThen (.ok .completed, m) next = next m := rfl

theorem andThen_of_ne_completed {outcome : Outcome} (ended : outcome ≠ .ok .completed)
    (m : Machine) (next : Machine → Outcome × Machine) :
    andThen (outcome, m) next = (outcome, m) := by
  rcases outcome with e | (_ | _)
  · rfl
  · exact absurd rfl ended
  · rfl

end Machine

open Machine

variable {settings : Settings} {P : Machine → Prop}

theorem EvaluatesWithin.depth_eq {task : Task} {m : Machine} {trace : List Moment}
    {result : Outcome × Machine} (evaluation : EvaluatesWithin settings P task m trace result) :
    result.2.depth = m.depth := by
  induction evaluation with
  | enter _ _ _ _ ih =>
      simp only at ih ⊢
      omega
  | next _ _ _ first rest => exact rest.trans first
  | timesNext _ _ _ first rest => exact rest.trans first
  | rangeNext _ _ _ _ first rest => exact rest.trans first
  | stop _ _ _ ih => exact ih
  | timesStop _ _ _ ih => exact ih
  | rangeStop _ _ _ _ ih => exact ih
  | inline _ _ ih => exact ih
  | call _ _ _ _ ih => exact ih
  | choose _ _ _ _ ih => exact ih
  | forRange _ _ _ _ ih => exact ih
  | times _ _ _ _ ih => exact ih
  | change => exact depth_apply _ _
  | _ => rfl

namespace Task

def run (settings : Settings) (room : Nat) : Task → Machine → Outcome × Machine
  | .execute tokens => nested settings room tokens
  | .sequence tokens => runAll settings.mode (nested settings room) tokens
  | .token t => step settings.mode (nested settings room) t
  | .times count p => runTimes (nested settings room) p count
  | .range i last p => runRange (nested settings room) p (last - i + 1).toNat i

/-- How a task ends that begins in a state: the room is what the limit leaves above its depth. -/
def result (settings : Settings) (task : Task) (m : Machine) : Outcome × Machine :=
  task.run settings (settings.limit - m.depth) m

variable {room : Nat} {m : Machine}

theorem run_execute_succ (tokens : List Token) :
    (execute tokens).run settings (room + 1) m =
      let (outcome, after) :=
        (sequence tokens).run settings room { m with depth := m.depth + 1 }
      (outcome, { after with depth := after.depth - 1 }) := rfl

theorem run_sequence_cons (t : Token) (ts : List Token) :
    (sequence (t :: ts)).run settings room m =
      andThen ((token t).run settings room m) ((sequence ts).run settings room) := rfl

theorem run_times_succ (count : Nat) (p : ProcedureId) :
    (times (count + 1) p).run settings room m =
      andThen ((execute (m.store.body p)).run settings room m)
        ((times count p).run settings room) := rfl

theorem run_range_of_lt {i last : Int} (beyond : last < i) (p : ProcedureId) :
    (range i last p).run settings room m = (.ok .completed, m) := by
  have none : (last - i + 1).toNat = 0 := by omega
  simp only [run, none, runRange]

theorem run_range_of_le {i last : Int} (within : i ≤ last) (p : ProcedureId) :
    (range i last p).run settings room m =
      andThen
        ((execute (m.store.body p)).run settings room (m.push (.int (Int64.ofInt i))))
        ((range (i + 1) last p).run settings room) := by
  have some : (last - i + 1).toNat = (last - (i + 1) + 1).toNat + 1 := by omega
  simp only [run, some, runRange]

end Task

theorem EvaluatesWithin.eq_run {task : Task} {m : Machine} {trace : List Moment}
    {result : Outcome × Machine} (evaluation : EvaluatesWithin settings P task m trace result)
    {room : Nat} (rooms : room = settings.limit - m.depth) :
    task.run settings room m = result := by
  -- The room follows from the depth, and `depth_eq` hands both on to what comes next.
  induction evaluation generalizing room with
  | overflow exceeded =>
      rw [rooms, Nat.sub_eq_zero_of_le exceeded]
      rfl
  | enter within _ _ _ ih =>
      obtain ⟨inner, rfl⟩ : ∃ inner, room = inner + 1 := ⟨room - 1, by omega⟩
      rw [Task.run_execute_succ, ih (by simp only; omega)]
  | done => rfl
  | next first _ _ ih rest =>
      rw [Task.run_sequence_cons, ih rooms, andThen_completed]
      exact rest (by rw [first.depth_eq, rooms])
  | stop _ ended _ ih => rw [Task.run_sequence_cons, ih rooms, andThen_of_ne_completed ended]
  | failure answer => simp only [Task.run, step, answer]
  | change answer => simp only [Task.run, step, answer, perform]
  | quit found => simp only [Task.run, step, resolve_quit found, perform]
  | inline _ _ ih => exact ih rooms
  | call free bound _ _ ih =>
      simp only [Task.run, step, resolve_call free bound, perform]
      exact ih rooms
  | choose found shape _ _ ih =>
      simp only [Task.run, step, resolve_choose found shape, perform]
      exact ih rooms
  | forRange found shape _ _ ih =>
      simp only [Task.run, step, resolve_forRange found shape, perform]
      exact ih rooms
  | times found shape _ _ ih =>
      simp only [Task.run, step, resolve_times found shape, perform]
      exact ih rooms
  | timesDone => rfl
  | timesNext first _ _ ih rest =>
      rw [Task.run_times_succ, ih rooms, andThen_completed]
      exact rest (by rw [first.depth_eq, rooms])
  | timesStop _ ended _ ih => rw [Task.run_times_succ, ih rooms, andThen_of_ne_completed ended]
  | rangeDone beyond => exact Task.run_range_of_lt beyond _
  | rangeNext within first _ _ ih rest =>
      rw [Task.run_range_of_le within, ih rooms, andThen_completed]
      exact rest (by rw [first.depth_eq, rooms]; rfl)
  | rangeStop within _ ended _ ih =>
      rw [Task.run_range_of_le within, ih rooms, andThen_of_ne_completed ended]

section Existence

variable {room : Nat}

private def Ends (settings : Settings) (room : Nat) (task : Task) : Prop :=
  ∀ m : Machine, settings.limit - m.depth = room →
    ∃ trace, Evaluates settings task m trace (task.run settings room m)

/-- A part that ends and a remainder that ends make up a whole, under the rules that continue after
the part and that stop with it. -/
private theorem exists_of_andThen {m start : Machine} {part remainder whole : Task}
    (rooms : settings.limit - start.depth = room) (begun : Ends settings room part)
    (resumed : Ends settings room remainder)
    (next : ∀ {trace trace' between result},
      Evaluates settings part start trace (.ok .completed, between) →
      Evaluates settings remainder between trace' result →
      Evaluates settings whole m (trace ++ trace') result)
    (stop : ∀ {trace outcome after}, Evaluates settings part start trace (outcome, after) →
      outcome ≠ .ok .completed → Evaluates settings whole m trace (outcome, after)) :
    ∃ trace, Evaluates settings whole m trace
      (andThen (part.run settings room start) (remainder.run settings room)) := by
  obtain ⟨trace, first⟩ := begun start rooms
  rcases result : part.run settings room start with ⟨outcome, between⟩
  rw [result] at first
  by_cases completed : outcome = .ok .completed
  · subst completed
    have depth : between.depth = start.depth := first.depth_eq
    obtain ⟨trace', rest⟩ := resumed between (by rw [depth, rooms])
    exact ⟨trace ++ trace', next first rest⟩
  · rw [andThen_of_ne_completed completed]
    exact ⟨trace, stop first completed⟩

private theorem times_ends (entered : ∀ tokens, Ends settings room (.execute tokens))
    (p : ProcedureId) (count : Nat) : Ends settings room (.times count p) := by
  induction count with
  | zero => exact fun m _ => ⟨[], .timesDone⟩
  | succ count ih =>
      intro m rooms
      rw [Task.run_times_succ]
      exact exists_of_andThen rooms (entered _) ih .timesNext .timesStop

private theorem range_ends (entered : ∀ tokens, Ends settings room (.execute tokens))
    (p : ProcedureId) (i last : Int) : Ends settings room (.range i last p) := by
  -- The measure is how many integers are left.
  induction count : (last - i + 1).toNat generalizing i with
  | zero =>
      intro m _
      have beyond : last < i := by omega
      rw [Task.run_range_of_lt beyond]
      exact ⟨[], .rangeDone beyond⟩
  | succ count ih =>
      intro m rooms
      have within : i ≤ last := by omega
      rw [Task.run_range_of_le within]
      have shorter : Ends settings room (.range (i + 1) last p) := ih (i + 1) (by omega)
      exact exists_of_andThen rooms (entered _) shorter (.rangeNext within) (.rangeStop within)

private theorem exists_of_answer {t : Token} {m : Machine}
    (answered : (∃ e rest, m.resolve settings.mode t = (.error e, rest)) ∨
      ∃ c rest, m.resolve settings.mode t = (.ok (.change c), rest)) :
    ∃ trace, Evaluates settings (.token t) m trace ((Task.token t).run settings room m) := by
  refine ⟨[⟨t, m⟩], ?_⟩
  rcases answered with ⟨e, rest, failed⟩ | ⟨c, rest, changed⟩
  · simp only [Task.run, step, failed]
    exact .failure failed
  · simp only [Task.run, step, changed, perform]
    exact .change changed

private theorem operator_ends (entered : ∀ tokens, Ends settings room (.execute tokens))
    {word : String} {op : Operator} (found : Operator.ofName? word = some op) :
    Ends settings room (.token (.name word)) := by
  intro m rooms
  have resolved : m.resolve settings.mode (.name word) = op.invoke m := by
    simp only [resolve, found]
  rcases answer : op.invoke m with ⟨e | effect, rest⟩
  · exact exists_of_answer (.inl ⟨e, rest, resolved.trans answer⟩)
  obtain ⟨operands, shape, performed⟩ := Operator.invoke_eq_ok_iff.mp answer
  cases control : op.isControl with
  | false =>
      obtain ⟨c, rfl, _⟩ := Operator.exists_change_of_perform control performed
      exact exists_of_answer (.inr ⟨c, rest, resolved.trans answer⟩)
  | true =>
      simp only [Task.run, step, resolved, answer]
      cases op with
      | choose long =>
          obtain ⟨no, yes, condition, ⟨⟩⟩ := operands
          cases performed
          obtain ⟨trace, inside⟩ := entered _ { m with stack := rest } rooms
          exact ⟨_, .choose found shape inside⟩
      | forRange =>
          obtain ⟨p, last, first, ⟨⟩⟩ := operands
          cases performed
          obtain ⟨trace, inside⟩ :=
            range_ends entered p first.toInt last.toInt { m with stack := rest } rooms
          exact ⟨_, .forRange found shape inside⟩
      | times =>
          obtain ⟨p, n, ⟨⟩⟩ := operands
          cases performed
          obtain ⟨trace, inside⟩ :=
            times_ends entered p n.toInt.toNat { m with stack := rest } rooms
          exact ⟨_, .times found shape inside⟩
      | quit =>
          cases performed
          have kept : rest = m.stack := shape.symm
          subst kept
          exact ⟨_, .quit found⟩
      | _ => cases control

private theorem token_ends (entered : ∀ tokens, Ends settings room (.execute tokens)) (t : Token) :
    Ends settings room (.token t) := by
  intro m rooms
  cases t with
  | inline body =>
      obtain ⟨trace, inside⟩ := entered body m rooms
      exact ⟨_, .inline inside⟩
  | define word =>
      refine exists_of_answer ?_
      cases shape : m.stack with
      | nil => exact .inl ⟨_, _, by simp only [resolve, shape]; rfl⟩
      | cons v rest => exact .inr ⟨_, _, by simp only [resolve, shape]; rfl⟩
  | name word =>
      cases found : Operator.ofName? word with
      | some op => exact operator_ends entered found m rooms
      | none =>
          rcases m.called_or_pushed settings.mode word with ⟨p, bound⟩ | ⟨v, pushed⟩
          · obtain ⟨trace, inside⟩ := entered (m.store.body p) m rooms
            refine ⟨⟨.name word, m⟩ :: trace, ?_⟩
            simp only [Task.run, step, resolve_call found bound, perform]
            exact .call found bound inside
          · exact exists_of_answer
              (.inr ⟨.push [v], m.stack, by simp only [resolve, found, pushed]⟩)
  | _ => exact exists_of_answer (.inr ⟨_, _, rfl⟩)

private theorem sequence_ends (entered : ∀ tokens, Ends settings room (.execute tokens))
    (tokens : List Token) : Ends settings room (.sequence tokens) := by
  induction tokens with
  | nil => exact fun m _ => ⟨[], .done⟩
  | cons t ts ih =>
      intro m rooms
      rw [Task.run_sequence_cons]
      exact exists_of_andThen rooms (token_ends entered t) ih .next .stop

/-- Every list of tokens has a derivation. The measure is the room that is left: entering a level
takes one from it, and the lists and loops of a level are finite. -/
private theorem execute_ends (tokens : List Token) : Ends settings room (.execute tokens) := by
  induction room generalizing tokens with
  | zero => exact fun m rooms => ⟨[], .overflow (by omega)⟩
  | succ room ih =>
      intro m rooms
      obtain ⟨trace, inside⟩ :=
        sequence_ends ih tokens { m with depth := m.depth + 1 } (by simp only; omega)
      rw [Task.run_execute_succ]
      exact ⟨trace, .enter (by omega) inside⟩

end Existence

theorem exists_evaluates (settings : Settings) (task : Task) (m : Machine) :
    ∃ trace, Evaluates settings task m trace (task.result settings m) := by
  cases task with
  | execute tokens => exact execute_ends tokens m rfl
  | sequence tokens => exact sequence_ends execute_ends tokens m rfl
  | token t => exact token_ends execute_ends t m rfl
  | times count p => exact times_ends execute_ends p count m rfl
  | range i last p => exact range_ends execute_ends p i last m rfl

theorem exists_evaluates_execute (settings : Settings) (tokens : List Token) (m : Machine) :
    ∃ trace, Evaluates settings (.execute tokens) m trace (m.execute settings tokens) :=
  exists_evaluates settings (.execute tokens) m

theorem depth_run (settings : Settings) (task : Task) (m : Machine) :
    (task.run settings (settings.limit - m.depth) m).2.depth = m.depth := by
  obtain ⟨_, evaluation⟩ := exists_evaluates settings task m
  exact evaluation.depth_eq

theorem depth_execute (settings : Settings) (tokens : List Token) (m : Machine) :
    (m.execute settings tokens).2.depth = m.depth :=
  depth_run settings (.execute tokens) m

/-- Every program ends: it has a finite derivation, from every state and under every limit. What
the derivation ends with is what the machine computes, and there is no derivation of anything
else. -/
theorem exists_evaluation (settings : Settings) (tokens : List Token) (m : Machine) :
    (∃ trace, Evaluates settings (.execute tokens) m trace (m.execute settings tokens)) ∧
      ∀ trace result, Evaluates settings (.execute tokens) m trace result →
        result = m.execute settings tokens := by
  refine ⟨exists_evaluates_execute settings tokens m, ?_⟩
  intro trace result evaluation
  exact (evaluation.eq_run rfl).symm

end Stacklet
