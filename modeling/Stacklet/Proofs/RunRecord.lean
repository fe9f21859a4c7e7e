import Stacklet.Proofs.Evaluation

set_option autoImplicit false
set_option relaxedAutoImplicit false

/-!
The record of a run: the tokens that it takes up at all levels, in their order, each with the state
at that moment. A run has exactly one record, and the record is a course of states: between two
moments happens what the first of the two tokens asks for by itself, and besides that levels are
entered and left and loops push their integers.
-/

namespace Stacklet

open Machine

variable {settings : Settings} {mode : ScopingMode}

/-- What comes after a token with a given answer: `inner` is empty unless the answer runs
something. -/
private def Follows (settings : Settings) (m : Machine) (inner : List Moment)
    (result : Outcome × Machine) : Except RuntimeError Effect × Stack → Prop
  | (.ok (.run body), left) =>
      Evaluates settings (.execute body) { m with stack := left } inner result
  | (.ok (.times count p), left) =>
      Evaluates settings (.times count p) { m with stack := left } inner result
  | (.ok (.range first count p), left) =>
      ∃ last, (last - first + 1).toNat = count ∧
        Evaluates settings (.range first last p) { m with stack := left } inner result
  | _ => inner = []

private theorem follows_of_token {t : Token} {m : Machine} {trace : List Moment}
    {result : Outcome × Machine} (evaluation : Evaluates settings (.token t) m trace result) :
    ∃ inner, trace = ⟨t, m⟩ :: inner ∧
      Follows settings m inner result (m.resolve settings.mode t) := by
  cases evaluation with
  | failure answer => exact ⟨[], rfl, by rw [answer]; rfl⟩
  | change answer => exact ⟨[], rfl, by rw [answer]; rfl⟩
  | quit found => exact ⟨[], rfl, by rw [resolve_quit found]; rfl⟩
  | inline inside => exact ⟨_, rfl, inside⟩
  | call free bound inside => exact ⟨_, rfl, by rw [resolve_call free bound]; exact inside⟩
  | choose found shape inside => exact ⟨_, rfl, by rw [resolve_choose found shape]; exact inside⟩
  | forRange found shape inside =>
      exact ⟨_, rfl, by rw [resolve_forRange found shape]; exact ⟨_, rfl, inside⟩⟩
  | times found shape inside => exact ⟨_, rfl, by rw [resolve_times found shape]; exact inside⟩

private theorem range_of_count_eq {i last last' : Int} {p : ProcedureId} {m : Machine}
    {trace : List Moment} {result : Outcome × Machine}
    (counts : (last' - i + 1).toNat = (last - i + 1).toNat)
    (evaluation : Evaluates settings (.range i last' p) m trace result) :
    Evaluates settings (.range i last p) m trace result := by
  by_cases within : i ≤ last
  · have same : last' = last := by omega
    exact same ▸ evaluation
  · cases evaluation with
    | rangeDone => exact .rangeDone (by omega)
    | rangeNext within' => omega
    | rangeStop within' => omega

theorem EvaluatesWithin.result_eq {P Q : Machine → Prop} {task : Task} {m : Machine}
    {trace trace' : List Moment} {result result' : Outcome × Machine}
    (evaluation : EvaluatesWithin settings P task m trace result)
    (other : EvaluatesWithin settings Q task m trace' result') : result' = result :=
  (other.eq_run rfl).symm.trans (evaluation.eq_run rfl)

theorem Evaluates.trace_eq {task : Task} {m : Machine} {trace trace' : List Moment}
    {result result' : Outcome × Machine} (evaluation : Evaluates settings task m trace result)
    (other : Evaluates settings task m trace' result') : trace' = trace := by
  -- Results are equal by `eq_run`, so after a first part the two go on from one state or both stop.
  induction evaluation generalizing trace' result' with
  | overflow exceeded =>
      cases other with
      | overflow => rfl
      | enter within => omega
  | enter within _ _ _ ih =>
      cases other with
      | overflow exceeded => omega
      | enter _ inside => exact ih inside
  | done =>
      cases other
      rfl
  | next first _ _ ihFirst ihRest =>
      cases other with
      | next first' rest' =>
          cases first.result_eq first'
          rw [ihFirst first', ihRest rest']
      | stop first' ended =>
          exact absurd (congrArg Prod.fst (first.result_eq first')) ended
  | stop first ended _ ih =>
      cases other with
      | next first' _ =>
          exact absurd (congrArg Prod.fst (first'.result_eq first)) ended
      | stop first' _ => exact ih first'
  | failure answer | change answer =>
      obtain ⟨inner, rfl, follows⟩ := follows_of_token other
      rw [answer] at follows
      cases follows
      rfl
  | quit found =>
      obtain ⟨inner, rfl, follows⟩ := follows_of_token other
      rw [resolve_quit found] at follows
      cases follows
      rfl
  | inline _ _ ih =>
      obtain ⟨inner, rfl, follows⟩ := follows_of_token other
      rw [ih follows]
  | call free bound _ _ ih =>
      obtain ⟨inner, rfl, follows⟩ := follows_of_token other
      rw [resolve_call free bound] at follows
      rw [ih follows]
  | choose found shape _ _ ih =>
      obtain ⟨inner, rfl, follows⟩ := follows_of_token other
      rw [resolve_choose found shape] at follows
      rw [ih follows]
  | forRange found shape _ _ ih =>
      obtain ⟨inner, rfl, follows⟩ := follows_of_token other
      rw [resolve_forRange found shape] at follows
      obtain ⟨last, counts, inside⟩ := follows
      rw [ih (range_of_count_eq counts inside)]
  | times found shape _ _ ih =>
      obtain ⟨inner, rfl, follows⟩ := follows_of_token other
      rw [resolve_times found shape] at follows
      rw [ih follows]
  | timesDone =>
      cases other
      rfl
  | timesNext first _ _ ihFirst ihRest =>
      cases other with
      | timesNext first' rest' =>
          cases first.result_eq first'
          rw [ihFirst first', ihRest rest']
      | timesStop first' ended =>
          exact absurd (congrArg Prod.fst (first.result_eq first')) ended
  | timesStop first ended _ ih =>
      cases other with
      | timesNext first' _ =>
          exact absurd (congrArg Prod.fst (first'.result_eq first)) ended
      | timesStop first' _ => exact ih first'
  | rangeDone beyond =>
      cases other with
      | rangeDone => rfl
      | rangeNext within => omega
      | rangeStop within => omega
  | rangeNext within first _ _ ihFirst ihRest =>
      cases other with
      | rangeDone beyond => omega
      | rangeNext _ first' rest' =>
          cases first.result_eq first'
          rw [ihFirst first', ihRest rest']
      | rangeStop _ first' ended =>
          exact absurd (congrArg Prod.fst (first.result_eq first')) ended
  | rangeStop within first ended _ ih =>
      cases other with
      | rangeDone beyond => omega
      | rangeNext _ first' _ =>
          exact absurd (congrArg Prod.fst (first'.result_eq first)) ended
      | rangeStop _ first' _ => exact ih first'

/-- A run has one record: all derivations have the same trace, and all end as the machine does. -/
theorem exists_record (settings : Settings) (tokens : List Token) (m : Machine) :
    ∃ trace, ∀ trace' result, Evaluates settings (.execute tokens) m trace' result ↔
      trace' = trace ∧ result = m.execute settings tokens := by
  obtain ⟨trace, evaluation⟩ := exists_evaluates_execute settings tokens m
  refine ⟨trace, fun trace' result => ⟨fun other => ?_, ?_⟩⟩
  · exact ⟨evaluation.trace_eq other, evaluation.result_eq other⟩
  · rintro ⟨rfl, rfl⟩
    exact evaluation

/-- The state that a token leaves by itself: the operands that it takes are gone, and the change
that it asks for is made. What it runs has not begun. -/
def Moment.after (mode : ScopingMode) (moment : Moment) : Machine :=
  match moment.state.resolve mode moment.token with
  | (.ok (.change c), left) => ({ moment.state with stack := left } : Machine).apply c
  | (_, left) => { moment.state with stack := left }

/-- The state in which the rest of a run begins: at its first moment, or at the end. -/
def Moment.upcoming (rest : List Moment) (last : Machine) : Machine :=
  match rest with
  | [] => last
  | moment :: _ => moment.state

/-- A course from one state to another, with the tokens taken up on the way. -/
inductive Course (mode : ScopingMode) : Machine → List Moment → Machine → Prop
  | done {m : Machine} : Course mode m [] m
  /-- A level is entered or left. -/
  | level {m after : Machine} {trace : List Moment} (depth : Nat)
      (rest : Course mode { m with depth := depth } trace after) : Course mode m trace after
  /-- A loop pushes its integer. -/
  | round {m after : Machine} {trace : List Moment} (n : Int64)
      (rest : Course mode (m.push (.int n)) trace after) : Course mode m trace after
  | token {t : Token} {m after : Machine} {trace : List Moment}
      (rest : Course mode ((⟨t, m⟩ : Moment).after mode) trace after) :
      Course mode m (⟨t, m⟩ :: trace) after

namespace Course

theorem append {m between after : Machine} {trace trace' : List Moment}
    (first : Course mode m trace between) (rest : Course mode between trace' after) :
    Course mode m (trace ++ trace') after := by
  induction first with
  | done => exact rest
  | level depth _ ih => exact .level depth (ih rest)
  | round n _ ih => exact .round n (ih rest)
  | token _ ih => exact .token (ih rest)

private theorem leave {m after : Machine} {trace : List Moment} (depth : Nat)
    (course : Course mode m trace after) : Course mode m trace { after with depth := depth } := by
  have left := course.append (.level depth .done)
  rwa [List.append_nil] at left

private theorem token_of_resolve {t : Token} {m after : Machine} {trace : List Moment}
    {answer : Except RuntimeError Effect} {left : Stack}
    (resolved : m.resolve mode t = (answer, left)) (plain : ∀ c, answer ≠ .ok (.change c))
    (rest : Course mode { m with stack := left } trace after) :
    Course mode m (⟨t, m⟩ :: trace) after := by
  have state : (⟨t, m⟩ : Moment).after mode = { m with stack := left } := by
    simp only [Moment.after, resolved]
  exact .token (state ▸ rest)

/-- Until the first token is taken up, no object and no scope changes. -/
theorem upcoming {m after : Machine} {trace : List Moment} (course : Course mode m trace after) :
    (Moment.upcoming trace after).store = m.store ∧
      (Moment.upcoming trace after).scopes = m.scopes := by
  induction course with
  | done => exact ⟨rfl, rfl⟩
  | level _ _ ih => exact ih
  | round _ _ ih => exact ih
  | token => exact ⟨rfl, rfl⟩

/-- After each of its moments a course goes on from the state that the token leaves. -/
theorem course_after {m after : Machine} {trace : List Moment} (course : Course mode m trace after)
    {before rest : List Moment} {moment : Moment} (split : trace = before ++ moment :: rest) :
    Course mode (moment.after mode) rest after := by
  induction course generalizing before with
  | done => simp at split
  | level _ _ ih => exact ih split
  | round _ _ ih => exact ih split
  | token later ih =>
      cases before with
      | nil =>
          cases split
          exact later
      | cons _ before => exact ih (List.cons.inj split).2

end Course

theorem Evaluates.course {task : Task} {m : Machine} {trace : List Moment}
    {result : Outcome × Machine} (evaluation : Evaluates settings task m trace result) :
    Course settings.mode m trace result.2 := by
  induction evaluation with
  | overflow | done | timesDone | rangeDone => exact .done
  | enter _ _ _ _ ih => exact (ih.leave _).level _
  | next _ _ _ first rest => exact first.append rest
  | stop _ _ _ ih => exact ih
  | failure answer => exact .token_of_resolve answer (by simp) .done
  | change answer =>
      refine .token ?_
      simp only [Moment.after, answer]
      exact .done
  | quit found => exact .token_of_resolve (resolve_quit found) (by simp) .done
  | inline _ _ ih => exact .token_of_resolve rfl (by simp) ih
  | call free bound _ _ ih => exact .token_of_resolve (resolve_call free bound) (by simp) ih
  | choose found shape _ _ ih => exact .token_of_resolve (resolve_choose found shape) (by simp) ih
  | forRange found shape _ _ ih =>
      exact .token_of_resolve (resolve_forRange found shape) (by simp) ih
  | times found shape _ _ ih => exact .token_of_resolve (resolve_times found shape) (by simp) ih
  | timesNext _ _ _ first rest => exact first.append rest
  | timesStop _ _ _ ih => exact ih
  | rangeNext _ _ _ _ first rest => exact (first.round _).append rest
  | rangeStop _ _ _ _ ih => exact ih.round _

end Stacklet
