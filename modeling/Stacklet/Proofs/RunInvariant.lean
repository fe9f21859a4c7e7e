import Stacklet.Proofs.Evaluation

set_option autoImplicit false
set_option relaxedAutoImplicit false

/-!
Invariants of runs: a property of states that no token breaks holds at every moment of a run and
after it, whatever the outcome. So what is behind an error can be read off the token at which the
run stops, in a state with that property.
-/

namespace Stacklet

def Task.Only (code : Token → Prop) : Task → Prop
  | .execute tokens => ∀ t ∈ tokens, code t
  | .sequence tokens => ∀ t ∈ tokens, code t
  | .token t => code t
  | .times _ _ => True
  | .range _ _ _ => True

/-- A property of states that is kept by tokens with the property `code`, where nothing else
runs. -/
structure Invariant (mode : ScopingMode) where
  holds : Machine → Prop
  code : Token → Prop
  stored : ∀ {m : Machine}, holds m → ∀ p, ∀ t ∈ m.store.body p, code t
  inline : ∀ {body : List Token}, code (.inline body) → ∀ t ∈ body, code t
  push_int : ∀ {m : Machine} (n : Int64), holds m → holds (m.push (.int n))
  set_depth : ∀ {m : Machine} (depth : Nat), holds m → holds { m with depth := depth }
  operands : ∀ {m : Machine} {t : Token} {answer : Except RuntimeError Effect} {left : Stack},
    holds m → code t → m.resolve mode t = (answer, left) → holds { m with stack := left }
  change : ∀ {m : Machine} {t : Token} {c : Change} {left : Stack},
    holds m → code t → m.resolve mode t = (.ok (.change c), left) →
      holds (({ m with stack := left } : Machine).apply c)

namespace Invariant

open Machine

variable {settings : Settings} (I : Invariant settings.mode)

def Throughout (trace : List Moment) (after : Machine) : Prop :=
  (∀ moment ∈ trace, I.holds moment.state) ∧ I.holds after

private theorem throughout_cons {t : Token} {m after : Machine} {trace : List Moment}
    (start : I.holds m) (rest : I.Throughout trace after) :
    I.Throughout (⟨t, m⟩ :: trace) after := by
  refine ⟨?_, rest.2⟩
  intro moment member
  rcases List.mem_cons.mp member with rfl | later
  · exact start
  · exact rest.1 moment later

private theorem throughout_append {trace trace' : List Moment} {between after : Machine}
    (first : I.Throughout trace between) (rest : I.Throughout trace' after) :
    I.Throughout (trace ++ trace') after := by
  refine ⟨?_, rest.2⟩
  intro moment member
  rcases List.mem_append.mp member with earlier | later
  · exact first.1 moment earlier
  · exact rest.1 moment later

/-- The run lemma: an invariant holds throughout every evaluation that starts with it. -/
theorem throughout_of_evaluates {task : Task} {m : Machine} {trace : List Moment}
    {result : Outcome × Machine} (evaluation : Evaluates settings task m trace result)
    (code : task.Only I.code) (start : I.holds m) : I.Throughout trace result.2 := by
  induction evaluation with
  | overflow | done | timesDone | rangeDone => exact ⟨by simp, start⟩
  | enter _ _ _ _ ih =>
      have inside := ih code (I.set_depth _ start)
      exact ⟨inside.1, I.set_depth _ inside.2⟩
  | next _ _ _ first rest =>
      have head := first (code _ (by simp)) start
      exact I.throughout_append head (rest (fun t member => code t (by simp [member])) head.2)
  | stop _ _ _ first => exact first (code _ (by simp)) start
  | failure answer => exact I.throughout_cons start ⟨by simp, I.operands start code answer⟩
  | change answer => exact I.throughout_cons start ⟨by simp, I.change start code answer⟩
  | quit => exact I.throughout_cons start ⟨by simp, start⟩
  | inline _ _ ih => exact I.throughout_cons start (ih (I.inline code) start)
  | call _ _ _ _ ih => exact I.throughout_cons start (ih (I.stored start _) start)
  | choose found shape _ _ ih =>
      have left := I.operands start code (resolve_choose found shape)
      exact I.throughout_cons start (ih (I.stored start _) left)
  | forRange found shape _ _ ih =>
      have left := I.operands start code (resolve_forRange found shape)
      exact I.throughout_cons start (ih trivial left)
  | times found shape _ _ ih =>
      have left := I.operands start code (resolve_times found shape)
      exact I.throughout_cons start (ih trivial left)
  | timesNext _ _ _ first rest =>
      have head := first (I.stored start _) start
      exact I.throughout_append head (rest trivial head.2)
  | timesStop _ _ _ first => exact first (I.stored start _) start
  | rangeNext _ _ _ _ first rest =>
      have head := first (I.stored start _) (I.push_int _ start)
      exact I.throughout_append head (rest trivial head.2)
  | rangeStop _ _ _ _ first => exact first (I.stored start _) (I.push_int _ start)

/-- What lies behind an error: the limit of nesting, or the token taken up last, which has no answer
in a state with the invariant. -/
def Origin (trace : List Moment) (e : RuntimeError) : Prop :=
  e = .nestingExceeded settings.limit ∨
    ∃ earlier t state left, trace = earlier ++ [⟨t, state⟩] ∧ I.holds state ∧ I.code t ∧
      state.resolve settings.mode t = (.error e, left)

private theorem origin_append {e : RuntimeError} {trace' : List Moment} (later : I.Origin trace' e)
    (trace : List Moment) : I.Origin (trace ++ trace') e := by
  rcases later with overflow | ⟨earlier, t, state, left, rfl, found⟩
  · exact .inl overflow
  · exact .inr ⟨trace ++ earlier, t, state, left, by simp, found⟩

private theorem origin_cons {e : RuntimeError} {trace : List Moment} (inside : I.Origin trace e)
    (moment : Moment) : I.Origin (moment :: trace) e :=
  I.origin_append inside [moment]

/-- The run lemma for errors: an evaluation fails where it stops. -/
theorem origin_of_evaluates {task : Task} {m : Machine} {trace : List Moment}
    {result : Outcome × Machine} (evaluation : Evaluates settings task m trace result)
    (code : task.Only I.code) (start : I.holds m) {e : RuntimeError}
    (failed : result.1 = .error e) : I.Origin trace e := by
  induction evaluation with
  | overflow => exact .inl (Except.error.inj failed).symm
  | done | change | quit | timesDone | rangeDone => cases failed
  | enter _ _ _ _ ih => exact ih code (I.set_depth _ start) failed
  | next first _ _ _ ih =>
      have between := (I.throughout_of_evaluates first (code _ (by simp)) start).2
      exact I.origin_append (ih (fun t member => code t (by simp [member])) between failed) _
  | stop _ _ _ ih => exact ih (code _ (by simp)) start failed
  | @failure t m e' left answer =>
      cases failed
      exact .inr ⟨[], t, m, left, rfl, start, code, answer⟩
  | inline _ _ ih => exact I.origin_cons (ih (I.inline code) start failed) _
  | call _ _ _ _ ih => exact I.origin_cons (ih (I.stored start _) start failed) _
  | choose found shape _ _ ih =>
      have left := I.operands start code (resolve_choose found shape)
      exact I.origin_cons (ih (I.stored start _) left failed) _
  | forRange found shape _ _ ih =>
      have left := I.operands start code (resolve_forRange found shape)
      exact I.origin_cons (ih trivial left failed) _
  | times found shape _ _ ih =>
      have left := I.operands start code (resolve_times found shape)
      exact I.origin_cons (ih trivial left failed) _
  | timesNext first _ _ _ ih =>
      have between := (I.throughout_of_evaluates first (I.stored start _) start).2
      exact I.origin_append (ih trivial between failed) _
  | timesStop _ _ _ ih => exact ih (I.stored start _) start failed
  | rangeNext _ first _ _ _ ih =>
      have between :=
        (I.throughout_of_evaluates first (I.stored start _) (I.push_int _ start)).2
      exact I.origin_append (ih trivial between failed) _
  | rangeStop _ _ _ _ ih => exact ih (I.stored start _) (I.push_int _ start) failed

end Invariant

end Stacklet
