import Stacklet.Proofs.RunRecord

set_option autoImplicit false
set_option relaxedAutoImplicit false

/-!
The end that a program gives itself. Nothing is taken up after the token that ends the program,
at whatever nesting of brackets, calls, conditionals and loops it stands.
-/

namespace Stacklet

open Machine

variable {settings : Settings} {mode : ScopingMode}

private theorem name_ne_quit {word : String} {op : Option Operator}
    (found : Operator.ofName? word = op) (other : op ≠ some .quit) :
    Token.name word ≠ .name "quit" := by
  intro same
  cases same
  exact other found.symm

private theorem ne_quit_of_resolve {m : Machine} {t : Token}
    {answer : Except RuntimeError Effect} {left : Stack}
    (resolved : m.resolve mode t = (answer, left)) (goes : answer ≠ .ok .quit) :
    t ≠ .name "quit" := by
  rintro rfl
  have quits : m.resolve mode (.name "quit") = (.ok .quit, m.stack) := resolve_quit rfl
  exact goes (congrArg Prod.fst (resolved.symm.trans quits))

/-- How a trace and a result go together: either the program ends itself with the last token, in
the state that this token finds, or the token for it does not occur. -/
inductive Ending : List Moment → Outcome × Machine → Prop
  | quit {before : List Moment} {m : Machine} (depth : Nat)
      (earlier : ∀ moment ∈ before, moment.token ≠ .name "quit") :
      Ending (before ++ [⟨.name "quit", m⟩]) (.ok .terminated, { m with depth := depth })
  | other {trace : List Moment} {outcome : Outcome} {after : Machine}
      (never : ∀ moment ∈ trace, moment.token ≠ .name "quit")
      (goes : outcome ≠ .ok .terminated) : Ending trace (outcome, after)

namespace Ending

private theorem single {t : Token} {m after : Machine} {outcome : Outcome}
    (plain : t ≠ .name "quit") (goes : outcome ≠ .ok .terminated) :
    Ending [⟨t, m⟩] (outcome, after) := by
  refine .other ?_ goes
  intro moment member
  rw [List.mem_singleton.mp member]
  exact plain

private theorem append {trace trace' : List Moment} {between : Machine}
    {result : Outcome × Machine} (first : Ending trace (.ok .completed, between))
    (rest : Ending trace' result) : Ending (trace ++ trace') result := by
  cases first with
  | other never _ =>
      have joined {tail : List Moment} (absent : ∀ moment ∈ tail, moment.token ≠ .name "quit") :
          ∀ moment ∈ trace ++ tail, moment.token ≠ .name "quit" := by
        intro moment member
        rcases List.mem_append.mp member with earlier | later
        · exact never moment earlier
        · exact absent moment later
      cases rest with
      | quit depth earlier =>
          rw [← List.append_assoc]
          exact .quit depth (joined earlier)
      | other absent goes => exact .other (joined absent) goes

private theorem cons {t : Token} {m : Machine} {trace : List Moment}
    {result : Outcome × Machine} (plain : t ≠ .name "quit") (rest : Ending trace result) :
    Ending (⟨t, m⟩ :: trace) result := by
  have head : Ending [⟨t, m⟩] (.ok .completed, m) := single plain (by simp)
  exact head.append rest

private theorem leave {trace : List Moment} {outcome : Outcome} {after : Machine} (depth : Nat)
    (ending : Ending trace (outcome, after)) :
    Ending trace (outcome, { after with depth := depth }) := by
  cases ending with
  | quit _ earlier => exact .quit depth earlier
  | other never goes => exact .other never goes

end Ending

/-- The run lemma: every rule of evaluation hands the end of the program on. -/
theorem Evaluates.ending {task : Task} {m : Machine} {trace : List Moment}
    {result : Outcome × Machine} (evaluation : Evaluates settings task m trace result) :
    Ending trace result := by
  induction evaluation with
  | overflow | done | timesDone | rangeDone => exact .other (by simp) (by simp)
  | enter _ _ _ _ ih => exact ih.leave _
  | next _ _ _ first rest => exact first.append rest
  | stop _ _ _ ih => exact ih
  | failure answer => exact .single (ne_quit_of_resolve answer (by simp)) (by simp)
  | change answer => exact .single (ne_quit_of_resolve answer (by simp)) (by simp)
  | @quit word m found =>
      obtain rfl : word = "quit" := Operator.eq_of_ofName? found (by decide)
      have only : Ending ([] ++ [⟨.name "quit", m⟩]) (.ok .terminated, m) :=
        .quit m.depth (by simp)
      exact only
  | inline _ _ ih => exact ih.cons (by simp)
  | call free _ _ _ ih => exact ih.cons (name_ne_quit free (by simp))
  | choose found _ _ _ ih => exact ih.cons (name_ne_quit found (by simp))
  | forRange found _ _ _ ih => exact ih.cons (name_ne_quit found (by simp))
  | times found _ _ _ ih => exact ih.cons (name_ne_quit found (by simp))
  | timesNext _ _ _ first rest => exact first.append rest
  | timesStop _ _ _ ih => exact ih
  | rangeNext _ _ _ _ first rest => exact first.append rest
  | rangeStop _ _ _ _ ih => exact ih

/-- A program ends itself with the token for it and at once. A run has one record of the tokens
that it takes up at all levels. In it this token occurs at most as the last one, and it is the last
one exactly when the run ends as terminated. The machine is then left as that token found it, but
for the depth, which is back where it was when the run began. -/
theorem quit_last_iff_terminated (settings : Settings) (tokens : List Token) (m : Machine) :
    ∃ trace,
      (∀ trace' result, Evaluates settings (.execute tokens) m trace' result ↔
        trace' = trace ∧ result = m.execute settings tokens) ∧
      (∀ moment ∈ trace.dropLast, moment.token ≠ .name "quit") ∧
      ((m.execute settings tokens).1 = .ok .terminated ↔
        ∃ moment, trace.getLast? = some moment ∧ moment.token = .name "quit") ∧
      ∀ moment, trace.getLast? = some moment → moment.token = .name "quit" →
        (m.execute settings tokens).2 = { moment.state with depth := m.depth } := by
  obtain ⟨trace, record⟩ := exists_record settings tokens m
  have evaluation := (record trace (m.execute settings tokens)).mpr ⟨rfl, rfl⟩
  have depth := evaluation.depth_eq
  have ending := evaluation.ending
  refine ⟨trace, record, ?_⟩
  clear record evaluation
  generalize m.execute settings tokens = result at depth ending ⊢
  cases ending with
  | quit depth' earlier =>
      simp only at depth
      refine ⟨by simpa using earlier, by simp, ?_⟩
      intro moment last _
      simp only [List.getLast?_concat, Option.some.injEq] at last
      rw [← last, ← depth]
  | other never goes =>
      have absent : ∀ moment, trace.getLast? = some moment → moment.token ≠ .name "quit" :=
        fun moment last => never moment (List.mem_of_getLast? last)
      refine ⟨fun moment member => never moment (List.dropLast_subset trace member), ?_, ?_⟩
      · refine ⟨fun terminated => absurd terminated goes, ?_⟩
        rintro ⟨moment, last, quits⟩
        exact absurd quits (absent moment last)
      · intro moment last quits
        exact absurd quits (absent moment last)

/-- The end of a program in a bracket in a procedure that is to be repeated: the second value is
still there, and neither the rest of the procedure nor of the program is taken up. -/
theorem quit_last_iff_terminated_repeat :
    let tokens : List Token :=
      [.number (.int 1), .number (.int 3),
       .procedure [.inline [.number (.int 2), .name "quit"], .name "pop"], .name "repeat",
       .name "clear"]
    (fresh.execute ⟨.dynamic, 5⟩ tokens).1 = .ok .terminated ∧
      ∃ trace moment,
        Evaluates ⟨.dynamic, 5⟩ (.execute tokens) fresh trace
          (fresh.execute ⟨.dynamic, 5⟩ tokens) ∧
        trace.getLast? = some moment ∧ moment.token = .name "quit" ∧
        moment.state.stack = [.int 2, .int 1] := by
  intro tokens
  have terminated : (fresh.execute ⟨.dynamic, 5⟩ tokens).1 = .ok .terminated := by rfl
  obtain ⟨trace, record, -, ended, state⟩ := quit_last_iff_terminated ⟨.dynamic, 5⟩ tokens fresh
  obtain ⟨moment, last, quits⟩ := ended.mp terminated
  have stack : (fresh.execute ⟨.dynamic, 5⟩ tokens).2.stack = moment.state.stack := by
    rw [state moment last quits]
  exact ⟨terminated, trace, moment, (record _ _).mpr ⟨rfl, rfl⟩, last, quits, stack.symm⟩

end Stacklet
