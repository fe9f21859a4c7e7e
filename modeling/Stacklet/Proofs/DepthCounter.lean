import Stacklet.Proofs.InlineBrackets

set_option autoImplicit false
set_option relaxedAutoImplicit false

/-!
The count of levels. Every level that is entered is left again, however it ends, so a run hands the
count back as it found it; and a level is entered only below the limit, so the count never passes it
on the way. How many levels tokens take can be read off them where they are only values and square
brackets around such: then the limit is met exactly.
-/

namespace Stacklet

open Machine

section States

variable {settings : Settings} {P : Machine → Prop} {task : Task} {m : Machine}
  {trace : List Moment} {result : Outcome × Machine}

/-- The run lemma: an evaluation that begins within the limit passes only states within it. -/
theorem EvaluatesWithin.of_depth_le (evaluation : Evaluates settings task m trace result)
    (within : m.depth ≤ settings.limit) :
    EvaluatesWithin settings (fun s => s.depth ≤ settings.limit) task m trace result := by
  -- A level is entered below the limit, and whatever ends hands its depth on to what comes next.
  induction evaluation with
  | overflow exceeded => exact .overflow exceeded within
  | enter below inside _ _ ih =>
      have left := inside.depth_eq
      refine .enter below (ih below) within ?_
      simp only at left ⊢
      omega
  | done => exact .done within
  | next first _ _ ihFirst ihRest =>
      exact .next (ihFirst within) (ihRest (by rwa [first.depth_eq])) within
  | stop _ ended _ ih => exact .stop (ih within) ended within
  | failure answer => exact .failure answer within within
  | change answer => exact .change answer within (by rwa [depth_apply])
  | quit found => exact .quit found within
  | inline _ _ ih => exact .inline (ih within) within
  | call free bound _ _ ih => exact .call free bound (ih within) within
  | choose found shape _ _ ih => exact .choose found shape (ih within) within
  | forRange found shape _ _ ih => exact .forRange found shape (ih within) within
  | times found shape _ _ ih => exact .times found shape (ih within) within
  | timesDone => exact .timesDone within
  | timesNext first _ _ ihFirst ihRest =>
      exact .timesNext (ihFirst within) (ihRest (by rwa [first.depth_eq])) within
  | timesStop _ ended _ ih => exact .timesStop (ih within) ended within
  | rangeDone beyond => exact .rangeDone beyond within
  | rangeNext reached first _ _ ihFirst ihRest =>
      exact .rangeNext reached (ihFirst within) (ihRest (by rwa [first.depth_eq])) within
  | rangeStop reached _ ended _ ih => exact .rangeStop reached (ih within) ended within

theorem EvaluatesWithin.moments (evaluation : EvaluatesWithin settings P task m trace result) :
    ∀ moment ∈ trace, P moment.state := by
  induction evaluation with
  | overflow | done | timesDone | rangeDone => simp
  | enter _ _ _ _ ih | stop _ _ _ ih | timesStop _ _ _ ih | rangeStop _ _ _ _ ih => exact ih
  | next _ _ _ first rest | timesNext _ _ _ first rest | rangeNext _ _ _ _ first rest =>
      exact List.forall_mem_append.mpr ⟨first, rest⟩
  | failure _ here | change _ here | quit _ here => simpa using here
  | inline _ here ih | call _ _ _ here ih | choose _ _ _ here ih | forRange _ _ _ here ih
  | times _ _ _ here ih =>
      exact List.forall_mem_cons.mpr ⟨here, ih⟩

end States

namespace Token

mutual

/-- Whether a token is a value, or square brackets around such. -/
def isLiteral : Token → Bool
  | .number _ => true
  | .bool _ => true
  | .text _ => true
  | .procedure _ => true
  | .inline body => allLiteral body
  | .name _ => false
  | .define _ => false

def allLiteral : List Token → Bool
  | [] => true
  | t :: ts => t.isLiteral && allLiteral ts

end

mutual

/-- How many square brackets are nested in a token; those inside a procedure do not count. -/
def bracketing : Token → Nat
  | .inline body => bracketingAll body + 1
  | _ => 0

def bracketingAll : List Token → Nat
  | [] => 0
  | t :: ts => max t.bracketing (bracketingAll ts)

end

private def IsValue (t : Token) : Prop :=
  t.bracketing = 0 ∧
    ∀ (mode : ScopingMode) (m : Machine), ∃ c, m.resolve mode t = (.ok (.change c), m.stack)

private theorem literal_induction {motive : List Token → Prop} (nil : motive [])
    (value : ∀ t ts, t.IsValue → motive ts → motive (t :: ts))
    (inline : ∀ body ts, motive body → motive ts → motive (.inline body :: ts)) :
    ∀ ts, allLiteral ts = true → motive ts
  | [], _ => nil
  | t :: ts, literal => by
      simp only [allLiteral, Bool.and_eq_true] at literal
      have rest := literal_induction nil value inline ts literal.2
      cases t with
      | inline body =>
          exact inline body ts (literal_induction nil value inline body literal.1) rest
      | name word => cases literal.1
      | define word => cases literal.1
      | _ => exact value _ ts ⟨rfl, fun _ _ => ⟨_, rfl⟩⟩ rest

end Token

def Settings.verdict (settings : Settings) (levels : Nat) : Outcome :=
  if levels ≤ settings.limit then .ok .completed else .error (.nestingExceeded settings.limit)

namespace Machine

variable {settings : Settings}

private theorem verdict_of_le {levels : Nat} (fits : levels ≤ settings.limit) :
    settings.verdict levels = .ok .completed := by
  rw [Settings.verdict, if_pos fits]

private theorem verdict_of_lt {levels : Nat} (exceeds : settings.limit < levels) :
    settings.verdict levels = .error (.nestingExceeded settings.limit) := by
  rw [Settings.verdict, if_neg (Nat.not_le.mpr exceeds)]

private theorem outcome_of_full {m : Machine} (full : settings.limit ≤ m.depth)
    (tokens : List Token) (more : Nat) :
    (m.execute settings tokens).1 = settings.verdict (m.depth + 1 + more) := by
  have exceeds : settings.limit < m.depth + 1 + more := by omega
  rw [verdict_of_lt exceeds, execute_of_le full]

private theorem outcome_value {t : Token} (value : t.IsValue) (m : Machine) :
    (m.execute settings [t]).1 = settings.verdict (m.depth + 1 + t.bracketing) := by
  by_cases room : m.depth < settings.limit
  · obtain ⟨c, resolved⟩ := value.2 settings.mode { m with depth := m.depth + 1 }
    rw [value.1, Nat.add_zero, verdict_of_le room, execute_of_lt room]
    simp only [Task.run, runAll, step, resolved, perform, andThen_completed]
  · exact outcome_of_full (Nat.not_lt.mp room) [t] _

private theorem outcome_inline {body : List Token}
    (inside : ∀ n : Machine,
      (n.execute settings body).1 = settings.verdict (n.depth + 1 + Token.bracketingAll body))
    (m : Machine) :
    (m.execute settings [.inline body]).1 =
      settings.verdict (m.depth + 1 + (Token.inline body).bracketing) := by
  by_cases room : m.depth < settings.limit
  · have levels : m.depth + 1 + (Token.inline body).bracketing =
        m.depth + 1 + 1 + Token.bracketingAll body := by
      rw [Token.bracketing]
      omega
    rw [execute_inline room, levels]
    exact inside { m with depth := m.depth + 1 }
  · exact outcome_of_full (Nat.not_lt.mp room) [.inline body] _

private theorem outcome_cons {t : Token} {ts : List Token} {m : Machine}
    (first : (m.execute settings [t]).1 = settings.verdict (m.depth + 1 + t.bracketing))
    (rest : ∀ n : Machine,
      (n.execute settings ts).1 = settings.verdict (n.depth + 1 + Token.bracketingAll ts)) :
    (m.execute settings (t :: ts)).1 =
      settings.verdict (m.depth + 1 + Token.bracketingAll (t :: ts)) := by
  have level : (m.execute settings [t]).2.depth = m.depth := depth_execute settings [t] m
  rw [execute_cons, Token.bracketingAll]
  rcases ran : m.execute settings [t] with ⟨outcome, between⟩
  rw [ran] at first level
  simp only at first level
  by_cases fits : m.depth + 1 + t.bracketing ≤ settings.limit
  · rw [first, verdict_of_le fits, andThen_completed, rest between, level]
    by_cases more : m.depth + 1 + Token.bracketingAll ts ≤ settings.limit
    · rw [verdict_of_le more, verdict_of_le (by omega)]
    · rw [verdict_of_lt (by omega), verdict_of_lt (by omega)]
  · rw [first, verdict_of_lt (by omega), verdict_of_lt (by omega)]
    rfl

/-- Literals run to their end where there is room for their brackets, and overflow elsewhere. -/
theorem outcome_of_allLiteral {tokens : List Token} (literal : Token.allLiteral tokens = true)
    (m : Machine) :
    (m.execute settings tokens).1 =
      settings.verdict (m.depth + 1 + Token.bracketingAll tokens) := by
  refine Token.literal_induction (motive := fun tokens => ∀ m : Machine,
    (m.execute settings tokens).1 = settings.verdict (m.depth + 1 + Token.bracketingAll tokens))
    ?_ ?_ ?_ tokens literal m
  · intro m
    by_cases room : m.depth < settings.limit
    · rw [execute_of_lt room]
      exact (verdict_of_le room).symm
    · exact outcome_of_full (Nat.not_lt.mp room) [] _
  · intro t ts value rest m
    exact outcome_cons (outcome_value value m) rest
  · intro body ts inside rest m
    exact outcome_cons (outcome_inline inside m) rest

end Machine

/-- The count of levels is exact. A run that begins within the limit leaves the count as it found
it, whether it completes, ends itself or fails, and in no state of its derivation, those at each
token it takes up among them, is the count beyond the limit; the same goes for the call of a
procedure.
And literals that run on a machine on which nothing runs yet succeed exactly if the limit admits
the level they run on and one more for each square bracket nested in them; else they overflow. -/
theorem depth_unwound_within_limit (settings : Settings) (tokens : List Token) (m : Machine) :
    (m.depth ≤ settings.limit →
      (m.execute settings tokens).2.depth = m.depth ∧
      (∃ trace, Evaluates settings (.execute tokens) m trace (m.execute settings tokens)) ∧
      (∀ trace result, Evaluates settings (.execute tokens) m trace result →
        EvaluatesWithin settings (fun s => s.depth ≤ settings.limit) (.execute tokens) m trace
          result ∧
        ∀ moment ∈ trace, moment.state.depth ≤ settings.limit) ∧
      ∀ p, (m.call settings p).2.depth = m.depth ∧
        ∃ trace, EvaluatesWithin settings (fun s => s.depth ≤ settings.limit)
          (.execute (m.store.body p)) m trace (m.call settings p)) ∧
    (Token.allLiteral tokens = true → m.depth = 0 →
      ((∃ flow, (m.execute settings tokens).1 = .ok flow) ↔
        1 + Token.bracketingAll tokens ≤ settings.limit) ∧
      (¬ 1 + Token.bracketingAll tokens ≤ settings.limit →
        ∃ e, (m.execute settings tokens).1 = .error e ∧ e.kind = .stackOverflow)) := by
  constructor
  · intro within
    refine ⟨depth_execute settings tokens m, exists_evaluates_execute settings tokens m, ?_, ?_⟩
    · intro trace result evaluation
      have bounded := EvaluatesWithin.of_depth_le evaluation within
      exact ⟨bounded, bounded.moments⟩
    · intro p
      obtain ⟨trace, evaluation⟩ := exists_evaluates_execute settings (m.store.body p) m
      exact ⟨depth_execute settings (m.store.body p) m, trace, .of_depth_le evaluation within⟩
  · intro literal idle
    have outcome : (m.execute settings tokens).1 =
        settings.verdict (m.depth + 1 + Token.bracketingAll tokens) :=
      outcome_of_allLiteral literal m
    rw [idle, Nat.zero_add] at outcome
    rw [outcome]
    by_cases fits : 1 + Token.bracketingAll tokens ≤ settings.limit
    · rw [verdict_of_le fits]
      exact ⟨⟨fun _ => fits, fun _ => ⟨_, rfl⟩⟩, fun exceeds => absurd fits exceeds⟩
    · rw [verdict_of_lt (Nat.not_le.mp fits)]
      exact ⟨⟨nofun, fun fits' => absurd fits' fits⟩, fun _ => ⟨_, rfl, rfl⟩⟩

/-- Two brackets, one inside the other, beside a procedure that holds three: three levels are
enough and two are not, and either run leaves the count at zero. -/
theorem depth_unwound_within_limit_brackets :
    let tokens : List Token :=
      [.inline [.number (.int 1), .inline [.text "a"]],
       .procedure [.inline [.inline [.inline []]]]]
    Token.allLiteral tokens = true ∧ Token.bracketingAll tokens = 2 ∧
      (fresh.execute ⟨.dynamic, 2⟩ tokens).2.depth = 0 ∧
      (∃ trace, EvaluatesWithin ⟨.dynamic, 2⟩ (fun s => s.depth ≤ 2) (.execute tokens) fresh trace
        (fresh.execute ⟨.dynamic, 2⟩ tokens)) ∧
      (∃ flow, (fresh.execute ⟨.dynamic, 3⟩ tokens).1 = .ok flow) ∧
      ∃ e, (fresh.execute ⟨.dynamic, 2⟩ tokens).1 = .error e ∧ e.kind = .stackOverflow := by
  intro tokens
  have literal : Token.allLiteral tokens = true := by rfl
  have nested : Token.bracketingAll tokens = 2 := by rfl
  obtain ⟨counted, overflows⟩ := depth_unwound_within_limit ⟨.dynamic, 2⟩ tokens fresh
  obtain ⟨unwound, ⟨trace, evaluation⟩, bounded, -⟩ := counted (Nat.zero_le _)
  have fits := ((depth_unwound_within_limit ⟨.dynamic, 3⟩ tokens fresh).2 literal rfl).1
  have three : 1 + Token.bracketingAll tokens ≤ 3 := by omega
  have two : ¬ 1 + Token.bracketingAll tokens ≤ 2 := by omega
  exact ⟨literal, nested, unwound, ⟨trace, (bounded trace _ evaluation).1⟩, fits.mpr three,
    (overflows literal rfl).2 two⟩

end Stacklet
