import Stacklet.Machine.Execution

set_option autoImplicit false
set_option relaxedAutoImplicit false

/-!
Two runs of the same tokens side by side. A pairing says when two states correspond and that what
a token asks for on them corresponds; the runs then end in the same way and in states that
correspond, at every nesting. The first run can be let off: after an error that the pairing
excuses nothing is said about the second.
-/

namespace Stacklet.Machine

inductive Matched (sim : Machine → Machine → Prop) (excused : RuntimeError → Prop) :
    Outcome × Machine → Outcome × Machine → Prop
  | same {outcome : Outcome} {m m' : Machine} :
      sim m m' → Matched sim excused (outcome, m) (outcome, m')
  | excuse {e : RuntimeError} {m : Machine} {result : Outcome × Machine} :
      excused e → Matched sim excused (.error e, m) result

inductive Asked (sim : Machine → Machine → Prop) (code : Token → Prop)
    (twin : ProcedureId → ProcedureId → Prop) (m m' : Machine) : Effect → Effect → Prop
  | change {c c' : Change} :
      sim (m.apply c) (m'.apply c') → Asked sim code twin m m' (.change c) (.change c')
  | quit : sim m m' → Asked sim code twin m m' .quit .quit
  | run {body : List Token} :
      sim m m' → (∀ t ∈ body, code t) → Asked sim code twin m m' (.run body) (.run body)
  | times {count : Nat} {p p' : ProcedureId} :
      sim m m' → twin p p' → Asked sim code twin m m' (.times count p) (.times count p')
  | range {first : Int} {count : Nat} {p p' : ProcedureId} :
      sim m m' → twin p p' →
        Asked sim code twin m m' (.range first count p) (.range first count p')

inductive Answered (sim : Machine → Machine → Prop) (code : Token → Prop)
    (twin : ProcedureId → ProcedureId → Prop) (excused : RuntimeError → Prop) (m m' : Machine) :
    Except RuntimeError Effect × Stack → Except RuntimeError Effect × Stack → Prop
  | effect {e e' : Effect} {rest rest' : Stack} :
      Asked sim code twin { m with stack := rest } { m' with stack := rest' } e e' →
        Answered sim code twin excused m m' (.ok e, rest) (.ok e', rest')
  | failure {e : RuntimeError} {rest rest' : Stack} :
      sim { m with stack := rest } { m' with stack := rest' } →
        Answered sim code twin excused m m' (.error e, rest) (.error e, rest')
  | excuse {e : RuntimeError} {rest : Stack} {answer : Except RuntimeError Effect × Stack} :
      excused e → Answered sim code twin excused m m' (.error e, rest) answer

/-- Two ways of running tokens that keep states corresponding. Only tokens with the property
`code` are run, and `twin` relates the identities of procedures that hold the same tokens. -/
structure Pairing (mode mode' : ScopingMode) where
  sim : Machine → Machine → Prop
  code : Token → Prop
  twin : ProcedureId → ProcedureId → Prop
  /-- The errors of the first run after which the second can be anything. -/
  excused : RuntimeError → Prop
  twin_body : ∀ {m m' : Machine} {p p' : ProcedureId}, sim m m' → twin p p' →
    m'.store.body p' = m.store.body p
  code_body : ∀ {m m' : Machine} {p p' : ProcedureId}, sim m m' → twin p p' →
    ∀ t ∈ m.store.body p, code t
  push_int : ∀ {m m' : Machine} (n : Int64), sim m m' → sim (m.push (.int n)) (m'.push (.int n))
  set_depth : ∀ {m m' : Machine} (f : Nat → Nat), sim m m' →
    sim { m with depth := f m.depth } { m' with depth := f m'.depth }
  resolve : ∀ {m m' : Machine} {t : Token}, sim m m' → code t →
    Answered sim code twin excused m m' (m.resolve mode t) (m'.resolve mode' t)

theorem Matched.andThen {sim : Machine → Machine → Prop} {excused : RuntimeError → Prop}
    {result result' : Outcome × Machine} {next next' : Machine → Outcome × Machine}
    (first : Matched sim excused result result')
    (rest : ∀ m m', sim m m' → Matched sim excused (next m) (next' m')) :
    Matched sim excused (Machine.andThen result next) (Machine.andThen result' next') := by
  cases first with
  | @same outcome m m' related =>
      rcases outcome with e | (_ | _)
      · exact .same related
      · exact rest m m' related
      · exact .same related
  | excuse excuse => exact .excuse excuse

theorem Matched.exists_of_ok {sim : Machine → Machine → Prop} {excused : RuntimeError → Prop}
    {flow : Flow} {m : Machine} {result : Outcome × Machine}
    (matched : Matched sim excused (.ok flow, m) result) :
    ∃ m', result = (.ok flow, m') ∧ sim m m' := by
  cases matched with
  | @same _ _ m' related => exact ⟨m', rfl, related⟩

namespace Pairing

variable {mode mode' : ScopingMode} (P : Pairing mode mode')
variable {enter enter' : List Token → Machine → Outcome × Machine}

def Enters (enter enter' : List Token → Machine → Outcome × Machine) : Prop :=
  ∀ body m m', (∀ t ∈ body, P.code t) → P.sim m m' →
    Matched P.sim P.excused (enter body m) (enter' body m')

private theorem enter_body (entered : P.Enters enter enter') {m m' : Machine} {p p' : ProcedureId}
    (twin : P.twin p p') {n n' : Machine} (start : P.sim m m') (related : P.sim n n') :
    Matched P.sim P.excused (enter (m.store.body p) n) (enter' (m'.store.body p') n') := by
  rw [P.twin_body start twin]
  exact entered _ n n' (P.code_body start twin) related

private theorem runTimes_matched (entered : P.Enters enter enter') {p p' : ProcedureId}
    (twin : P.twin p p') (count : Nat) (m m' : Machine) (related : P.sim m m') :
    Matched P.sim P.excused (runTimes enter p count m) (runTimes enter' p' count m') := by
  induction count generalizing m m' with
  | zero => exact .same related
  | succ count ih =>
      simp only [runTimes]
      exact (P.enter_body entered twin related related).andThen ih

private theorem runRange_matched (entered : P.Enters enter enter') {p p' : ProcedureId}
    (twin : P.twin p p') (count : Nat) (i : Int) (m m' : Machine) (related : P.sim m m') :
    Matched P.sim P.excused (runRange enter p count i m) (runRange enter' p' count i m') := by
  induction count generalizing i m m' with
  | zero => exact .same related
  | succ count ih =>
      simp only [runRange]
      have pushed := P.push_int (Int64.ofInt i) related
      exact (P.enter_body entered twin related pushed).andThen (ih (i + 1))

private theorem perform_matched (entered : P.Enters enter enter') {e e' : Effect} {m m' : Machine}
    (asked : Asked P.sim P.code P.twin m m' e e') :
    Matched P.sim P.excused (perform enter e m) (perform enter' e' m') := by
  cases asked with
  | change related => exact .same related
  | quit related => exact .same related
  | run related code => exact entered _ m m' code related
  | @times count p p' related twin => exact P.runTimes_matched entered twin count m m' related
  | @range first count p p' related twin =>
      exact P.runRange_matched entered twin count first m m' related

private theorem step_matched (entered : P.Enters enter enter') {t : Token} (code : P.code t)
    {m m' : Machine} (related : P.sim m m') :
    Matched P.sim P.excused (step mode enter t m) (step mode' enter' t m') := by
  have answered := P.resolve related code
  unfold step
  generalize m.resolve mode t = answer at answered ⊢
  generalize m'.resolve mode' t = answer' at answered ⊢
  cases answered with
  | effect asked => exact P.perform_matched entered asked
  | failure left => exact .same left
  | excuse excuse => exact .excuse excuse

private theorem runAll_matched (entered : P.Enters enter enter') (tokens : List Token)
    (m m' : Machine) (code : ∀ t ∈ tokens, P.code t) (related : P.sim m m') :
    Matched P.sim P.excused (runAll mode enter tokens m) (runAll mode' enter' tokens m') := by
  induction tokens generalizing m m' with
  | nil => exact .same related
  | cons t ts ih =>
      simp only [runAll]
      have first := P.step_matched entered (code t (by simp)) related
      exact first.andThen fun n n' => ih n n' fun u member => code u (by simp [member])

private theorem matched_set_depth {result result' : Outcome × Machine} (f : Nat → Nat)
    (matched : Matched P.sim P.excused result result') :
    Matched P.sim P.excused (result.1, { result.2 with depth := f result.2.depth })
      (result'.1, { result'.2 with depth := f result'.2.depth }) := by
  cases matched with
  | same related => exact .same (P.set_depth f related)
  | excuse excuse => exact .excuse excuse

/-- The run lemma. The two runs have the same room, or the second has more and the first is let
off when it has none. -/
theorem nested_matched {limit limit' room room' : Nat}
    (rooms : (room' = room ∧ limit' = limit) ∨
      (room ≤ room' ∧ P.excused (.nestingExceeded limit))) :
    P.Enters (nested ⟨mode, limit⟩ room) (nested ⟨mode', limit'⟩ room') := by
  induction room generalizing room' with
  | zero =>
      intro tokens m m' _ related
      rcases rooms with ⟨rfl, rfl⟩ | ⟨_, excuse⟩
      · exact .same related
      · exact .excuse excuse
  | succ room ih =>
      intro tokens m m' code related
      have positive : ∃ inner', room' = inner' + 1 ∧
          ((inner' = room ∧ limit' = limit) ∨
            (room ≤ inner' ∧ P.excused (.nestingExceeded limit))) := by
        rcases rooms with ⟨same, limits⟩ | ⟨le, excuse⟩
        · exact ⟨room, same, .inl ⟨rfl, limits⟩⟩
        · exact ⟨room' - 1, by omega, .inr ⟨by omega, excuse⟩⟩
      obtain ⟨inner', rfl, inner⟩ := positive
      have deeper := P.set_depth (· + 1) related
      exact P.matched_set_depth (· - 1) (P.runAll_matched (ih inner) tokens _ _ code deeper)

theorem execute_matched (limit : Nat) {tokens : List Token} {m m' : Machine}
    (code : ∀ t ∈ tokens, P.code t) (related : P.sim m m') (depth : m'.depth = m.depth) :
    Matched P.sim P.excused (m.execute ⟨mode, limit⟩ tokens)
      (m'.execute ⟨mode', limit⟩ tokens) := by
  unfold execute
  rw [depth]
  exact P.nested_matched (.inl ⟨rfl, rfl⟩) tokens m m' code related

end Pairing

end Stacklet.Machine
