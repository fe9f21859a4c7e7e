import Stacklet.Interpreter
import Stacklet.Proofs.RunInvariant
import Stacklet.Proofs.TokenStructure

set_option autoImplicit false
set_option relaxedAutoImplicit false

/-!
What the procedures of the store are made of. Runs cut procedures up and splice them together, but
they never put a token into the store that was not in it or inside the program. Sources hold
brackets up to a limit only, so procedures stay below it however many sources are run.
-/

namespace Stacklet

namespace Token

theorem nesting_le_nestingAll {t : Token} {ts : List Token} (member : t ∈ ts) :
    t.nesting ≤ nestingAll ts := by
  induction ts with
  | nil => cases member
  | cons u us ih =>
      simp only [nestingAll]
      rcases List.mem_cons.mp member with rfl | later
      · exact Nat.le_max_left _ _
      · exact Nat.le_trans (ih later) (Nat.le_max_right _ _)

theorem nesting_lt_of_mem_parts {t u : Token} (member : u ∈ t.parts) : u.nesting < t.nesting := by
  cases t with
  | inline body => exact Nat.lt_succ_of_le (nesting_le_nestingAll member)
  | procedure body => exact Nat.lt_succ_of_le (nesting_le_nestingAll member)
  | _ => cases member

theorem hereditary_nesting (bound : Nat) : Hereditary fun t => t.nesting < bound where
  inline := fun {body} within _ member =>
    Nat.lt_trans (nesting_lt_of_mem_parts (t := .inline body) member) within
  procedure := fun {body} within _ member =>
    Nat.lt_trans (nesting_lt_of_mem_parts (t := .procedure body) member) within

theorem nestingAll_le_of_ofSource {source : String} {tokens : List Token}
    (read : ofSource source = .ok tokens) : nestingAll tokens ≤ nestingLimit := by
  obtain ⟨lexemes, _, structured⟩ := bind_eq_ok_iff.mp read
  exact ((ofLexemes_iff lexemes tokens).mp structured).2.2

end Token

def Interpreter.runSources (i : Interpreter) (sources : List String) : Interpreter :=
  sources.foldl (fun i source => (i.runSource source).2) i

namespace Machine

variable {Q : Token → Prop}

/-- Stored tokens have a property that passes to the tokens inside brackets. The tokens of the
program itself need not have it: only what is inside their brackets can be stored. -/
private def keepingCode (mode : ScopingMode) (hereditary : Token.Hereditary Q) :
    Invariant mode where
  holds := fun m => m.store.Holds Q
  code := fun t => ∀ u ∈ t.parts, Q u
  stored := fun held p t member => hereditary.parts (held p t member)
  inline := fun inside t member => hereditary.parts (inside t member)
  push_int := fun _ held => held
  set_depth := fun _ held => held
  operands := fun held _ _ => held
  change := fun held inside answer =>
    apply_holds held (resolve_holds_of_parts hereditary held inside answer)

theorem holds_of_evaluates {settings : Settings} (hereditary : Token.Hereditary Q) {m : Machine}
    {tokens : List Token} (held : m.store.Holds Q) (inside : ∀ t ∈ tokens, ∀ u ∈ t.parts, Q u)
    {trace : List Moment} {result : Outcome × Machine}
    (evaluation : Evaluates settings (.execute tokens) m trace result) :
    (∀ moment ∈ trace, moment.state.store.Holds Q) ∧ result.2.store.Holds Q :=
  (keepingCode settings.mode hereditary).throughout_of_evaluates evaluation inside held

theorem execute_holds (settings : Settings) (hereditary : Token.Hereditary Q) {m : Machine}
    {tokens : List Token} (held : m.store.Holds Q) (inside : ∀ t ∈ tokens, ∀ u ∈ t.parts, Q u) :
    (m.execute settings tokens).2.store.Holds Q := by
  obtain ⟨_, evaluation⟩ := exists_evaluates_execute settings tokens m
  exact (holds_of_evaluates hereditary held inside evaluation).2

end Machine

namespace Interpreter

/-- The procedures of an interpreter are nested less than a source can be, so that with braces
around it each is nested at most as deep. -/
def Shallow (i : Interpreter) : Prop :=
  i.machine.store.Holds fun t => t.nesting < Token.nestingLimit

private theorem nesting_parts_of_ofSource {source : String} {tokens : List Token}
    (read : Token.ofSource source = .ok tokens) :
    ∀ t ∈ tokens, ∀ u ∈ t.parts, u.nesting < Token.nestingLimit := by
  intro t member u inside
  calc u.nesting < t.nesting := Token.nesting_lt_of_mem_parts inside
    _ ≤ Token.nestingAll tokens := Token.nesting_le_nestingAll member
    _ ≤ Token.nestingLimit := Token.nestingAll_le_of_ofSource read

/-- What passes to the tokens inside brackets, and what all tokens inside the brackets of sources
have, the stored tokens keep, however many sources are run. -/
theorem runSources_holds {Q : Token → Prop} (hereditary : Token.Hereditary Q)
    (program : ∀ source tokens, Token.ofSource source = .ok tokens →
      ∀ t ∈ tokens, ∀ u ∈ t.parts, Q u)
    {i : Interpreter} (held : i.machine.store.Holds Q) (sources : List String) :
    (i.runSources sources).machine.store.Holds Q := by
  induction sources generalizing i with
  | nil => exact held
  | cons source sources ih =>
      have after : (i.runSource source).2.machine.store.Holds Q := by
        cases read : Token.ofSource source with
        | error e =>
            rw [runSource_of_error read]
            exact held
        | ok tokens =>
            rw [runSource_of_ok read]
            exact Machine.execute_holds i.settings hereditary held (program source tokens read)
      exact ih after

private theorem runSources_shallow {i : Interpreter} (shallow : i.Shallow)
    (sources : List String) : (i.runSources sources).Shallow :=
  runSources_holds (Token.hereditary_nesting _) (fun _ _ read => nesting_parts_of_ofSource read)
    shallow sources

/-- The provenance of code. A property of tokens that passes to the tokens inside brackets, and
that all stored tokens and the tokens of a program have, all stored tokens have at every moment of
the run and after it, whatever its outcome. So in an interpreter that has run any sources, and
while it runs another one, no procedure holds a token that is nested 1000 deep or deeper. -/
theorem stored_code_of_program (settings : Settings) :
    (∀ Q : Token → Prop, Token.Hereditary Q → ∀ (m : Machine) (tokens : List Token),
      (∀ p, ∀ t ∈ m.store.body p, Q t) → (∀ t ∈ tokens, Q t) →
        (∀ p, ∀ t ∈ (m.execute settings tokens).2.store.body p, Q t) ∧
          ∀ trace result, Evaluates settings (.execute tokens) m trace result →
            ∀ moment ∈ trace, ∀ p, ∀ t ∈ moment.state.store.body p, Q t) ∧
      ∀ sources : List String,
        let i := (create settings).runSources sources
        (∀ p, ∀ t ∈ i.machine.store.body p, t.nesting < 1000) ∧
          ∀ source tokens, Token.ofSource source = .ok tokens →
            ∀ trace result, Evaluates i.settings (.execute tokens) i.machine trace result →
              ∀ moment ∈ trace, ∀ p, ∀ t ∈ moment.state.store.body p, t.nesting < 1000 := by
  constructor
  · intro Q hereditary m tokens held program
    have inside : ∀ t ∈ tokens, ∀ u ∈ t.parts, Q u := fun t member =>
      hereditary.parts (program t member)
    refine ⟨Machine.execute_holds settings hereditary held inside, ?_⟩
    intro trace result evaluation
    exact (Machine.holds_of_evaluates hereditary held inside evaluation).1
  · intro sources i
    have start : (create settings).Shallow := Machine.fresh_holds
    have shallow : i.Shallow := runSources_shallow start sources
    refine ⟨shallow, ?_⟩
    intro source tokens read trace result evaluation
    exact (Machine.holds_of_evaluates (Token.hereditary_nesting _) shallow
      (nesting_parts_of_ofSource read) evaluation).1

/-- A procedure is overwritten in part, and a bracket inside it becomes a procedure of its own. -/
theorem stored_code_of_program_splice :
    let Q : Token → Prop := fun t => t.mentions ["quit"] = false
    let tokens : List Token :=
      [.procedure [.number (.int 1), .inline [.number (.int 2), .procedure [.name "neg"]]],
       .number (.int 0), .procedure [.name "add"], .name "putinterval", .number (.int 1),
       .name "get"]
    let after := (Machine.fresh.execute ⟨.dynamic, 3⟩ tokens).2
    (∀ t ∈ tokens, Q t) ∧
      after.store.body ⟨0⟩ =
        [.name "add", .inline [.number (.int 2), .procedure [.name "neg"]]] ∧
      after.store.body ⟨2⟩ = [.number (.int 2), .procedure [.name "neg"]] ∧
      ∀ p, ∀ t ∈ after.store.body p, Q t := by
  intro Q tokens after
  have program : ∀ t ∈ tokens, Q t := (Token.anyMentions_eq_false_iff ["quit"] tokens).mp rfl
  have kept := (stored_code_of_program ⟨.dynamic, 3⟩).1 Q (Token.hereditary_mentions _)
    Machine.fresh tokens Machine.fresh_holds program
  exact ⟨program, rfl, rfl, kept.1⟩

end Interpreter

end Stacklet
