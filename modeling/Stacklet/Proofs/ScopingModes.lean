import Stacklet.Proofs.OperandUse
import Stacklet.Proofs.PairedRuns

set_option autoImplicit false
set_option relaxedAutoImplicit false

/-!
The two ways of looking names up agree as long as no scope is open above the base. One operator
opens scopes, so they agree on programs that cannot name it; what a program runs comes from the
program or from the store.
-/

namespace Stacklet

theorem Operator.ofName?_ne_enterScope {word : String} {op : Operator}
    (found : ofName? word = some op) (free : ["begin"].contains word = false) :
    op ≠ .enterScope := by
  have listed : ∀ entry ∈ table, entry.2 = .enterScope → ["begin"].contains entry.1 = true := by
    decide
  intro same
  rw [listed _ (ofName?_mem found) same] at free
  cases free

namespace Machine

theorem find?_lexical_eq_dynamic {m : Machine} (base : m.scopes.inner = []) (word : String) :
    m.find? .lexical word = m.find? .dynamic word := by
  simp only [find?, Scopes.find?, Scopes.searched, Scopes.frames, base, List.nil_append]

/-- The mode decides nothing but the values of names. -/
theorem resolve_eq_of_find?_eq {m : Machine} {mode mode' : ScopingMode}
    (same : ∀ word, m.find? mode' word = m.find? mode word) (t : Token) :
    m.resolve mode' t = m.resolve mode t := by
  cases t with
  | name word => simp only [resolve, meaning, same word]
  | _ => rfl

theorem opensScope_eq_false {m : Machine} {mode : ScopingMode} {t : Token}
    (free : t.mentions ["begin"] = false) {c : Change} {left : Stack}
    (answer : m.resolve mode t = (.ok (.change c), left)) : c.opensScope = false := by
  cases t with
  | define word =>
      simp only [resolve] at answer
      split at answer <;> cases answer
      rfl
  | name word =>
      simp only [resolve] at answer
      split at answer
      · rename_i op found
        have other := Operator.ofName?_ne_enterScope found free
        obtain ⟨operands, _, performed⟩ := Operator.invoke_eq_ok_iff.mp answer
        exact Bool.eq_false_iff.mpr fun opens =>
          other (Operator.eq_enterScope_of_perform performed opens)
      · obtain ⟨asked, _⟩ := Prod.mk.inj answer
        rcases m.called_or_pushed mode word with ⟨p, bound⟩ | ⟨v, pushed⟩
        · simp only [meaning, bound] at asked
          cases asked
        · rw [pushed] at asked
          cases asked
          rfl
  | inline body => cases answer
  | _ =>
      cases answer
      rfl

private theorem inner_apply {m : Machine} {c : Change} (base : m.scopes.inner = [])
    (closed : c.opensScope = false) : (m.apply c).scopes.inner = [] := by
  cases c with
  | enterScope d => cases closed
  | leaveScope => simp [apply, base]
  | _ => exact base

/-- A run beside itself under the other mode, with no scope open above the base. -/
private def onBase : Pairing .dynamic .lexical where
  sim := fun m m' => m' = m ∧ m.scopes.inner = [] ∧
    m.store.Holds fun t => t.mentions ["begin"] = false
  code := fun t => t.mentions ["begin"] = false
  twin := Eq
  excused := fun _ => False
  twin_body := by
    rintro _ m p _ ⟨rfl, _⟩ rfl
    rfl
  code_body := by
    rintro _ m p _ ⟨rfl, _, held⟩ rfl
    exact held p
  push_int := by
    rintro _ m n ⟨rfl, base, held⟩
    exact ⟨rfl, base, held⟩
  set_depth := by
    rintro _ m f ⟨rfl, base, held⟩
    exact ⟨rfl, base, held⟩
  resolve := by
    rintro _ m t ⟨rfl, base, held⟩ free
    -- On the base both modes find the same, so there is one answer to follow.
    rw [resolve_eq_of_find?_eq (find?_lexical_eq_dynamic base) t]
    rcases answer : m.resolve .dynamic t with ⟨e | effect, left⟩
    · exact .failure ⟨rfl, base, held⟩
    · have stored : effect.Holds fun t => t.mentions ["begin"] = false :=
        resolve_holds (Token.hereditary_mentions ["begin"]) held free answer
      refine .effect ?_
      cases effect with
      | change c =>
          have closed := opensScope_eq_false free answer
          refine .change ⟨rfl, inner_apply ?_ closed, apply_holds held stored⟩
          exact base
      | quit => exact .quit ⟨rfl, base, held⟩
      | run body => exact .run ⟨rfl, base, held⟩ stored
      | times count p => exact .times ⟨rfl, base, held⟩ rfl
      | range first count p => exact .range ⟨rfl, base, held⟩ rfl

/-- The two modes agree on programs that cannot open a scope: with nothing open above the base, a
program runs to the same end and the same state under both, provided that neither it nor the store
names the operator that opens scopes. -/
theorem execute_dynamic_eq_lexical (limit : Nat) {tokens : List Token} {m : Machine}
    (base : m.scopes.depth = 1)
    (stored : ∀ p, Token.anyMentions ["begin"] (m.store.body p) = false)
    (program : Token.anyMentions ["begin"] tokens = false) :
    m.execute ⟨.dynamic, limit⟩ tokens = m.execute ⟨.lexical, limit⟩ tokens := by
  have inner : m.scopes.inner = [] := List.length_eq_zero_iff.mp (Nat.succ.inj base)
  have held : m.store.Holds fun t => t.mentions ["begin"] = false := fun p =>
    (Token.anyMentions_eq_false_iff _ _).mp (stored p)
  have matched := onBase.execute_matched limit ((Token.anyMentions_eq_false_iff _ _).mp program)
    ⟨rfl, inner, held⟩ rfl
  generalize m.execute ⟨.dynamic, limit⟩ tokens = result at matched ⊢
  generalize m.execute ⟨.lexical, limit⟩ tokens = result' at matched ⊢
  cases matched with
  | same related => rw [related.1]
  | excuse impossible => exact impossible.elim

/-- A procedure is overwritten in part, bound and run, before the program fails. -/
theorem execute_dynamic_eq_lexical_overwrite :
    let tokens : List Token :=
      [.number (.int 5), .define "x", .procedure [.name "x", .name "neg"], .name "dup",
       .number (.int 1), .procedure [.name "print"], .name "putinterval", .define "f", .name "f",
       .name "end"]
    (fresh.execute ⟨.dynamic, 4⟩ tokens).1 = .error .baseScope ∧
      fresh.execute ⟨.dynamic, 4⟩ tokens = fresh.execute ⟨.lexical, 4⟩ tokens := by
  intro tokens
  have stored : ∀ p, Token.anyMentions ["begin"] (fresh.store.body p) = false := fun p =>
    (Token.anyMentions_eq_false_iff _ _).mpr (fresh_holds p)
  exact ⟨rfl, execute_dynamic_eq_lexical 4 rfl stored rfl⟩

-- In an open scope the modes find different values of a name that is bound in it and in the base.
example :
    let tokens : List Token :=
      [.number (.int 1), .define "x", .number (.int 1), .name "dict", .name "begin",
       .number (.int 2), .define "x", .name "x"]
    (fresh.execute ⟨.dynamic, 1⟩ tokens).2.stack = [.int 2] ∧
      (fresh.execute ⟨.lexical, 1⟩ tokens).2.stack = [.int 1] := by
  exact ⟨rfl, rfl⟩

end Machine

end Stacklet
