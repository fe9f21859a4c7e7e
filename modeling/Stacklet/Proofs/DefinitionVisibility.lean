import Stacklet.Proofs.DepthCounter
import Stacklet.Proofs.ScopeRestoration

set_option autoImplicit false
set_option relaxedAutoImplicit false

/-!
What a definition makes visible. There are three ways to define a name and one to look it up, and
they treat the definition sign differently: a lookup and the operator for definitions drop one sign
in front, the other two take the name as it is. A name that is run and has no value is a text, so a
definition under a name that no lookup asks for would go unnoticed.
-/

namespace Stacklet

namespace Scopes

variable {scopes : Scopes} {s : Store} {mode : ScopingMode}

/-- The innermost scope is looked into first, unless the base alone is and others are above it. -/
theorem exists_searched_eq_cons (searched : mode = .dynamic ∨ scopes.depth = 1) :
    ∃ outer, scopes.searched mode = scopes.current :: outer := by
  obtain ⟨base, inner⟩ := scopes
  cases inner with
  | nil =>
      refine ⟨[], ?_⟩
      cases mode <;> rfl
  | cons d outer =>
      obtain rfl : mode = .dynamic := searched.resolve_right (by simp [depth])
      exact ⟨outer ++ [base], rfl⟩

theorem find?_define (stored : scopes.current.index < s.dictionaries.size)
    (searched : mode = .dynamic ∨ scopes.depth = 1) (key : String) (v : Value) (word : String) :
    scopes.find? (scopes.define s key v) mode word =
      if Token.stripSign word = key then some v else scopes.find? s mode word := by
  split
  · rename_i same
    obtain ⟨outer, first⟩ := exists_searched_eq_cons searched
    have bound : ((scopes.define s key v).dictionary scopes.current).get? key = some v := by
      rw [define, Store.dictionary_insert_self s _ key v stored, Dictionary.get?_insert_self]
    rw [find?, first, List.findSome?_cons, same, bound]
  · rename_i other
    apply find?_eq_of_entries
    intro e _
    rw [define, Store.dictionary_insert]
    split
    · exact Dictionary.get?_insert_of_ne _ v other
    · rfl

end Scopes

namespace Machine

/-- Whether every dictionary that is a scope or a value is in the store. -/
structure Intact (m : Machine) : Prop where
  base : m.scopes.base.index < m.store.dictionaries.size
  scope : ∀ d ∈ m.scopes.inner, d.index < m.store.dictionaries.size
  value : ∀ d, m.Carries d → d.index < m.store.dictionaries.size

variable {m m' : Machine}

theorem Intact.of_carries (held : m.Intact) (base : m'.scopes.base = m.scopes.base)
    (grown : m.store.dictionaries.size ≤ m'.store.dictionaries.size)
    (scope : ∀ d ∈ m'.scopes.inner, d ∈ m.scopes.inner ∨ m.Carries d)
    (value : ∀ d, m'.Carries d → m.Carries d ∨ d.index < m'.store.dictionaries.size) :
    m'.Intact := by
  refine ⟨?_, ?_, ?_⟩
  · rw [base]
    exact Nat.lt_of_lt_of_le held.base grown
  · intro d entered
    have before : d.index < m.store.dictionaries.size :=
      (scope d entered).elim (held.scope d) (held.value d)
    exact Nat.lt_of_lt_of_le before grown
  · intro d carried
    rcases value d carried with before | stored
    · exact Nat.lt_of_lt_of_le (held.value d before) grown
    · exact stored

theorem Intact.current (held : m.Intact) :
    m.scopes.current.index < m.store.dictionaries.size := by
  cases shape : m.scopes.inner with
  | nil => simpa [Scopes.current, shape] using held.base
  | cons d outer => simpa [Scopes.current, shape] using held.scope d (by simp [shape])

private def intactness (mode : ScopingMode) : Invariant mode where
  holds := Intact
  code := fun _ => True
  stored := fun _ _ _ _ => trivial
  inline := fun _ _ _ => trivial
  push_int := by
    intro m n held
    refine held.of_carries rfl (Nat.le_refl _) (fun _ => .inl) ?_
    rintro d (onStack | inside)
    · exact .inl (.inl (by simpa [push] using onStack))
    · exact .inl (.inr inside)
  set_depth := fun _ held => held.of_carries rfl (Nat.le_refl _) (fun _ => .inl) fun _ => .inl
  operands := by
    intro m t answer left held _ resolved
    have kept : left <:+ m.stack := by simpa [resolved] using m.resolve_suffix mode t
    refine held.of_carries rfl (Nat.le_refl _) (fun _ => .inl) fun d carried => .inl ?_
    exact carried.imp_left fun onStack => kept.subset onStack
  change := by
    intro m t c left held _ resolved
    have kept : left <:+ m.stack := by simpa [resolved] using m.resolve_suffix mode t
    have fits := resolve_fits resolved
    refine held.of_carries (base_apply _ c)
      (size_dictionaries_le_apply { m with stack := left } c)
      (fun _ => mem_inner_of_apply fits) fun d carried => ?_
    exact (carries_of_apply kept fits carried).imp_right And.right

theorem execute_intact (settings : Settings) (tokens : List Token) (held : m.Intact) :
    (m.execute settings tokens).2.Intact := by
  obtain ⟨_, evaluation⟩ := exists_evaluates_execute settings tokens m
  exact ((intactness settings.mode).throughout_of_evaluates evaluation (fun _ _ => trivial) held).2

theorem fresh_intact : fresh.Intact where
  base := fresh_secludes.stored
  scope := by simp [fresh, Scopes.create]
  value := by
    rintro d (onStack | ⟨e, inside⟩)
    · simp [fresh, Scopes.create] at onStack
    · have inside := Store.mem_values_addDictionary (s := Store.empty) inside
      simp [Store.dictionary, Store.empty, Dictionary.values, Dictionary.empty] at inside

end Machine

namespace Interpreter

open Machine

private theorem serve_intact {i : Interpreter} (held : i.machine.Intact) (call : HostCall) :
    (i.serve call).machine.Intact := by
  cases call with
  | run source =>
      simp only [serve]
      cases read : Token.ofSource source with
      | error e =>
          rw [runSource_of_error read]
          exact held
      | ok tokens =>
          rw [runSource_of_ok read]
          exact execute_intact i.settings tokens held
  | setMode mode => exact held
  | clearStack =>
      refine held.of_carries rfl (Nat.le_refl _) (fun _ => .inl) ?_
      rintro d (onStack | inside)
      · cases onStack
      · exact .inl (.inr inside)
  | reset =>
      refine held.of_carries rfl (by simp [serve, reset, Scopes.reset, Store.clear]) ?_ ?_
      · intro d entered
        cases entered
      · rintro d (onStack | ⟨e, inside⟩)
        · cases onStack
        · exact .inl (.inr ⟨e, Store.mem_values_clear inside⟩)

theorem serveAll_intact {i : Interpreter} (held : i.machine.Intact) (calls : List HostCall) :
    (i.serveAll calls).machine.Intact := by
  induction calls generalizing i with
  | nil => exact held
  | cons call calls ih => exact ih (serve_intact held call)

def take (i : Interpreter) (t : Token) : Outcome × Interpreter :=
  let (outcome, machine) := (Task.token t).result i.settings i.machine
  (outcome, { i with machine := machine })

def operate (i : Interpreter) (op : Operator) : Outcome × Interpreter :=
  let m := i.machine
  let enter := nested i.settings (i.settings.limit - m.depth)
  let (outcome, machine) := match op.invoke m with
    | (.ok effect, rest) => perform enter effect { m with stack := rest }
    | (.error e, rest) => (.error e, { m with stack := rest })
  (outcome, { i with machine := machine })

/-- Whether names that stand for `key` have the value `v` afterwards, and all others what they had
before. -/
def Adds (before : Interpreter) (key : String) (v : Value) (after : Interpreter) : Prop :=
  ∀ word, after.lookup word = if Token.stripSign word = key then .ok v else before.lookup word

/-- Whether a token that is taken up defines a key, at any place of a run and as a program. -/
def Defines (i : Interpreter) (t : Token) (key : String) (v : Value) : Prop :=
  (∃ after, i.take t = (.ok .completed, after) ∧ i.Adds key v after) ∧
    (i.machine.depth < i.settings.limit →
      ∃ after, i.execute [t] = (.ok .completed, after) ∧ i.Adds key v after)

variable {i : Interpreter}

theorem adds_bind (stored : i.machine.scopes.current.index < i.machine.store.dictionaries.size)
    (searched : i.settings.mode = .dynamic ∨ i.machine.scopes.depth = 1) (key : String) (v : Value)
    {after : Interpreter} (settings : after.settings = i.settings)
    (scopes : after.machine.scopes = i.machine.scopes)
    (store : after.machine.store = i.machine.scopes.define i.machine.store key v) :
    i.Adds key v after := by
  intro word
  have found := Scopes.find?_define stored searched key v word
  by_cases same : Token.stripSign word = key
  · rw [if_pos same] at found ⊢
    simp only [lookup, Scopes.lookup, settings, scopes, store, found]
  · rw [if_neg same] at found ⊢
    simp only [lookup, Scopes.lookup, settings, scopes, store, found]

theorem defines_of_binding?
    (stored : i.machine.scopes.current.index < i.machine.store.dictionaries.size)
    (searched : i.settings.mode = .dynamic ∨ i.machine.scopes.depth = 1) {t : Token} {key : String}
    {v : Value} (binding : (⟨t, i.machine⟩ : Moment).binding? = some (key, v)) :
    i.Defines t key v := by
  have ran (depth room : Nat) : ∃ left,
      (Task.token t).run i.settings room { i.machine with depth := depth } =
        (.ok .completed, ({ i.machine with depth := depth, stack := left } : Machine).apply
          (.bind key v)) := by
    -- What a moment binds does not depend on the depth.
    have deeper : (⟨t, { i.machine with depth := depth }⟩ : Moment).binding? = some (key, v) :=
      binding
    obtain ⟨left, answer⟩ := resolve_of_binding? i.settings.mode deeper
    exact ⟨left, by simp only [Task.run, step, answer, perform]⟩
  constructor
  · obtain ⟨left, taken⟩ := ran i.machine.depth (i.settings.limit - i.machine.depth)
    refine ⟨⟨i.settings, ({ i.machine with stack := left } : Machine).apply (.bind key v)⟩, ?_,
      adds_bind stored searched key v rfl rfl rfl⟩
    have result : (Task.token t).result i.settings i.machine = _ := taken
    simp only [take, result]
  · intro within
    obtain ⟨left, taken⟩ := ran (i.machine.depth + 1) (i.settings.limit - (i.machine.depth + 1))
    refine ⟨⟨i.settings, ({ i.machine with stack := left } : Machine).apply (.bind key v)⟩, ?_,
      adds_bind stored searched key v rfl rfl rfl⟩
    simp only [execute, execute_singleton within, taken]
    rfl

theorem take_of_operator (i : Interpreter) {word : String} {op : Operator}
    (listed : Operator.ofName? word = some op) : i.take (.name word) = i.operate op := by
  simp only [take, Task.result, Task.run, step, resolve, listed]
  rfl

theorem take_of_free (i : Interpreter) {word : String} (free : Operator.ofName? word = none) :
    i.take (.name word) =
      match i.lookup word with
      | .ok (.procedure p) => i.call p
      | .ok v => (.ok .completed, i.push v)
      | .error _ => (.ok .completed, i.push (.text word)) := by
  simp only [take, Task.result, Task.run, step, resolve, free, meaning, lookup, Scopes.lookup,
    Machine.find?]
  cases i.machine.scopes.find? i.machine.store i.settings.mode word with
  | none => rfl
  | some v => cases v <;> rfl

/-- What a definition makes visible. In a state whose innermost scope is in the store (as it is in
all that come from an intact one, `serveAll_intact`), and in which it is looked into first, a
definition by the host, by a token with the definition sign and by the operator for it gives the
value to all names that stand for its key, and the lookup of any other name gives what it gave
before. The host and the token define the word that they are given, the operator the word without
one sign in front. A name that is run runs the operator with this name whatever is bound to it;
otherwise it runs the procedure that the lookup gives, pushes another value that it gives, and
pushes itself as a text where the lookup fails. -/
theorem definitions_visible (i : Interpreter) :
    (i.machine.scopes.current.index < i.machine.store.dictionaries.size →
      i.settings.mode = .dynamic ∨ i.machine.scopes.depth = 1 →
      ∀ v : Value,
        (∀ word, i.Adds word v (i.define word v)) ∧
        (∀ word rest, i.machine.stack = v :: rest → i.Defines (.define word) word v) ∧
        ∀ key word rest, key = .text word ∨ key = .name word →
          i.machine.stack = v :: key :: rest →
            i.Defines (.name "def") (Token.stripSign word) v) ∧
    ∀ word,
      (∀ op, Operator.ofName? word = some op → i.take (.name word) = i.operate op) ∧
      (word ∉ Operator.names → i.take (.name word) =
        match i.lookup word with
        | .ok (.procedure p) => i.call p
        | .ok v => (.ok .completed, i.push v)
        | .error _ => (.ok .completed, i.push (.text word))) := by
  constructor
  · intro stored searched v
    refine ⟨fun word => adds_bind stored searched word v rfl rfl rfl, ?_, ?_⟩
    · intro word rest shape
      exact defines_of_binding? stored searched (by simp only [Moment.binding?, shape])
    · intro key word rest stands shape
      have keyed : key.key? = some (Token.stripSign word) := by
        rcases stands with rfl | rfl <;> rfl
      exact defines_of_binding? stored searched (by simp [Moment.binding?, shape, keyed])
  · intro word
    exact ⟨fun _ => i.take_of_operator,
      fun free => i.take_of_free (Operator.ofName?_eq_none_iff.mpr free)⟩

/-- A key with two signs in front, defined in a scope that is open twice: it is found with two signs
and not with one, and a name that is bound below keeps its value. -/
theorem definitions_visible_signs :
    let i := (create ⟨.dynamic, 5⟩).serveAll [.run "5 /x 2 dict dup begin begin (//y) 8"]
    ∃ after, i.take (.name "def") = (.ok .completed, after) ∧ after.lookup "//y" = .ok (.int 8) ∧
      after.lookup "/y" = .error (.nameNotFound "y") ∧ after.lookup "/x" = .ok (.int 5) ∧
      after.take (.name "y") = (.ok .completed, after.push (.text "y")) := by
  intro i
  have intact : i.machine.Intact := serveAll_intact fresh_intact _
  have shape : i.machine.stack = [.int 8, .text "//y"] := rfl
  obtain ⟨visible, _⟩ := definitions_visible i
  obtain ⟨_, _, byOperator⟩ := visible intact.current (.inl rfl) (.int 8)
  obtain ⟨⟨after, taken, adds⟩, _⟩ := byOperator _ "//y" [] (.inl rfl) shape
  have unbound : after.lookup "y" = .error (.nameNotFound "y") := by
    rw [adds]
    rfl
  refine ⟨after, taken, ?_, ?_, ?_, ?_⟩
  · rw [adds]
    rfl
  · rw [adds]
    rfl
  · rw [adds]
    rfl
  · rw [((definitions_visible after).2 "y").2 (by decide), unbound]

end Interpreter

end Stacklet
