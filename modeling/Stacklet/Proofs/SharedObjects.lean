import Stacklet.Proofs.ChangeOrigin
import Stacklet.Proofs.RunRecord

set_option autoImplicit false
set_option relaxedAutoImplicit false

/-!
How the shared objects evolve. A run never changes the length of a procedure, and what a dictionary
holds after it is what it held before with the bindings of the definitions for which it was the
innermost scope, in the order in which they were made. Nothing else changes an object, however
many scopes, dictionaries and values share it.
-/

namespace Stacklet

def Moment.bindingIn (d : DictionaryId) (moment : Moment) : Option (String × Value) :=
  if moment.state.scopes.current = d then moment.binding? else none

theorem Moment.innermost_of_bindingIn {d : DictionaryId} {moment : Moment}
    {binding : String × Value} (binds : moment.bindingIn d = some binding) :
    moment.state.scopes.current = d ∧ moment.binding? ≠ none := by
  unfold bindingIn at binds
  split at binds
  · rename_i innermost
    exact ⟨innermost, by simp [binds]⟩
  · cases binds

namespace Dictionary

def insertAll (d : Dictionary) (bindings : List (String × Value)) : Dictionary :=
  bindings.foldl (fun d binding => d.insert binding.1 binding.2) d

theorem insertAll_append (d : Dictionary) (first rest : List (String × Value)) :
    d.insertAll (first ++ rest) = (d.insertAll first).insertAll rest :=
  List.foldl_append

theorem capacity_insertAll (d : Dictionary) (bindings : List (String × Value)) :
    (d.insertAll bindings).capacity = d.capacity := by
  induction bindings generalizing d with
  | nil => rfl
  | cons binding rest ih => exact ih (d.insert binding.1 binding.2)

theorem get?_insert_ne_none {d : Dictionary} {key : String} (held : d.get? key ≠ none)
    (other : String) (v : Value) : (d.insert other v).get? key ≠ none := by
  by_cases same : key = other
  · subst same
    simp
  · rwa [get?_insert_of_ne d v same]

theorem get?_insertAll_ne_none {d : Dictionary} {key : String} (held : d.get? key ≠ none)
    (bindings : List (String × Value)) : (d.insertAll bindings).get? key ≠ none := by
  induction bindings generalizing d with
  | nil => exact held
  | cons binding rest ih => exact ih (get?_insert_ne_none held binding.1 binding.2)

end Dictionary

namespace Store

theorem body_addProcedure_of_lt {s : Store} {p : ProcedureId} (old : p.index < s.procedures.size)
    (tokens : List Token) : (s.addProcedure tokens).2.body p = s.body p := by
  simp [addProcedure, body, Array.getD_eq_getD_getElem?, Array.getElem?_push, Nat.ne_of_lt old]

theorem dictionary_addDictionary_of_lt {s : Store} {d : DictionaryId}
    (old : d.index < s.dictionaries.size) (new : Dictionary) :
    (s.addDictionary new).2.dictionary d = s.dictionary d := by
  simp [addDictionary, dictionary, Array.getD_eq_getD_getElem?, Array.getElem?_push,
    Nat.ne_of_lt old]

/-- How the objects of one store are found in a later one, after the tokens of a trace. -/
structure Evolves (trace : List Moment) (s s' : Store) : Prop where
  procedures : ∀ p : ProcedureId, p.index < s.procedures.size →
    p.index < s'.procedures.size ∧ (s'.body p).length = (s.body p).length
  dictionaries : ∀ d : DictionaryId, d.index < s.dictionaries.size →
    d.index < s'.dictionaries.size ∧
      s'.dictionary d = (s.dictionary d).insertAll (trace.filterMap (Moment.bindingIn d))

namespace Evolves

theorem refl (s : Store) : Evolves [] s s where
  procedures := fun _ old => ⟨old, rfl⟩
  dictionaries := fun _ old => ⟨old, rfl⟩

theorem trans {trace trace' : List Moment} {s between s' : Store}
    (first : Evolves trace s between) (rest : Evolves trace' between s') :
    Evolves (trace ++ trace') s s' where
  procedures := by
    intro p old
    obtain ⟨kept, length⟩ := first.procedures p old
    obtain ⟨kept', length'⟩ := rest.procedures p kept
    exact ⟨kept', length'.trans length⟩
  dictionaries := by
    intro d old
    obtain ⟨kept, entries⟩ := first.dictionaries d old
    obtain ⟨kept', entries'⟩ := rest.dictionaries d kept
    refine ⟨kept', ?_⟩
    rw [entries', entries, List.filterMap_append, Dictionary.insertAll_append]

theorem of_binding?_eq_none {moment : Moment} {s s' : Store} (silent : moment.binding? = none)
    (evolves : Evolves [] s s') : Evolves [moment] s s' where
  procedures := evolves.procedures
  dictionaries := by
    intro d old
    have nothing : [moment].filterMap (Moment.bindingIn d) = [] := by
      simp [Moment.bindingIn, silent]
    rw [nothing]
    exact evolves.dictionaries d old

theorem exists_definition {trace : List Moment} {s s' : Store} {d : DictionaryId}
    (evolves : Evolves trace s s') (old : d.index < s.dictionaries.size)
    (changed : s'.dictionary d ≠ s.dictionary d) :
    ∃ moment ∈ trace, moment.state.scopes.current = d ∧ moment.binding? ≠ none := by
  have made : trace.filterMap (Moment.bindingIn d) ≠ [] := by
    intro nothing
    have entries := (evolves.dictionaries d old).2
    rw [nothing] at entries
    exact changed entries
  obtain ⟨binding, bound⟩ := List.exists_mem_of_ne_nil _ made
  obtain ⟨moment, member, binds⟩ := List.mem_filterMap.mp bound
  exact ⟨moment, member, Moment.innermost_of_bindingIn binds⟩

end Evolves

theorem evolves_addProcedure (s : Store) (tokens : List Token) :
    Evolves [] s (s.addProcedure tokens).2 where
  procedures := by
    intro p old
    refine ⟨?_, by rw [body_addProcedure_of_lt old]⟩
    simp only [addProcedure, Array.size_push]
    omega
  dictionaries := fun _ old => ⟨old, rfl⟩

theorem evolves_addDictionary (s : Store) (new : Dictionary) :
    Evolves [] s (s.addDictionary new).2 where
  procedures := fun _ old => ⟨old, rfl⟩
  dictionaries := by
    intro d old
    refine ⟨?_, dictionary_addDictionary_of_lt old new⟩
    simp only [addDictionary, Array.size_push]
    omega

theorem evolves_setBody {s : Store} {q : ProcedureId} {tokens : List Token}
    (length : tokens.length = (s.body q).length) : Evolves [] s (s.setBody q tokens) where
  procedures := by
    intro p old
    refine ⟨by simpa [setBody] using old, ?_⟩
    by_cases same : p = q
    · subst same
      rw [body_setBody_self s p tokens old, length]
    · rw [body_setBody_of_ne s tokens same]
  dictionaries := fun _ old => ⟨old, rfl⟩

theorem evolves_insert {moment : Moment} {word : String} {v : Value}
    (binding : moment.binding? = some (word, v)) (s : Store) :
    Evolves [moment] s (s.insert moment.state.scopes.current word v) where
  procedures := fun _ old => ⟨old, rfl⟩
  dictionaries := by
    intro d old
    refine ⟨by simpa [insert] using old, ?_⟩
    by_cases innermost : moment.state.scopes.current = d
    · rw [innermost, dictionary_insert_self s d word v old]
      simp [Moment.bindingIn, innermost, binding, Dictionary.insertAll]
    · rw [dictionary_insert_of_ne s word v (Ne.symm innermost)]
      simp [Moment.bindingIn, innermost, Dictionary.insertAll]

end Store

open Store

/-- The step lemma: what a token does to the objects by itself. -/
theorem Moment.evolves_after (mode : ScopingMode) (moment : Moment) :
    Evolves [moment] moment.state.store (moment.after mode).store := by
  obtain ⟨t, m⟩ := moment
  -- Definitions come apart from the rest: they alone put something into a dictionary's bindings.
  cases binding : (⟨t, m⟩ : Moment).binding? with
  | some pair =>
      obtain ⟨word, v⟩ := pair
      obtain ⟨left, answer⟩ := Machine.resolve_of_binding? mode binding
      simp only [Moment.after, answer]
      exact evolves_insert binding m.store
  | none =>
      refine .of_binding?_eq_none binding ?_
      unfold Moment.after
      split
      · rename_i c left answer
        have fits := Machine.resolve_fits answer
        cases c with
        | makeProcedure body => exact evolves_addProcedure m.store body
        | makeDictionary capacity => exact evolves_addDictionary m.store _
        | setBody p body => exact evolves_setBody fits
        | bind word v => exact absurd (binding.symm.trans fits) (by simp)
        | _ => exact .refl m.store
      · exact .refl m.store

/-- The run lemma: what a course does to the objects. -/
theorem Course.evolves {mode : ScopingMode} {m after : Machine} {trace : List Moment}
    (course : Course mode m trace after) : Evolves trace m.store after.store := by
  induction course with
  | done => exact .refl _
  | level _ _ ih => exact ih
  | round _ _ ih => exact ih
  | @token t m _ _ _ ih => exact (Moment.evolves_after mode ⟨t, m⟩).trans ih

/-- How the objects of a machine evolve under a run, whatever its outcome. A procedure keeps its
length. A dictionary keeps its keys and the size that it was asked to have room for, and it is
changed only if at some moment of the run a definition was made with it as the innermost scope. -/
theorem objects_evolve (settings : Settings) (tokens : List Token) (m : Machine) :
    ∃ trace,
      (∀ trace' result, Evaluates settings (.execute tokens) m trace' result ↔
        trace' = trace ∧ result = m.execute settings tokens) ∧
      let after := (m.execute settings tokens).2.store
      (∀ p : ProcedureId, p.index < m.store.procedures.size →
        p.index < after.procedures.size ∧ (after.body p).length = (m.store.body p).length) ∧
      ∀ d : DictionaryId, d.index < m.store.dictionaries.size →
        d.index < after.dictionaries.size ∧
        (after.dictionary d).capacity = (m.store.dictionary d).capacity ∧
        (∀ key, (m.store.dictionary d).get? key ≠ none → (after.dictionary d).get? key ≠ none) ∧
        (after.dictionary d ≠ m.store.dictionary d →
          ∃ moment ∈ trace, moment.state.scopes.current = d ∧ moment.binding? ≠ none) := by
  obtain ⟨trace, record⟩ := exists_record settings tokens m
  have evaluation := (record trace (m.execute settings tokens)).mpr ⟨rfl, rfl⟩
  have evolves := evaluation.course.evolves
  refine ⟨trace, record, evolves.procedures, ?_⟩
  intro d old
  obtain ⟨kept, entries⟩ := evolves.dictionaries d old
  refine ⟨kept, ?_, fun key held => ?_, evolves.exists_definition old⟩
  · rw [entries, Dictionary.capacity_insertAll]
  · rw [entries]
    exact Dictionary.get?_insertAll_ne_none held _

/-- A dictionary that is two of the scopes and a value on the stack, and a procedure that is
overwritten by itself before the run fails. -/
theorem objects_evolve_shared :
    let start := (Machine.fresh.execute ⟨.dynamic, 1⟩
      [.procedure [.name "neg", .name "abs"], .number (.int 7), .name "dict"]).2
    let tokens : List Token :=
      [.name "dup", .name "dup", .name "begin", .name "begin", .number (.int 5), .define "x",
       .name "end", .name "pop", .name "dup", .number (.int 0), .name "exch",
       .name "putinterval", .number (.int 0), .name "begin"]
    let after := (start.execute ⟨.lexical, 1⟩ tokens).2.store
    (start.execute ⟨.lexical, 1⟩ tokens).1 =
        .error (.typeMismatch "begin" (.kind .dictionary) .integer) ∧
      (after.dictionary ⟨1⟩).get? "x" = some (.int 5) ∧
      (after.dictionary ⟨1⟩).capacity = 7 ∧ (after.body ⟨0⟩).length = 2 ∧
      ∃ trace, ∃ moment ∈ trace, Evaluates ⟨.lexical, 1⟩ (.execute tokens) start trace
          (start.execute ⟨.lexical, 1⟩ tokens) ∧
        moment.state.scopes.current = ⟨1⟩ ∧ moment.binding? ≠ none := by
  intro start tokens after
  obtain ⟨trace, record, procedures, dictionaries⟩ := objects_evolve ⟨.lexical, 1⟩ tokens start
  obtain ⟨-, capacity, -, definition⟩ := dictionaries ⟨1⟩ (by decide)
  have bound : (after.dictionary ⟨1⟩).get? "x" = some (.int 5) := by rfl
  have changed : after.dictionary ⟨1⟩ ≠ start.store.dictionary ⟨1⟩ := by
    intro same
    rw [same] at bound
    cases bound
  obtain ⟨moment, member, made⟩ := definition changed
  exact ⟨by rfl, bound, capacity, (procedures ⟨0⟩ (by decide)).2, trace, moment, member,
    (record _ _).mpr ⟨rfl, rfl⟩, made⟩

end Stacklet
