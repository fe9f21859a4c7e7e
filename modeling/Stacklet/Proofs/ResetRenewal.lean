import Stacklet.Proofs.BaseDictionary
import Stacklet.Proofs.PriorOutput
import Stacklet.Proofs.Renaming
import Stacklet.Proofs.StoredCode

set_option autoImplicit false
set_option relaxedAutoImplicit false

/-!
A reset leaves nothing behind. Procedures and dictionaries made before it stay in the store, but no
value reaches them any more, and the objects made after it differ from those of a new interpreter
by a renaming of identities only. So both run every further source alike.
-/

namespace Stacklet

/-- Two machines in states that correspond under a renaming, the second of which has printed
`before` in addition. -/
structure Machine.Renamed (r : Renaming) (before : String) (m m' : Machine) : Prop where
  store : Store.Renamed r m.store m'.store
  stack : m'.stack = m.stack.map r.value
  scopes : m'.scopes = r.scopes m.scopes
  output : m'.output = before ++ m.output
  depth : m'.depth = m.depth

namespace Store.Renamed

variable {r : Renaming} {s s' : Store}

theorem display_eq (renamed : Renamed r s s') (v : Value) :
    s'.display (r.value v) = s.display v := by
  cases v with
  | procedure p => simp only [Renaming.value, Store.display, renamed.body]
  | _ => rfl

theorem listing_eq (renamed : Renamed r s s') (v : Value) :
    s'.listing (r.value v) = s.listing v := by
  cases v with
  | procedure p => exact renamed.display_eq (.procedure p)
  | _ => rfl

theorem length?_eq (renamed : Renamed r s s') (v : Value) :
    s'.length? (r.value v) = s.length? v := by
  cases v with
  | procedure p => simp only [Renaming.value, Store.length?, renamed.body]
  | dictionary d => simp only [Renaming.value, Store.length?, renamed.dictionary, r.size_contents]
  | _ => rfl

theorem element_eq (renamed : Renamed r s s') (operator : String) (index : Int) (v : Value) :
    (s'.element operator index (r.value v)).map Effect.ofDatum =
      ((s.element operator index v).map Effect.ofDatum).map r.effect := by
  cases v with
  | text t =>
      simp only [Renaming.value, Store.element]
      cases Interval.element? index t.toList <;> rfl
  | procedure p =>
      simp only [Renaming.value, Store.element, renamed.body]
      cases Interval.element? index (s.body p) with
      | none => rfl
      | some token => cases token <;> rfl
  | _ => rfl

theorem interval_eq (renamed : Renamed r s s') (operator : String) (start count : Int)
    (v : Value) :
    (s'.interval operator start count (r.value v)).map Effect.ofDatum =
      ((s.interval operator start count v).map Effect.ofDatum).map r.effect := by
  cases v with
  | text t =>
      simp only [Renaming.value, Store.interval]
      cases Interval.read? start count t.toList <;> rfl
  | procedure p =>
      simp only [Renaming.value, Store.interval, renamed.body]
      cases Interval.read? start count (s.body p) <;> rfl
  | _ => rfl

theorem overwrite_eq (renamed : Renamed r s s') (operator : String) (start : Int)
    (target part : Value) :
    (s'.overwrite operator start (r.value target) (r.value part)).map Effect.ofRevision =
      ((s.overwrite operator start target part).map Effect.ofRevision).map r.effect := by
  cases target <;> cases part <;> try rfl
  case text.text t u =>
    simp only [Renaming.value, Store.overwrite]
    cases Interval.write? start u.toList t.toList <;> rfl
  case procedure.procedure p q =>
    simp only [Renaming.value, Store.overwrite, renamed.body]
    cases Interval.write? start (s.body q) (s.body p) <;> rfl

end Store.Renamed

theorem Store.dictionary_clear_self {s : Store} {d : DictionaryId}
    (stored : d.index < s.dictionaries.size) :
    (s.clear d).dictionary d = (s.dictionary d).clear := by
  simp [clear, dictionary, Array.getD_eq_getD_getElem?, Array.getElem_modify, stored]

theorem Store.capacity_clear (s : Store) (d e : DictionaryId) :
    ((s.clear d).dictionary e).capacity = (s.dictionary e).capacity := by
  rcases s.dictionary_modify d e Dictionary.clear with same | cleared
  · rw [clear, same]
  · rw [clear, cleared]
    rfl

namespace Machine.Renamed

variable {r : Renaming} {before : String} {m m' : Machine}

theorem perform_eq (renamed : Renamed r before m m') (op : Operator)
    (operands : Operands op.signature) :
    op.perform m' (r.operands op.signature operands) = (op.perform m operands).map r.effect := by
  obtain ⟨store, stack, scopes, output, depth⟩ := renamed
  cases op with
  | arithmetic f =>
      obtain ⟨b, a, ⟨⟩⟩ := operands
      simp only [Operator.perform, Renaming.operands, Renaming.content]
      cases f.apply a b <;> rfl
  | transform f =>
      obtain ⟨a, ⟨⟩⟩ := operands
      simp only [Operator.perform, Renaming.operands, Renaming.content]
      cases f.apply a <;> rfl
  | equal | notEqual =>
      obtain ⟨b, a, ⟨⟩⟩ := operands
      simp only [Operator.perform, Renaming.operands, Renaming.content, store.same_eq]
      rfl
  | relation f =>
      obtain ⟨b, a, ⟨⟩⟩ := operands
      simp only [Operator.perform, Renaming.operands, Renaming.content, r.order_value]
      cases Operator.order f.label a b <;> rfl
  | exchange =>
      simp only [Operator.perform, stack, r.exchange_map]
      cases Stack.exchange m.stack <;> rfl
  | count =>
      simp only [Operator.perform, stack, List.length_map]
      rfl
  | copy =>
      obtain ⟨n, ⟨⟩⟩ := operands
      simp only [Operator.perform, Renaming.operands, Renaming.content, stack, r.copy_map]
      cases Stack.copy n.toInt m.stack <;> rfl
  | makeDictionary =>
      obtain ⟨n, ⟨⟩⟩ := operands
      have kept : Operator.makeDictionary.perform m' (n, ()) =
          Operator.makeDictionary.perform m (n, ()) := rfl
      refine kept.trans ?_
      simp only [Operator.perform]
      split <;> rfl
  | leaveScope =>
      simp only [Operator.perform, scopes, Scopes.leave, Renaming.scopes]
      cases m.scopes.inner <;> rfl
  | define =>
      obtain ⟨v, key, ⟨⟩⟩ := operands
      simp only [Operator.perform, Renaming.operands, Renaming.content, r.key?_value, r.kind_value]
      cases key.key? <;> rfl
  | length =>
      obtain ⟨v, ⟨⟩⟩ := operands
      simp only [Operator.perform, Renaming.operands, Renaming.content, store.length?_eq,
        r.kind_value]
      cases m.store.length? v <;> rfl
  | maxLength =>
      obtain ⟨d, ⟨⟩⟩ := operands
      simp only [Operator.perform, Renaming.operands, Renaming.content, store.dictionary,
        Dictionary.maxLength, r.size_contents, r.capacity_contents]
      rfl
  | element =>
      obtain ⟨index, v, ⟨⟩⟩ := operands
      exact store.element_eq "get" index.toInt v
  | interval =>
      obtain ⟨n, start, v, ⟨⟩⟩ := operands
      exact store.interval_eq "getinterval" start.toInt n.toInt v
  | overwrite =>
      obtain ⟨part, start, v, ⟨⟩⟩ := operands
      exact store.overwrite_eq "putinterval" start.toInt v part
  | choose b =>
      obtain ⟨whenFalse, whenTrue, condition, ⟨⟩⟩ := operands
      simp only [Operator.perform, Renaming.operands, Renaming.content]
      cases condition
      · simp only [Bool.false_eq_true, reduceIte, store.body]
        rfl
      · simp only [reduceIte, store.body]
        rfl
  | print =>
      obtain ⟨v, ⟨⟩⟩ := operands
      simp only [Operator.perform, Renaming.operands, Renaming.content, store.display_eq]
      rfl
  | _ => rfl

theorem apply (renamed : Renamed r before m m') (c : Change) :
    Renamed r before (m.apply c) (m'.apply (r.change c)) := by
  obtain ⟨store, stack, scopes, output, depth⟩ := renamed
  cases c with
  | push values =>
      exact ⟨store, by simp [Machine.apply, Renaming.change, stack], scopes, output, depth⟩
  | restack values => exact ⟨store, rfl, scopes, output, depth⟩
  | makeProcedure body =>
      obtain ⟨place, made⟩ := store.addProcedure body
      refine ⟨made, ?_, scopes, output, depth⟩
      simp only [Machine.apply, Renaming.change, List.map_cons, Renaming.value, place, stack]
  | makeDictionary capacity =>
      obtain ⟨place, made⟩ := store.addDictionary (Dictionary.empty capacity)
      refine ⟨made, ?_, scopes, output, depth⟩
      simp only [Machine.apply, List.map_cons, Renaming.value, place, stack]
      rfl
  | setBody p body =>
      refine ⟨store.setBody p body, ?_, scopes, output, depth⟩
      simp only [Machine.apply, Renaming.change, List.map_cons, Renaming.value, stack]
  | bind word v =>
      refine ⟨?_, stack, scopes, output, depth⟩
      simp only [Machine.apply, Renaming.change, Scopes.define, scopes, r.current_scopes]
      exact store.insert m.scopes.current word v
  | enterScope d =>
      refine ⟨store, stack, ?_, output, depth⟩
      simp only [Machine.apply, Renaming.change, scopes]
      rfl
  | leaveScope =>
      refine ⟨store, stack, ?_, output, depth⟩
      simp only [Machine.apply, Renaming.change, scopes, Renaming.scopes, List.map_tail]
  | print line =>
      refine ⟨store, stack, scopes, ?_, depth⟩
      simp [Machine.apply, Renaming.change, output, String.append_assoc]

theorem with_stack (renamed : Renamed r before m m') (s : Stack) :
    Renamed r before { m with stack := s } { m' with stack := s.map r.value } :=
  ⟨renamed.store, rfl, renamed.scopes, renamed.output, renamed.depth⟩

theorem find?_eq (renamed : Renamed r before m m') (mode : ScopingMode) (word : String) :
    m'.find? mode word = (m.find? mode word).map r.value := by
  simp only [Machine.find?, Scopes.find?, renamed.scopes, r.searched_scopes]
  induction m.scopes.searched mode with
  | nil => rfl
  | cons d ds ih =>
      simp only [List.map_cons, List.findSome?_cons, renamed.store.dictionary, r.get?_contents, ih]
      cases (m.store.dictionary d).get? (Token.stripSign word) <;> rfl

theorem meaning_eq (renamed : Renamed r before m m') (mode : ScopingMode) (word : String) :
    m'.meaning mode word = r.effect (m.meaning mode word) := by
  simp only [Machine.meaning, renamed.find?_eq]
  cases m.find? mode word with
  | none => rfl
  | some v =>
      cases v with
      | procedure p => simp only [Option.map_some, Renaming.value, renamed.store.body]; rfl
      | _ => rfl

theorem resolve_eq (renamed : Renamed r before m m') (mode : ScopingMode) (t : Token) :
    m'.resolve mode t =
      ((m.resolve mode t).1.map r.effect, (m.resolve mode t).2.map r.value) := by
  cases t with
  | define word =>
      simp only [Machine.resolve, renamed.stack]
      cases m.stack <;> rfl
  | name word =>
      simp only [Machine.resolve]
      cases Operator.ofName? word with
      | none => simp only [renamed.meaning_eq, renamed.stack]; rfl
      | some op =>
          simp only [Operator.invoke, renamed.stack, r.take_map]
          rcases Operands.take op.label op.signature m.stack with ⟨e | operands, rest⟩
          · rfl
          · simp only [Except.map, (renamed.with_stack rest).perform_eq]
  | _ =>
      simp only [Machine.resolve, renamed.stack]
      rfl

end Machine.Renamed

namespace Machine

private def corresponding (mode : ScopingMode) (r : Renaming) (before : String) :
    Pairing mode mode where
  sim := Renamed r before
  code := fun _ => True
  twin := fun p p' => p' = r.procedure p
  excused := fun _ => False
  twin_body := by
    rintro m m' p _ renamed rfl
    exact renamed.store.body p
  code_body := fun _ _ _ _ => trivial
  push_int := by
    intro m m' n renamed
    exact renamed.apply (.push [.int n])
  set_depth := by
    intro m m' f renamed
    exact ⟨renamed.store, renamed.stack, renamed.scopes, renamed.output,
      congrArg f renamed.depth⟩
  resolve := by
    intro m m' t renamed _
    rw [renamed.resolve_eq]
    rcases m.resolve mode t with ⟨e | effect, rest⟩
    · exact .failure (renamed.with_stack rest)
    · have left := renamed.with_stack rest
      refine .effect ?_
      cases effect with
      | change c => exact .change (left.apply c)
      | quit => exact .quit left
      | run body => exact .run left fun _ _ => trivial
      | times count p => exact .times left rfl
      | range first count p => exact .range left rfl

/-- Corresponding machines run every program to the same outcome and to corresponding states. -/
theorem Renamed.execute {r : Renaming} {before : String} {m m' : Machine}
    (renamed : Renamed r before m m') (settings : Settings) (tokens : List Token) :
    (m'.execute settings tokens).1 = (m.execute settings tokens).1 ∧
      Renamed r before (m.execute settings tokens).2 (m'.execute settings tokens).2 := by
  have matched : Matched (Renamed r before) (fun _ => False)
      (m.execute settings tokens) (m'.execute settings tokens) :=
    (corresponding settings.mode r before).execute_matched settings.limit (fun _ _ => trivial)
      renamed renamed.depth
  generalize m.execute settings tokens = result at matched ⊢
  generalize m'.execute settings tokens = result' at matched ⊢
  cases matched with
  | same related => exact ⟨rfl, related⟩
  | excuse never => exact never.elim

end Machine

namespace Interpreter

/-- The base dictionary was made without room for entries, and no call changes that. -/
theorem serveAll_capacity {i : Interpreter} {d : DictionaryId} (held : i.machine.Secludes d)
    (calls : List HostCall) :
    ((i.serveAll calls).machine.store.dictionary d).capacity =
      (i.machine.store.dictionary d).capacity := by
  induction calls generalizing i with
  | nil => rfl
  | cons call calls ih =>
      refine (ih (serveAll_secludes held [call])).trans ?_
      cases call with
      | run source =>
          have ran : i.serveAll [.run source] = (i.runSource source).2 := rfl
          rw [ran]
          cases read : Token.ofSource source with
          | error e => rw [runSource_of_error read]
          | ok tokens =>
              rw [runSource_of_ok read]
              obtain ⟨_, evaluation⟩ := exists_evaluates_execute i.settings tokens i.machine
              have entries := (evaluation.course.evolves.dictionaries d held.stored).2
              exact (congrArg Dictionary.capacity entries).trans (Dictionary.capacity_insertAll _ _)
      | setMode mode => rfl
      | clearStack => rfl
      | reset => exact Store.capacity_clear _ _ _

/-- The renaming from the identities of a new interpreter to those of one that has been reset: the
base stays, and all others come after the objects that are there. -/
private def behind (s : Store) (stored : 0 < s.dictionaries.size) : Renaming where
  procedure := fun p => ⟨s.procedures.size + p.index⟩
  dictionary := fun d => if d.index = 0 then ⟨0⟩ else ⟨s.dictionaries.size + (d.index - 1)⟩
  procedure_injective := by
    rintro ⟨p⟩ ⟨q⟩ same
    simpa using same
  dictionary_injective := by
    rintro ⟨d⟩ ⟨e⟩ same
    simp only at same
    split at same <;> split at same <;> simp only [DictionaryId.mk.injEq] at same ⊢ <;> omega

private theorem renamed_reset {i : Interpreter} (held : i.machine.Secludes ⟨0⟩)
    (bare : (i.machine.store.dictionary ⟨0⟩).capacity = 0) :
    Machine.Renamed (behind i.machine.store held.stored) i.machine.output Machine.fresh
      i.reset.machine := by
  have base : i.machine.scopes.base = ⟨0⟩ := Machine.base_eq_of_secludes held
  have cleared : i.reset.machine.store = i.machine.store.clear ⟨0⟩ := by
    rw [← base]
    rfl
  refine ⟨?_, rfl, ?_, by simp [Machine.fresh, reset], rfl⟩
  · rw [cleared]
    refine ⟨?_, ?_, ?_, ?_⟩
    · intro p
      simp [Store.body, Store.clear, behind, Machine.fresh, Scopes.create, Store.addDictionary,
        Store.empty]
    · rintro ⟨_ | d⟩
      · calc (i.machine.store.clear ⟨0⟩).dictionary ⟨0⟩
            = (i.machine.store.dictionary ⟨0⟩).clear := Store.dictionary_clear_self held.stored
          _ = Dictionary.empty 0 := congrArg Dictionary.empty bare
      · -- Neither interpreter has this dictionary yet.
        have beyond : (i.machine.store.clear ⟨0⟩).dictionaries.size ≤
            i.machine.store.dictionaries.size + d := by
          simp [Store.clear]
        exact Store.dictionary_of_size_le (d := ⟨_⟩) beyond
    · intro k
      simp [Store.clear, behind, Machine.fresh, Scopes.create, Store.addDictionary, Store.empty]
    · intro k
      simp [Store.clear, behind, Machine.fresh, Scopes.create, Store.addDictionary, Store.empty]
  · have closed : i.reset.machine.scopes = ⟨⟨0⟩, []⟩ := by
      rw [← base]
      rfl
    rw [closed]
    rfl

section RenamedRuns

variable {r : Renaming} {before : String} {i i' : Interpreter}

theorem runSource_renamed (settings : i'.settings = i.settings)
    (renamed : i.machine.Renamed r before i'.machine) (source : String) :
    (i'.runSource source).1 = (i.runSource source).1 ∧
      (i'.runSource source).2.settings = (i.runSource source).2.settings ∧
      (i.runSource source).2.machine.Renamed r before (i'.runSource source).2.machine := by
  cases read : Token.ofSource source with
  | error e =>
      rw [runSource_of_error read, runSource_of_error read]
      exact ⟨rfl, settings, renamed⟩
  | ok tokens =>
      obtain ⟨outcome, after⟩ := renamed.execute i.settings tokens
      rw [runSource_of_ok read, runSource_of_ok read]
      simp only [execute, settings]
      exact ⟨congrArg (Except.mapError RunError.runtime) outcome, trivial, after⟩

theorem runSources_renamed (settings : i'.settings = i.settings)
    (renamed : i.machine.Renamed r before i'.machine) (sources : List String) :
    (i'.runSources sources).settings = (i.runSources sources).settings ∧
      (i.runSources sources).machine.Renamed r before (i'.runSources sources).machine := by
  induction sources generalizing i i' with
  | nil => exact ⟨settings, renamed⟩
  | cons source sources ih =>
      obtain ⟨_, settings, renamed⟩ := runSource_renamed settings renamed source
      exact ih settings renamed

theorem stackListing_renamed (renamed : i.machine.Renamed r before i'.machine) :
    i'.stackListing = i.stackListing := by
  have listings : i'.machine.stack.reverse.map i'.machine.store.listing =
      i.machine.stack.reverse.map i.machine.store.listing := by
    rw [renamed.stack, ← List.map_reverse, List.map_map]
    exact List.map_congr_left fun v _ => renamed.store.listing_eq v
  rw [stackListing, stackListing, listings]

end RenamedRuns

/-- A reset leaves nothing behind. Take any interpreter that has served any calls of a host,
however the runs among them ended, and reset it. Beside a new interpreter with its settings,
whatever sources are run on both, every further source has the same outcome on both and prints the
same text. The stacks, the scopes and the objects are then the same under one renaming of
identities, so the stacks are listed alike. -/
theorem reset_leaves_nothing_behind (settings : Settings) (calls : List HostCall) :
    let i := (create settings).serveAll calls
    ∃ r : Renaming, ∀ (sources : List String) (source : String),
      let renewed := i.reset.runSources sources
      let new := (create i.settings).runSources sources
      let after := (renewed.runSource source).2
      let after' := (new.runSource source).2
      (renewed.runSource source).1 = (new.runSource source).1 ∧
      (∃ text, after.machine.output = renewed.machine.output ++ text ∧
        after'.machine.output = new.machine.output ++ text) ∧
      after.machine.stack = after'.machine.stack.map r.value ∧
      after.stackListing = after'.stackListing ∧
      after.machine.scopes = r.scopes after'.machine.scopes ∧
      (∀ p, after.machine.store.body (r.procedure p) = after'.machine.store.body p) ∧
      ∀ d, after.machine.store.dictionary (r.dictionary d) =
        r.contents (after'.machine.store.dictionary d) := by
  intro i
  have held : i.machine.Secludes ⟨0⟩ := serveAll_secludes Machine.fresh_secludes calls
  have bare : (i.machine.store.dictionary ⟨0⟩).capacity = 0 :=
    serveAll_capacity Machine.fresh_secludes calls
  refine ⟨behind i.machine.store held.stored, ?_⟩
  intro sources source renewed new after after'
  have kept : i.reset.settings = (create i.settings).settings := rfl
  obtain ⟨settings, between⟩ := runSources_renamed kept (renamed_reset held bare) sources
  obtain ⟨outcome, _, renamed⟩ := runSource_renamed settings between source
  obtain ⟨text, printed⟩ := exists_output_runSource new source
  have printed' : after.machine.output = renewed.machine.output ++ text := by
    rw [renamed.output, between.output, String.append_assoc, ← printed]
  exact ⟨outcome, ⟨text, printed', printed⟩, renamed.stack, stackListing_renamed renamed,
    renamed.scopes, renamed.store.body, renamed.store.dictionary⟩

end Interpreter

end Stacklet
