import Stacklet.Interpreter
import Stacklet.Proofs.RunInvariant
import Stacklet.Proofs.SharedObjects

set_option autoImplicit false
set_option relaxedAutoImplicit false

/-!
The base dictionary belongs to the scopes alone. Programs get hold of dictionaries only as values,
and the base is never one: it is not made by an operator, and leaving a scope gives nothing back.
So only definitions on the base itself change it, and lookups in it do not depend on the scopes
above.
-/

namespace Stacklet

inductive HostCall where
  | run (source : String)
  | setMode (mode : ScopingMode)
  | clearStack
  | reset

namespace Interpreter

def serve (i : Interpreter) : HostCall → Interpreter
  | .run source => (i.runSource source).2
  | .setMode mode => i.setMode mode
  | .clearStack => i.clearStack
  | .reset => i.reset

def serveAll (i : Interpreter) (calls : List HostCall) : Interpreter := calls.foldl serve i

end Interpreter

/-- Whether a dictionary is the base of the scopes and nothing else: no other scope, and no value on
the stack or in a dictionary. -/
structure Machine.Secludes (m : Machine) (d : DictionaryId) : Prop where
  base : m.scopes.frames.getLast? = some d
  frame : d ∉ m.scopes.frames.dropLast
  stack : .dictionary d ∉ m.stack
  entry : ∀ e, .dictionary d ∉ (m.store.dictionary e).values
  stored : d.index < m.store.dictionaries.size

namespace Scopes

@[simp] theorem getLast?_frames (scopes : Scopes) : scopes.frames.getLast? = some scopes.base :=
  List.getLast?_concat

@[simp] theorem dropLast_frames (scopes : Scopes) : scopes.frames.dropLast = scopes.inner :=
  List.dropLast_concat

theorem current_eq_base_iff {scopes : Scopes} (apart : scopes.base ∉ scopes.inner) :
    scopes.current = scopes.base ↔ scopes.depth = 1 := by
  obtain ⟨base, inner⟩ := scopes
  cases inner with
  | nil => simp [current, depth]
  | cons d outer =>
      have other : d ≠ base := fun same => apart (by simp [same])
      simp [current, depth, other]

theorem find?_lexical (scopes : Scopes) (s : Store) (word : String) :
    scopes.find? s .lexical word = (s.dictionary scopes.base).get? (Token.stripSign word) := by
  simp [find?, searched]

theorem lookup_lexical_eq {scopes scopes' : Scopes} {s s' : Store}
    (base : scopes'.base = scopes.base)
    (same : s'.dictionary scopes.base = s.dictionary scopes.base) (word : String) :
    scopes'.lookup s' .lexical word = scopes.lookup s .lexical word := by
  simp only [lookup, find?_lexical, base, same]

end Scopes

private theorem mem_insertEntry {key : String} {v : Value} {entries : List (String × Value)}
    {entry : String × Value} (member : entry ∈ insertEntry key v entries) :
    entry = (key, v) ∨ entry ∈ entries := by
  induction entries with
  | nil => simpa [insertEntry] using member
  | cons first rest ih =>
      unfold insertEntry at member
      split at member
      · exact (List.mem_cons.mp member).imp_right (List.mem_cons_of_mem first)
      · rcases List.mem_cons.mp member with same | later
        · exact .inr (by simp [same])
        · exact (ih later).imp_right (List.mem_cons_of_mem first)

theorem Dictionary.mem_values_insert {d : Dictionary} {key : String} {v w : Value}
    (member : w ∈ (d.insert key v).values) : w = v ∨ w ∈ d.values := by
  obtain ⟨entry, inserted, rfl⟩ := List.mem_map.mp member
  rcases mem_insertEntry inserted with rfl | old
  · exact .inl rfl
  · exact .inr (List.mem_map.mpr ⟨entry, old, rfl⟩)

namespace Store

theorem dictionary_modify (s : Store) (d e : DictionaryId) (f : Dictionary → Dictionary) :
    ({ s with dictionaries := s.dictionaries.modify d.index f } : Store).dictionary e =
        s.dictionary e ∨
      ({ s with dictionaries := s.dictionaries.modify d.index f } : Store).dictionary e =
        f (s.dictionary e) := by
  simp only [dictionary, Array.getD_eq_getD_getElem?, Array.getElem?_modify]
  split
  · cases s.dictionaries[e.index]? with
    | none => exact .inl rfl
    | some old => exact .inr rfl
  · exact .inl rfl

theorem mem_values_insert {s : Store} {d e : DictionaryId} {word : String} {v w : Value}
    (member : w ∈ ((s.insert d word v).dictionary e).values) :
    w = v ∨ w ∈ (s.dictionary e).values := by
  rcases s.dictionary_modify d e (·.insert word v) with same | inserted
  · exact .inr (same ▸ member)
  · exact Dictionary.mem_values_insert (inserted ▸ member)

theorem mem_values_clear {s : Store} {d e : DictionaryId} {v : Value}
    (member : v ∈ ((s.clear d).dictionary e).values) : v ∈ (s.dictionary e).values := by
  rcases s.dictionary_modify d e Dictionary.clear with same | cleared
  · exact same ▸ member
  · simp [clear, cleared, Dictionary.clear, Dictionary.values, Dictionary.empty] at member

theorem mem_values_addDictionary {s : Store} {capacity : Nat} {e : DictionaryId} {v : Value}
    (member : v ∈ ((s.addDictionary (Dictionary.empty capacity)).2.dictionary e).values) :
    v ∈ (s.dictionary e).values := by
  simp only [addDictionary, dictionary, Array.getD_eq_getD_getElem?, Array.getElem?_push] at member
  split at member
  · simp [Dictionary.values, Dictionary.empty] at member
  · simpa [dictionary, Array.getD_eq_getD_getElem?] using member

end Store

namespace Machine

variable {m m' : Machine} {d : DictionaryId}

theorem Secludes.of_carries (held : m.Secludes d) (base : m'.scopes.base = m.scopes.base)
    (frame : d ∈ m'.scopes.inner → d ∈ m.scopes.inner ∨ m.Carries d)
    (value : m'.Carries d → m.Carries d)
    (grown : m.store.dictionaries.size ≤ m'.store.dictionaries.size) : m'.Secludes d := by
  have apart : ¬ m.Carries d := by
    rintro (onStack | ⟨e, inside⟩)
    · exact held.stack onStack
    · exact held.entry e inside
  have outside : d ∉ m.scopes.inner := by simpa using held.frame
  refine ⟨?_, ?_, ?_, ?_, Nat.lt_of_lt_of_le held.stored grown⟩
  · rw [Scopes.getLast?_frames, base, ← Scopes.getLast?_frames]
    exact held.base
  · rw [Scopes.dropLast_frames]
    exact fun entered => (frame entered).elim outside apart
  · exact fun onStack => apart (value (.inl onStack))
  · exact fun e inside => apart (value (.inr ⟨e, inside⟩))

private theorem mem_stack_of_binding? {t : Token} {word : String} {v : Value}
    (binding : (⟨t, m⟩ : Moment).binding? = some (word, v)) : v ∈ m.stack := by
  simp only [Moment.binding?] at binding
  split at binding
  · rename_i shape
    cases binding
    simp [shape]
  · rename_i shape
    split at binding
    · obtain ⟨_, _, pair⟩ := Option.map_eq_some_iff.mp binding
      cases pair
      simp [shape]
    · cases binding
  · cases binding

/-- The step lemma: a dictionary that is a value after a change was one before or has been made by
the change. -/
theorem carries_of_apply {t : Token} {c : Change} {left : Stack}
    (kept : left <:+ m.stack) (fits : c.Fits ⟨t, m⟩)
    (carried : (({ m with stack := left } : Machine).apply c).Carries d) :
    m.Carries d ∨ d.index = m.store.dictionaries.size ∧
      d.index < (({ m with stack := left } : Machine).apply c).store.dictionaries.size := by
  have below : .dictionary d ∈ left → m.Carries d := fun member => .inl (kept.subset member)
  rcases carried with onStack | ⟨e, inside⟩
  · cases c with
    | push values => exact .inl ((List.mem_append.mp onStack).elim (fits d) below)
    | restack stack => exact .inl (fits d onStack)
    | makeProcedure body => exact .inl (below (by simpa [apply] using onStack))
    | makeDictionary capacity =>
        rcases List.mem_cons.mp onStack with new | old
        · have index : d.index = m.store.dictionaries.size :=
            congrArg DictionaryId.index (Value.dictionary.inj new)
          exact .inr ⟨index, by simp [apply, Store.addDictionary, index]⟩
        · exact .inl (below old)
    | setBody p body => exact .inl (below (by simpa [apply] using onStack))
    | _ => exact .inl (below onStack)
  · refine .inl ?_
    cases c with
    | makeDictionary capacity => exact .inr ⟨e, Store.mem_values_addDictionary inside⟩
    | bind word v =>
        rcases Store.mem_values_insert inside with new | old
        · exact .inl (new ▸ mem_stack_of_binding? fits)
        · exact .inr ⟨e, old⟩
    | _ => exact .inr ⟨e, inside⟩

theorem size_dictionaries_le_apply (m : Machine) (c : Change) :
    m.store.dictionaries.size ≤ (m.apply c).store.dictionaries.size := by
  cases c with
  | makeDictionary capacity => simp [apply, Store.addDictionary]
  | bind word v => simp [apply, Scopes.define, Store.insert]
  | _ => exact Nat.le_refl _

theorem mem_inner_of_apply {t : Token} {c : Change} {left : Stack} (fits : c.Fits ⟨t, m⟩)
    (entered : d ∈ (({ m with stack := left } : Machine).apply c).scopes.inner) :
    d ∈ m.scopes.inner ∨ m.Carries d := by
  cases c with
  | enterScope e =>
      rcases List.mem_cons.mp entered with rfl | outer
      · exact .inr fits
      · exact .inl outer
  | leaveScope => exact .inl (List.mem_of_mem_tail entered)
  | _ => exact .inl entered

@[simp] theorem base_apply (m : Machine) (c : Change) :
    (m.apply c).scopes.base = m.scopes.base := by
  cases c <;> rfl

private theorem secludes_apply {t : Token} {c : Change} {left : Stack} (held : m.Secludes d)
    (kept : left <:+ m.stack) (fits : c.Fits ⟨t, m⟩) :
    (({ m with stack := left } : Machine).apply c).Secludes d := by
  refine held.of_carries (base_apply _ c) (mem_inner_of_apply fits) ?_
    (size_dictionaries_le_apply { m with stack := left } c)
  intro carried
  refine (carries_of_apply kept fits carried).resolve_right ?_
  rintro ⟨new, _⟩
  exact Nat.ne_of_lt held.stored new

private def seclusion (mode : ScopingMode) (d : DictionaryId) : Invariant mode where
  holds := fun m => m.Secludes d
  code := fun _ => True
  stored := fun _ _ _ _ => trivial
  inline := fun _ _ _ => trivial
  push_int := by
    intro m n held
    refine held.of_carries rfl .inl ?_ (Nat.le_refl _)
    rintro (onStack | inside)
    · exact .inl (by simpa [push] using onStack)
    · exact .inr inside
  set_depth := fun _ held => held.of_carries rfl .inl id (Nat.le_refl _)
  operands := by
    intro m t answer left held _ resolved
    have kept : left <:+ m.stack := by simpa [resolved] using m.resolve_suffix mode t
    refine held.of_carries rfl .inl ?_ (Nat.le_refl _)
    exact Or.imp_left fun onStack => kept.subset onStack
  change := by
    intro m t c left held _ resolved
    have kept : left <:+ m.stack := by simpa [resolved] using m.resolve_suffix mode t
    exact secludes_apply held kept (resolve_fits resolved)

theorem secludes_of_evaluates {settings : Settings} {tokens : List Token} {trace : List Moment}
    {result : Outcome × Machine} (held : m.Secludes d)
    (evaluation : Evaluates settings (.execute tokens) m trace result) :
    (∀ moment ∈ trace, moment.state.Secludes d) ∧ result.2.Secludes d :=
  (seclusion settings.mode d).throughout_of_evaluates evaluation (fun _ _ => trivial) held

theorem base_eq_of_secludes (held : m.Secludes d) : m.scopes.base = d := by
  simpa using held.base

theorem fresh_secludes : fresh.Secludes fresh.scopes.base where
  base := rfl
  frame := by simp [fresh, Scopes.create]
  stack := by simp [fresh, Scopes.create]
  entry := by
    intro e member
    have inside := Store.mem_values_addDictionary (s := Store.empty) member
    simp [Store.dictionary, Store.empty, Dictionary.values, Dictionary.empty] at inside
  stored := by simp [fresh, Scopes.create, Store.addDictionary]

end Machine

@[simp] theorem Moment.base_after (mode : ScopingMode) (moment : Moment) :
    (moment.after mode).scopes.base = moment.state.scopes.base := by
  unfold after
  split
  · exact Machine.base_apply _ _
  · rfl

theorem Moment.depth_of_dictionary_after_ne {mode : ScopingMode} {moment : Moment}
    {d : DictionaryId} (held : moment.state.Secludes d)
    (changed : (moment.after mode).store.dictionary d ≠ moment.state.store.dictionary d) :
    moment.state.scopes.depth = 1 ∧ moment.binding? ≠ none := by
  obtain ⟨_, member, innermost, binds⟩ :=
    (moment.evolves_after mode).exists_definition held.stored changed
  cases List.mem_singleton.mp member
  have base := Machine.base_eq_of_secludes held
  have apart : moment.state.scopes.base ∉ moment.state.scopes.inner := by
    simpa [base] using held.frame
  exact ⟨(Scopes.current_eq_base_iff apart).mp (innermost.trans base.symm), binds⟩

namespace Interpreter

private theorem serve_secludes {i : Interpreter} {d : DictionaryId} (held : i.machine.Secludes d)
    (call : HostCall) : (i.serve call).machine.Secludes d := by
  cases call with
  | run source =>
      simp only [serve]
      cases read : Token.ofSource source with
      | error e =>
          rw [runSource_of_error read]
          exact held
      | ok tokens =>
          rw [runSource_of_ok read]
          obtain ⟨_, evaluation⟩ := exists_evaluates_execute i.settings tokens i.machine
          exact (Machine.secludes_of_evaluates held evaluation).2
  | setMode mode => exact held
  | clearStack =>
      refine held.of_carries rfl .inl ?_ (Nat.le_refl _)
      rintro (onStack | inside)
      · cases onStack
      · exact .inr inside
  | reset =>
      refine held.of_carries rfl nofun ?_ (by simp [serve, reset, Scopes.reset, Store.clear])
      rintro (onStack | ⟨e, inside⟩)
      · cases onStack
      · exact .inr ⟨e, Store.mem_values_clear inside⟩

theorem serveAll_secludes {i : Interpreter} {d : DictionaryId}
    (held : i.machine.Secludes d) (calls : List HostCall) :
    (i.serveAll calls).machine.Secludes d := by
  induction calls generalizing i with
  | nil => exact held
  | cons call calls ih => exact ih (serve_secludes held call)

/-- The base dictionary is permanent and belongs to the scopes alone. After any calls of a host it
is the base dictionary that was made with the interpreter, and it is no other scope and no value
on the stack or in a dictionary; the same holds at every moment of any run from there. From one
moment to the next it changes only by a definition made with no scope above it, so what is done
under another scope changes the result of no lookup in the lexical mode. -/
theorem base_secluded (settings : Settings) (calls : List HostCall) :
    let i := (create settings).serveAll calls
    let base := (create settings).machine.scopes.base
    i.machine.Secludes base ∧
      ∀ tokens, ∃ trace,
        let last := (i.machine.execute i.settings tokens).2
        (∀ trace' result, Evaluates i.settings (.execute tokens) i.machine trace' result ↔
          trace' = trace ∧ result = i.machine.execute i.settings tokens) ∧
        (∀ moment ∈ trace, moment.state.Secludes base) ∧
        (Moment.upcoming trace last).store.dictionary base = i.machine.store.dictionary base ∧
        ∀ before moment rest, trace = before ++ moment :: rest →
          let next := Moment.upcoming rest last
          (next.store.dictionary base ≠ moment.state.store.dictionary base →
            moment.state.scopes.depth = 1 ∧ moment.binding? ≠ none) ∧
          (1 < moment.state.scopes.depth → ∀ word,
            next.scopes.lookup next.store .lexical word =
              moment.state.scopes.lookup moment.state.store .lexical word) := by
  intro i base
  have held : i.machine.Secludes base := serveAll_secludes Machine.fresh_secludes calls
  refine ⟨held, fun tokens => ?_⟩
  obtain ⟨trace, record⟩ := exists_record i.settings tokens i.machine
  have evaluation := (record trace (i.machine.execute i.settings tokens)).mpr ⟨rfl, rfl⟩
  have course := evaluation.course
  have throughout := (Machine.secludes_of_evaluates held evaluation).1
  refine ⟨trace, record, throughout, by rw [course.upcoming.1], ?_⟩
  intro before moment rest split next
  have secluded : moment.state.Secludes base := throughout moment (by simp [split])
  obtain ⟨store, scopes⟩ := (course.course_after split).upcoming
  have store : next.store = (moment.after i.settings.mode).store := store
  have scopes : next.scopes = (moment.after i.settings.mode).scopes := scopes
  rw [store, scopes]
  refine ⟨Moment.depth_of_dictionary_after_ne secluded, fun deep word => ?_⟩
  -- The lookup reads the base alone, and the base changes on the base alone.
  refine Scopes.lookup_lexical_eq (moment.base_after _) ?_ word
  rw [Machine.base_eq_of_secludes secluded]
  apply Classical.byContradiction
  intro changed
  have shallow := (Moment.depth_of_dictionary_after_ne secluded changed).1
  omega

/-- A session that leaves a second scope open: a name is bound again there, and a lookup in the
lexical mode still finds the first value. -/
theorem base_secluded_shadowed :
    let i := (create ⟨.dynamic, 5⟩).serveAll
      [.run "5 /x 1 dict begin", .clearStack, .setMode .lexical]
    let last := (i.machine.execute i.settings [.number (.int 6), .define "x"]).2
    i.machine.Secludes (create ⟨.dynamic, 5⟩).machine.scopes.base ∧
      last.scopes.lookup last.store .dynamic "x" = .ok (.int 6) ∧
      last.scopes.lookup last.store .lexical "x" = .ok (.int 5) :=
  ⟨(base_secluded ⟨.dynamic, 5⟩ [.run "5 /x 1 dict begin", .clearStack, .setMode .lexical]).1,
    by rfl, by rfl⟩

end Interpreter

end Stacklet
