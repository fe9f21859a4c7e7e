import Stacklet.Proofs.OperandUse

set_option autoImplicit false
set_option relaxedAutoImplicit false

/-!
Identities carry no meaning of their own. Two machines whose procedures and dictionaries correspond
under a renaming of identities give answers that correspond: programs can neither see nor compute
an identity, they can only ask whether two are the same.
-/

namespace Stacklet

/-- A way to rename identities that keeps different ones apart. -/
structure Renaming where
  procedure : ProcedureId → ProcedureId
  dictionary : DictionaryId → DictionaryId
  procedure_injective : ∀ {p q : ProcedureId}, procedure p = procedure q → p = q
  dictionary_injective : ∀ {d e : DictionaryId}, dictionary d = dictionary e → d = e

namespace Renaming

variable (r : Renaming)

def value : Value → Value
  | .procedure p => .procedure (r.procedure p)
  | .dictionary d => .dictionary (r.dictionary d)
  | v => v

def entry (e : String × Value) : String × Value := (e.1, r.value e.2)

def contents (d : Dictionary) : Dictionary where
  capacity := d.capacity
  entries := d.entries.map r.entry
  nodup := by
    rw [List.map_map]
    exact d.nodup

def scopes (s : Scopes) : Scopes := ⟨r.dictionary s.base, s.inner.map r.dictionary⟩

def content : (o : Operand) → o.Content → o.Content
  | .any, v => r.value v
  | .number, n => n
  | .integer, n => n
  | .boolean, b => b
  | .procedure, p => r.procedure p
  | .dictionary, d => r.dictionary d

def operands : (os : List Operand) → Operands os → Operands os
  | [], () => ()
  | o :: os, (x, xs) => (r.content o x, operands os xs)

def pair (p : Value × Value) : Value × Value := (r.value p.1, r.value p.2)

def dictionaries (p : DictionaryId × DictionaryId) : DictionaryId × DictionaryId :=
  (r.dictionary p.1, r.dictionary p.2)

def comparison : Comparison → Comparison
  | .settled equal => .settled equal
  | .pending x y => .pending (r.dictionary x) (r.dictionary y)

def change : Change → Change
  | .push values => .push (values.map r.value)
  | .restack stack => .restack (stack.map r.value)
  | .setBody p body => .setBody (r.procedure p) body
  | .bind word v => .bind word (r.value v)
  | .enterScope d => .enterScope (r.dictionary d)
  | c => c

def effect : Effect → Effect
  | .change c => .change (r.change c)
  | .times count p => .times count (r.procedure p)
  | .range first count p => .range first count (r.procedure p)
  | e => e

theorem procedure_eq_iff {p q : ProcedureId} : r.procedure p = r.procedure q ↔ p = q :=
  ⟨r.procedure_injective, congrArg r.procedure⟩

theorem dictionary_eq_iff {d e : DictionaryId} : r.dictionary d = r.dictionary e ↔ d = e :=
  ⟨r.dictionary_injective, congrArg r.dictionary⟩

@[simp] theorem kind_value (v : Value) : (r.value v).kind = v.kind := by
  cases v <;> rfl

@[simp] theorem key?_value (v : Value) : (r.value v).key? = v.key? := by
  cases v <;> rfl

@[simp] theorem size_contents (d : Dictionary) : (r.contents d).size = d.size := by
  simp [Dictionary.size, contents]

@[simp] theorem capacity_contents (d : Dictionary) : (r.contents d).capacity = d.capacity := rfl

@[simp] theorem get?_contents (d : Dictionary) (key : String) :
    (r.contents d).get? key = (d.get? key).map r.value := by
  simp only [Dictionary.get?, contents]
  induction d.entries with
  | nil => rfl
  | cons e rest ih =>
      rw [List.map_cons, List.lookup_cons, List.lookup_cons, ih]
      simp only [entry]
      cases key == e.1 <;> rfl

theorem map_insertEntry (key : String) (v : Value) (entries : List (String × Value)) :
    (insertEntry key v entries).map r.entry =
      insertEntry key (r.value v) (entries.map r.entry) := by
  induction entries with
  | nil => rfl
  | cons e rest ih =>
      simp only [insertEntry, List.map_cons]
      by_cases same : e.1 = key
      · rw [if_pos same, if_pos (show (r.entry e).1 = key from same)]
        rfl
      · rw [if_neg same, if_neg (show (r.entry e).1 ≠ key from same), ← ih]
        rfl

theorem contents_insert (d : Dictionary) (key : String) (v : Value) :
    r.contents (d.insert key v) = (r.contents d).insert key (r.value v) := by
  simp only [contents, Dictionary.insert, map_insertEntry]

theorem dictionaries_mem_iff {x y : DictionaryId} {met : List (DictionaryId × DictionaryId)} :
    (r.dictionary x, r.dictionary y) ∈ met.map r.dictionaries ↔ (x, y) ∈ met := by
  constructor
  · intro member
    obtain ⟨⟨x', y'⟩, known, same⟩ := List.mem_map.mp member
    obtain ⟨first, second⟩ := Prod.mk.inj same
    obtain rfl : x' = x := r.dictionary_injective first
    obtain rfl : y' = y := r.dictionary_injective second
    exact known
  · intro member
    exact List.mem_map_of_mem member

theorem current_scopes (s : Scopes) : (r.scopes s).current = r.dictionary s.current := by
  obtain ⟨base, _ | ⟨d, inner⟩⟩ := s
  · rfl
  · rfl

theorem searched_scopes (s : Scopes) (mode : ScopingMode) :
    (r.scopes s).searched mode = (s.searched mode).map r.dictionary := by
  cases mode <;> simp [Scopes.searched, Scopes.frames, scopes]

theorem read_value (o : Operand) (v : Value) :
    o.read (r.value v) = (o.read v).map (r.content o) := by
  cases o with
  | any => rfl
  | integer => rcases v with (_ | _) | _ | _ | _ | _ | _ <;> rfl
  | number | boolean | procedure | dictionary => cases v <;> rfl

theorem take_map (operator : String) (os : List Operand) (s : Stack) :
    Operands.take operator os (s.map r.value) =
      ((Operands.take operator os s).1.map (r.operands os),
        (Operands.take operator os s).2.map r.value) := by
  induction os generalizing s with
  | nil => rfl
  | cons o os ih =>
      cases s with
      | nil => rfl
      | cons v s =>
          simp only [List.map_cons, Operands.take, read_value, kind_value, ih]
          cases o.read v with
          | error expected => rfl
          | ok x =>
              rcases Operands.take operator os s with ⟨e | xs, rest⟩
              · rfl
              · rfl

theorem exchange_map (s : Stack) :
    Stack.exchange (s.map r.value) = (Stack.exchange s).map (List.map r.value) := by
  rcases s with _ | ⟨v, _ | ⟨w, rest⟩⟩
  · rfl
  · rfl
  · rfl

theorem copy_map (count : Int) (s : Stack) :
    Stack.copy count (s.map r.value) = (Stack.copy count s).map (List.map r.value) := by
  simp only [Stack.copy, List.length_map]
  split
  · rfl
  · split
    · rfl
    · simp [Except.map, List.map_take]

theorem order_value (operator : String) (v w : Value) :
    Operator.order operator (r.value v) (r.value w) = Operator.order operator v w := by
  cases v <;> cases w <;> rfl

end Renaming

/-- Two stores whose objects correspond under a renaming, and whose next objects will. An identity
that is not in use stands for the same empty object in both. -/
structure Store.Renamed (r : Renaming) (s s' : Store) : Prop where
  body : ∀ p, s'.body (r.procedure p) = s.body p
  dictionary : ∀ d, s'.dictionary (r.dictionary d) = r.contents (s.dictionary d)
  nextProcedure : ∀ k, r.procedure ⟨s.procedures.size + k⟩ = ⟨s'.procedures.size + k⟩
  nextDictionary : ∀ k, r.dictionary ⟨s.dictionaries.size + k⟩ = ⟨s'.dictionaries.size + k⟩

namespace Store

theorem body_setBody (s : Store) (p q : ProcedureId) (tokens : List Token) :
    (s.setBody p tokens).body q =
      if q = p ∧ p.index < s.procedures.size then tokens else s.body q := by
  by_cases same : q = p
  · subst same
    by_cases inside : q.index < s.procedures.size
    · rw [if_pos ⟨rfl, inside⟩, body_setBody_self s q tokens inside]
    · rw [if_neg (fun h => inside h.2)]
      simp [setBody, body, Array.getD_eq_getD_getElem?, inside]
  · rw [if_neg (fun h => same h.1), body_setBody_of_ne s tokens same]

theorem dictionary_of_size_le {s : Store} {d : DictionaryId}
    (beyond : s.dictionaries.size ≤ d.index) : s.dictionary d = Dictionary.empty 0 := by
  simp [dictionary, Array.getD_eq_getD_getElem?, beyond]

theorem dictionary_insert (s : Store) (d e : DictionaryId) (key : String) (v : Value) :
    (s.insert d key v).dictionary e =
      if e = d ∧ d.index < s.dictionaries.size then (s.dictionary e).insert key v
      else s.dictionary e := by
  by_cases same : e = d
  · subst same
    by_cases inside : e.index < s.dictionaries.size
    · rw [if_pos ⟨rfl, inside⟩, dictionary_insert_self s e key v inside]
    · rw [if_neg (fun h => inside h.2)]
      simp [insert, dictionary, Array.getD_eq_getD_getElem?, inside]
  · rw [if_neg (fun h => same h.1), dictionary_insert_of_ne s key v same]

theorem body_addProcedure (s : Store) (tokens : List Token) (p : ProcedureId) :
    (s.addProcedure tokens).2.body p = if p = ⟨s.procedures.size⟩ then tokens else s.body p := by
  obtain ⟨index⟩ := p
  simp only [addProcedure, body, Array.getD_eq_getD_getElem?, Array.getElem?_push,
    ProcedureId.mk.injEq]
  split <;> rfl

theorem dictionary_addDictionary (s : Store) (new : Dictionary) (d : DictionaryId) :
    (s.addDictionary new).2.dictionary d =
      if d = ⟨s.dictionaries.size⟩ then new else s.dictionary d := by
  obtain ⟨index⟩ := d
  simp only [addDictionary, dictionary, Array.getD_eq_getD_getElem?, Array.getElem?_push,
    DictionaryId.mk.injEq]
  split <;> rfl

theorem search_of_new {s : Store} {met : List (DictionaryId × DictionaryId)} {v w : Value}
    {x y : DictionaryId} {work : List (Value × Value)} (pending : s.compare v w = .pending x y)
    (new : (x, y) ∉ met) :
    s.search met ((v, w) :: work) =
      match pairs? (s.dictionary x) (s.dictionary y) with
      | none => false
      | some pairs => s.search ((x, y) :: met) (pairs ++ work) := by
  rw [search, pending]
  simp only [if_neg new]
  split <;> rename_i paired
  · rw [paired]
  · rw [paired]

namespace Renamed

variable {r : Renaming} {s s' : Store}

/-- A map that keeps numbers apart and moves all from `size` on by the same amount moves the others
below them. -/
private theorem lt_iff_of_shift {f : Nat → Nat} (apart : ∀ {m n : Nat}, f m = f n → m = n)
    {size size' : Nat} (next : ∀ k, f (size + k) = size' + k) (n : Nat) :
    f n < size' ↔ n < size := by
  rcases Nat.lt_or_ge n size with below | above
  · refine ⟨fun _ => below, fun _ => Nat.not_le.mp fun moved => ?_⟩
    obtain ⟨k, same⟩ := Nat.exists_eq_add_of_le moved
    have reached : n = size + k := apart (same.trans (next k).symm)
    omega
  · obtain ⟨k, rfl⟩ := Nat.exists_eq_add_of_le above
    rw [next]
    omega

theorem procedure_lt_iff (renamed : Renamed r s s') (p : ProcedureId) :
    (r.procedure p).index < s'.procedures.size ↔ p.index < s.procedures.size := by
  refine lt_iff_of_shift (f := fun n => (r.procedure ⟨n⟩).index) ?_ ?_ p.index
  · intro m n same
    exact congrArg ProcedureId.index (r.procedure_injective (congrArg ProcedureId.mk same))
  · intro k
    exact congrArg ProcedureId.index (renamed.nextProcedure k)

theorem dictionary_lt_iff (renamed : Renamed r s s') (d : DictionaryId) :
    (r.dictionary d).index < s'.dictionaries.size ↔ d.index < s.dictionaries.size := by
  refine lt_iff_of_shift (f := fun n => (r.dictionary ⟨n⟩).index) ?_ ?_ d.index
  · intro m n same
    exact congrArg DictionaryId.index (r.dictionary_injective (congrArg DictionaryId.mk same))
  · intro k
    exact congrArg DictionaryId.index (renamed.nextDictionary k)

theorem addProcedure (renamed : Renamed r s s') (tokens : List Token) :
    r.procedure (s.addProcedure tokens).1 = (s'.addProcedure tokens).1 ∧
      Renamed r (s.addProcedure tokens).2 (s'.addProcedure tokens).2 := by
  have new : r.procedure ⟨s.procedures.size⟩ = ⟨s'.procedures.size⟩ := renamed.nextProcedure 0
  refine ⟨new, ⟨?_, renamed.dictionary, ?_, renamed.nextDictionary⟩⟩
  · intro p
    simp only [body_addProcedure, renamed.body, ← new, r.procedure_eq_iff]
  · intro k
    have next := renamed.nextProcedure (k + 1)
    simpa [Store.addProcedure, Nat.add_assoc, Nat.add_comm 1 k] using next

theorem addDictionary (renamed : Renamed r s s') (new : Dictionary) :
    r.dictionary (s.addDictionary new).1 = (s'.addDictionary (r.contents new)).1 ∧
      Renamed r (s.addDictionary new).2 (s'.addDictionary (r.contents new)).2 := by
  have place : r.dictionary ⟨s.dictionaries.size⟩ = ⟨s'.dictionaries.size⟩ :=
    renamed.nextDictionary 0
  refine ⟨place, ⟨renamed.body, ?_, renamed.nextProcedure, ?_⟩⟩
  · intro d
    simp only [dictionary_addDictionary, renamed.dictionary, ← place, r.dictionary_eq_iff]
    split <;> rfl
  · intro k
    have next := renamed.nextDictionary (k + 1)
    simpa [Store.addDictionary, Nat.add_assoc, Nat.add_comm 1 k] using next

theorem setBody (renamed : Renamed r s s') (p : ProcedureId) (tokens : List Token) :
    Renamed r (s.setBody p tokens) (s'.setBody (r.procedure p) tokens) where
  body := by
    intro q
    simp only [body_setBody, renamed.body, renamed.procedure_lt_iff, r.procedure_eq_iff]
  dictionary := renamed.dictionary
  nextProcedure := by simpa [Store.setBody] using renamed.nextProcedure
  nextDictionary := renamed.nextDictionary

theorem insert (renamed : Renamed r s s') (d : DictionaryId) (key : String) (v : Value) :
    Renamed r (s.insert d key v) (s'.insert (r.dictionary d) key (r.value v)) where
  body := renamed.body
  dictionary := by
    intro e
    simp only [dictionary_insert, renamed.dictionary, renamed.dictionary_lt_iff,
      r.dictionary_eq_iff]
    split
    · rw [r.contents_insert]
    · rfl
  nextProcedure := renamed.nextProcedure
  nextDictionary := by simpa [Store.insert] using renamed.nextDictionary

section Equality

theorem compare_eq (renamed : Renamed r s s') (v w : Value) :
    s'.compare (r.value v) (r.value w) = r.comparison (s.compare v w) := by
  cases v <;> cases w <;> try rfl
  case procedure.procedure p q =>
    simp only [Renaming.value, Store.compare, renamed.body, Renaming.comparison]
    congr 2
    exact decide_eq_decide.mpr r.procedure_eq_iff
  case dictionary.dictionary x y =>
    simp only [Renaming.value, Store.compare, r.dictionary_eq_iff]
    split <;> rfl

theorem pairEntries?_eq (y : Dictionary) (entries : List (String × Value)) :
    pairEntries? (r.contents y) (entries.map r.entry) =
      (pairEntries? y entries).map (List.map r.pair) := by
  induction entries with
  | nil => rfl
  | cons e rest ih =>
      simp only [List.map_cons, pairEntries?, Renaming.entry, r.get?_contents, ih]
      cases y.get? e.1 with
      | none => rfl
      | some w =>
          cases pairEntries? y rest <;> rfl

theorem pairs?_eq (x y : Dictionary) :
    pairs? (r.contents x) (r.contents y) = (pairs? x y).map (List.map r.pair) := by
  simp only [pairs?, r.size_contents]
  split
  · exact pairEntries?_eq y x.entries
  · rfl

/-- The search for a difference takes the same course: it asks of identities only whether a pair
of them has been met. -/
theorem search_eq (renamed : Renamed r s s') (met : List (DictionaryId × DictionaryId))
    (work : List (Value × Value)) :
    s'.search (met.map r.dictionaries) (work.map r.pair) = s.search met work := by
  induction met, work using Store.search.induct s with
  | case1 met => simp [search]
  | case2 met v w work differs =>
      rw [List.map_cons, Renaming.pair, search, search, renamed.compare_eq, differs]
      rfl
  | case3 met v w work equal ih =>
      rw [List.map_cons, Renaming.pair, search, search, renamed.compare_eq, equal]
      exact ih
  | case4 met v w work x y pending known ih =>
      rw [List.map_cons, Renaming.pair, search, search, renamed.compare_eq, pending]
      simp only [Renaming.comparison]
      rw [if_pos known, if_pos (r.dictionaries_mem_iff.mpr known)]
      exact ih
  | case5 met v w work x y pending new differ =>
      have pending' := renamed.compare_eq v w
      rw [pending] at pending'
      have differ' : pairs? (s'.dictionary (r.dictionary x)) (s'.dictionary (r.dictionary y)) =
          none := by
        rw [renamed.dictionary, renamed.dictionary, pairs?_eq, differ]
        rfl
      rw [search_of_new pending new, List.map_cons, Renaming.pair,
        search_of_new pending' (mt r.dictionaries_mem_iff.mp new), differ, differ']
  | case6 met v w work x y pending new pairs paired ih =>
      have pending' := renamed.compare_eq v w
      rw [pending] at pending'
      have paired' : pairs? (s'.dictionary (r.dictionary x)) (s'.dictionary (r.dictionary y)) =
          some (pairs.map r.pair) := by
        rw [renamed.dictionary, renamed.dictionary, pairs?_eq, paired]
        rfl
      rw [search_of_new pending new, List.map_cons, Renaming.pair,
        search_of_new pending' (mt r.dictionaries_mem_iff.mp new), paired, paired']
      rw [List.map_append] at ih
      exact ih

theorem same_eq (renamed : Renamed r s s') (v w : Value) :
    s'.same (r.value v) (r.value w) = s.same v w := by
  unfold same
  rw [renamed.compare_eq]
  cases s.compare v w with
  | settled equal => rfl
  | pending x y => exact renamed.search_eq [] [(v, w)]

end Equality

end Renamed

end Store

end Stacklet
