import Stacklet.Proofs.OperandUse
import Stacklet.Proofs.SharedObjects

set_option autoImplicit false
set_option relaxedAutoImplicit false

/-!
Reading and overwriting a part of a sequence. The bounds are those of the list of its elements, and
on these the two are inverse to each other. A text and a procedure differ in where the result is:
what is read of a procedure is a new object, and one that is overwritten stays the object that it
is, also when it is overwritten by itself.
-/

namespace Stacklet

namespace Interval

variable {α β : Type} {start count : Int} {xs part : List α}

structure IsPart (start count : Int) (xs part : List α) : Prop where
  length : (part.length : Int) = count
  elements : ∀ j, j < part.length → part[j]? = xs[start.toNat + j]?

/-- Whether a list is another one with `part` in it from `start` on, and elsewhere the same. -/
structure IsOverwritten (start : Int) (part xs result : List α) : Prop where
  length : result.length = xs.length
  inside : ∀ j, j < part.length → result[start.toNat + j]? = part[j]?
  outside : ∀ j : Nat, (j : Int) < start ∨ start + part.length ≤ j → result[j]? = xs[j]?

theorem read?_eq_some_iff :
    read? start count xs = some part ↔
      ∃ before after, xs = before ++ part ++ after ∧ (before.length : Int) = start ∧
        (part.length : Int) = count := by
  unfold read?
  constructor
  · intro found
    split at found
    · cases found
      refine ⟨xs.take start.toNat, (xs.drop start.toNat).drop count.toNat, ?_, ?_, ?_⟩
      · rw [List.append_assoc, List.take_append_drop, List.take_append_drop]
      · rw [List.length_take]
        omega
      · rw [List.length_take, List.length_drop]
        omega
    · cases found
  · rintro ⟨before, after, rfl, rfl, rfl⟩
    simp only [List.length_append]
    rw [if_pos ⟨by omega, by omega, by omega⟩, List.append_assoc, Int.toNat_natCast,
      Int.toNat_natCast, List.drop_left, List.take_left]

theorem write?_eq_some_iff {result : List α} :
    write? start part xs = some result ↔
      ∃ before old after, xs = before ++ old ++ after ∧ result = before ++ part ++ after ∧
        (before.length : Int) = start ∧ old.length = part.length := by
  unfold write?
  constructor
  · intro written
    split at written
    · cases written
      refine ⟨xs.take start.toNat, (xs.drop start.toNat).take part.length,
        (xs.drop start.toNat).drop part.length, ?_, ?_, ?_, ?_⟩
      · rw [List.append_assoc, List.take_append_drop, List.take_append_drop]
      · rw [List.drop_drop]
      · rw [List.length_take]
        omega
      · rw [List.length_take, List.length_drop]
        omega
    · cases written
  · rintro ⟨before, old, after, rfl, rfl, rfl, length⟩
    simp only [List.length_append]
    rw [if_pos ⟨by omega, by omega⟩, Int.toNat_natCast, ← length, ← List.length_append,
      List.drop_left, List.append_assoc before old, List.take_left]

theorem exists_read?_iff :
    (∃ part, read? start count xs = some part) ↔
      0 ≤ start ∧ 0 ≤ count ∧ start + count ≤ xs.length := by
  simp [read?]

theorem exists_write?_iff :
    (∃ result, write? start part xs = some result) ↔
      0 ≤ start ∧ start + part.length ≤ xs.length := by
  simp [write?]

theorem getElem?_middle (before middle after : List α) {j : Nat} (within : j < middle.length) :
    (before ++ middle ++ after)[before.length + j]? = middle[j]? := by
  rw [List.append_assoc, List.getElem?_append_right (Nat.le_add_right _ _),
    Nat.add_sub_cancel_left, List.getElem?_append_left within]

theorem isPart_of_read? (found : read? start count xs = some part) :
    IsPart start count xs part := by
  obtain ⟨before, after, rfl, rfl, counted⟩ := read?_eq_some_iff.mp found
  refine ⟨counted, ?_⟩
  intro j within
  rw [Int.toNat_natCast, getElem?_middle before part after within]

theorem isOverwritten_of_write? {result : List α} (written : write? start part xs = some result) :
    IsOverwritten start part xs result := by
  obtain ⟨before, old, after, rfl, rfl, rfl, length⟩ := write?_eq_some_iff.mp written
  refine ⟨?_, ?_, ?_⟩
  · simp only [List.length_append, length]
  · intro j within
    rw [Int.toNat_natCast, getElem?_middle before part after within]
  · rintro j (left | right)
    · have within : j < before.length := by omega
      simp only [List.append_assoc, List.getElem?_append_left within]
    · have lengths : (before ++ part).length = (before ++ old).length := by
        simp only [List.length_append, length]
      have beyond : (before ++ part).length ≤ j := by
        rw [List.length_append]
        omega
      rw [List.getElem?_append_right beyond, List.getElem?_append_right (lengths ▸ beyond), lengths]

theorem read?_of_write? {result : List α} (written : write? start part xs = some result) :
    read? start part.length result = some part := by
  obtain ⟨before, old, after, _, rfl, begins, _⟩ := write?_eq_some_iff.mp written
  exact read?_eq_some_iff.mpr ⟨before, after, rfl, begins, rfl⟩

theorem write?_of_read? (found : read? start count xs = some part) :
    write? start part xs = some xs := by
  obtain ⟨before, after, split, begins, _⟩ := read?_eq_some_iff.mp found
  exact write?_eq_some_iff.mpr ⟨before, part, after, split, split, begins, rfl⟩

theorem element?_map_singleton (i : Int) (xs : List α) :
    (element? i xs).map (fun x => [x]) = read? i 1 xs := by
  unfold element? read?
  by_cases low : 0 ≤ i
  · rw [if_pos low]
    by_cases high : i.toNat < xs.length
    · rw [if_pos ⟨low, by omega, by omega⟩, List.getElem?_eq_getElem high,
        List.drop_eq_getElem_cons high]
      rfl
    · rw [if_neg (by omega), List.getElem?_eq_none (by omega)]
      rfl
  · rw [if_neg low, if_neg (by omega)]
    rfl

theorem read?_map (f : α → β) (start count : Int) (xs : List α) :
    read? start count (xs.map f) = (read? start count xs).map (List.map f) := by
  unfold read?
  rw [List.length_map]
  split
  · simp only [Option.map_some, List.map_take, List.map_drop]
  · rfl

theorem write?_map (f : α → β) (start : Int) (part xs : List α) :
    write? start (part.map f) (xs.map f) = (write? start part xs).map (List.map f) := by
  unfold write?
  rw [List.length_map, List.length_map]
  split
  · simp only [Option.map_some, List.map_append, List.map_take, List.map_drop]
  · rfl

section Words

/-!
The bounds of an interval are computed in machine words. No sum of two words that are not negative
comes round, so these are the bounds of the exact integers.
-/

theorem toNat_toUInt64 {n : Int64} (nonnegative : 0 ≤ n.toInt) :
    n.toUInt64.toNat = n.toInt.toNat := by
  have word : 0 ≤ n := Int64.le_iff_toInt_le.mpr nonnegative
  rw [Int64.toNat_toUInt64_of_le word, Int64.toNat_toInt]

theorem natural?_eq (n : Int64) :
    natural? n = if 0 ≤ n.toInt then some n.toUInt64 else none := by
  have sign : n < 0 ↔ n.toInt < 0 := Int64.lt_iff_toInt_lt
  unfold natural?
  by_cases nonnegative : 0 ≤ n.toInt
  · rw [if_pos nonnegative, if_neg (by rw [sign]; omega)]
  · rw [if_neg nonnegative, if_pos (by rw [sign]; omega)]

theorem exists_checkedAdd? {a b : Int64} (left : 0 ≤ a.toInt) (right : 0 ≤ b.toInt) :
    ∃ c, checkedAdd? a.toUInt64 b.toUInt64 = some c ∧ c.toNat = (a.toInt + b.toInt).toNat := by
  have sum : (a.toUInt64 + b.toUInt64).toNat = (a.toInt + b.toInt).toNat := by
    have low := a.toInt_lt
    have high := b.toInt_lt
    rw [UInt64.toNat_add, toNat_toUInt64 left, toNat_toUInt64 right]
    omega
  refine ⟨a.toUInt64 + b.toUInt64, if_neg ?_, sum⟩
  rw [UInt64.lt_iff_toNat_lt, sum, toNat_toUInt64 left]
  omega

/-- The check in words is the one in exact integers. -/
theorem bounds?_eq (start count : Int64) (length : Nat) :
    bounds? start count length =
      if 0 ≤ start.toInt ∧ 0 ≤ count.toInt ∧ start.toInt + count.toInt ≤ length then
        some (start.toInt.toNat, (start.toInt + count.toInt).toNat)
      else none := by
  unfold bounds?
  rw [natural?_eq start, natural?_eq count]
  by_cases left : 0 ≤ start.toInt
  · by_cases right : 0 ≤ count.toInt
    · obtain ⟨last, added, value⟩ := exists_checkedAdd? left right
      rw [if_pos left, if_pos right]
      simp only [Option.bind_eq_bind, Option.bind_some, added, value, toNat_toUInt64 left, left,
        right, true_and, Int.toNat_le]
    · simp [left, right]
  · simp [left]

theorem read?_eq_map_bounds? (start count : Int64) (xs : List α) :
    read? start.toInt count.toInt xs =
      (bounds? start count xs.length).map fun (first, last) => xs.extract first last := by
  rw [bounds?_eq, read?]
  split
  · rename_i inside
    have size : (start.toInt + count.toInt).toNat - start.toInt.toNat = count.toInt.toNat := by
      omega
    simp only [Option.map_some, List.extract, size]
  · rfl

theorem write?_eq_map_bounds? (start : Int64) {part : List α}
    (short : (part.length : Int) ≤ Int64.maxValue.toInt) (xs : List α) :
    write? start.toInt part xs =
      (bounds? start (Int64.ofNat part.length) xs.length).map
        fun (first, last) => splice first last part xs := by
  have length : (Int64.ofNat part.length).toInt = part.length := by
    rw [Int64.toInt_maxValue] at short
    exact Int64.toInt_ofNat_of_lt (by omega)
  rw [bounds?_eq, write?, length]
  simp only [Int.natCast_nonneg, true_and]
  split
  · rename_i inside
    have size : (start.toInt + part.length).toNat = start.toInt.toNat + part.length := by
      omega
    simp only [Option.map_some, splice, size]
  · rfl

end Words

end Interval

inductive Element where
  | char (c : Char)
  | token (t : Token)

namespace Store

def elements? (s : Store) : Value → Option (List Element)
  | .text t => some (t.toList.map .char)
  | .procedure p => some ((s.body p).map .token)
  | _ => none

def getElement (s : Store) (operator : String) (index : Int) (v : Value) :
    Except RuntimeError (Value × Store) :=
  (s.element operator index v).map s.realize

def getInterval (s : Store) (operator : String) (start count : Int) (v : Value) :
    Except RuntimeError (Value × Store) :=
  (s.interval operator start count v).map s.realize

def putInterval (s : Store) (operator : String) (start : Int) (v part : Value) :
    Except RuntimeError (Value × Store) :=
  (s.overwrite operator start v part).map s.revise

/-- What a copy is like that is made of some elements of `v`: a value of the same kind, if it is a
procedure a new object, and all objects that there were are as they were. -/
structure Copied (s : Store) (v : Value) (part : List Element) (u : Value) (s' : Store) :
    Prop where
  elements : s'.elements? u = some part
  kind : u.kind = v.kind
  new : ∀ q, u = .procedure q → s.procedures.size ≤ q.index
  procedures : ∀ q : ProcedureId, q.index < s.procedures.size → s'.body q = s.body q
  dictionaries : s'.dictionaries = s.dictionaries

/-- Where an overwritten sequence is: a text is a new one, and the one before and all objects are as
they were; a procedure is the object that it was, and no other object is changed. -/
structure Revised (s : Store) (v : Value) (result : List Element) (u : Value) (s' : Store) :
    Prop where
  elements : s'.elements? u = some result
  text : ∀ t, v = .text t → u.kind = .text ∧ s' = s
  procedure : ∀ p, v = .procedure p → u = .procedure p ∧ ∀ q, q ≠ p → s'.body q = s.body q
  procedures : s'.procedures.size = s.procedures.size
  dictionaries : s'.dictionaries = s.dictionaries

structure LawfulRead (s : Store) (operator : String) (start count : Int) (v : Value)
    (xs : List Element) : Prop where
  succeeds : (∃ result, s.getInterval operator start count v = .ok result) ↔
    0 ≤ start ∧ 0 ≤ count ∧ start + count ≤ xs.length
  copies : ∀ u s', s.getInterval operator start count v = .ok (u, s') →
    ∃ part, s.Copied v part u s' ∧ Interval.IsPart start count xs part
  restores : ∀ u s', s.getInterval operator start count v = .ok (u, s') →
    ∃ s'', s'.putInterval operator start v u = .ok (v, s'') ∧ s''.elements? v = some xs

structure LawfulWrite (s : Store) (operator : String) (start : Int) (v : Value)
    (xs : List Element) (w : Value) (ys : List Element) : Prop where
  succeeds : (∃ result, s.putInterval operator start v w = .ok result) ↔
    0 ≤ start ∧ start + ys.length ≤ xs.length
  overwrites : ∀ u s', s.putInterval operator start v w = .ok (u, s') →
    ∃ result, s.Revised v result u s' ∧ Interval.IsOverwritten start ys xs result
  restores : ∀ u s', s.putInterval operator start v w = .ok (u, s') →
    ∃ w' s'', s'.getInterval operator start ys.length u = .ok (w', s'') ∧
      s''.elements? w' = some ys ∧ w'.kind = w.kind

variable {s : Store} {start count : Int} {v w : Value} {xs ys part result : List Element}

theorem body_of_size_le {p : ProcedureId} (absent : s.procedures.size ≤ p.index) :
    s.body p = [] := by
  simp [body, Array.getD_eq_getD_getElem?, Array.getElem?_eq_none absent]

theorem body_setBody_of_length {p : ProcedureId} {tokens : List Token}
    (length : tokens.length = (s.body p).length) : (s.setBody p tokens).body p = tokens := by
  by_cases held : p.index < s.procedures.size
  · exact body_setBody_self s p tokens held
  · have none := body_of_size_le (Nat.le_of_not_lt held)
    have empty : tokens = [] := List.eq_nil_of_length_eq_zero (by rw [length, none]; rfl)
    have absent : (s.setBody p tokens).procedures.size ≤ p.index := by
      simpa [setBody] using Nat.le_of_not_lt held
    rw [body_of_size_le absent, empty]

theorem body_addProcedure_of_read? {p : ProcedureId} {tokens : List Token}
    (found : Interval.read? start count (s.body p) = some tokens) :
    (s.addProcedure tokens).2.body p = s.body p := by
  by_cases held : p.index < s.procedures.size
  · exact body_addProcedure_of_lt held tokens
  · have none := body_of_size_le (Nat.le_of_not_lt held)
    have empty : tokens = [] := by
      obtain ⟨before, after, split, _⟩ := Interval.read?_eq_some_iff.mp found
      rw [none] at split
      exact (List.append_eq_nil_iff.mp (List.append_eq_nil_iff.mp split.symm).1).2
    rw [none, empty]
    by_cases same : p.index = s.procedures.size
    · simp [addProcedure, body, same]
    · refine body_of_size_le ?_
      simp only [addProcedure, Array.size_push]
      omega

theorem getInterval_of_read? (operator : String) (sequence : s.elements? v = some xs)
    (found : Interval.read? start count xs = some part) :
    ∃ u s', s.getInterval operator start count v = .ok (u, s') ∧ s.Copied v part u s' ∧
      s'.elements? v = some xs := by
  cases v with
  | text t =>
      cases sequence
      rw [Interval.read?_map, Option.map_eq_some_iff] at found
      obtain ⟨cs, read, rfl⟩ := found
      refine ⟨.text (String.ofList cs), s, ?_, ⟨?_, rfl, by simp, fun _ _ => rfl, rfl⟩, rfl⟩
      · simp only [getInterval, interval, read]
        rfl
      · simp [elements?]
  | procedure p =>
      cases sequence
      rw [Interval.read?_map, Option.map_eq_some_iff] at found
      obtain ⟨tokens, read, rfl⟩ := found
      refine ⟨.procedure (s.addProcedure tokens).1, (s.addProcedure tokens).2, ?_,
        ⟨?_, rfl, ?_, ?_, rfl⟩, ?_⟩
      · simp only [getInterval, interval, read]
        rfl
      · simp [elements?]
      · rintro q ⟨⟩
        exact Nat.le_refl _
      · exact fun q held => body_addProcedure_of_lt held tokens
      · rw [elements?, body_addProcedure_of_read? read]
  | _ => cases sequence

theorem getInterval_of_read?_eq_none (operator : String) (sequence : s.elements? v = some xs)
    (missing : Interval.read? start count xs = none) :
    ∃ e, s.getInterval operator start count v = .error e := by
  cases v with
  | text t =>
      cases sequence
      rw [Interval.read?_map, Option.map_eq_none_iff] at missing
      simp only [getInterval, interval, missing]
      exact ⟨_, rfl⟩
  | procedure p =>
      cases sequence
      rw [Interval.read?_map, Option.map_eq_none_iff] at missing
      simp only [getInterval, interval, missing]
      exact ⟨_, rfl⟩
  | _ => cases sequence

theorem sequence_cases (sequence : s.elements? v = some xs) (same : w.kind = v.kind) :
    (∃ t u, v = .text t ∧ w = .text u) ∨ ∃ p q, v = .procedure p ∧ w = .procedure q := by
  cases v with
  | text t =>
      cases w with
      | text u => exact .inl ⟨t, u, rfl, rfl⟩
      | number n => cases n <;> cases same
      | _ => cases same
  | procedure p =>
      cases w with
      | procedure q => exact .inr ⟨p, q, rfl, rfl⟩
      | number n => cases n <;> cases same
      | _ => cases same
  | _ => cases sequence

theorem putInterval_of_write? (operator : String) (sequence : s.elements? v = some xs)
    (other : s.elements? w = some ys) (same : w.kind = v.kind)
    (written : Interval.write? start ys xs = some result) :
    ∃ u s', s.putInterval operator start v w = .ok (u, s') ∧ s.Revised v result u s' := by
  rcases sequence_cases sequence same with ⟨t, u, rfl, rfl⟩ | ⟨p, q, rfl, rfl⟩
  · cases sequence
    cases other
    rw [Interval.write?_map, Option.map_eq_some_iff] at written
    obtain ⟨cs, write, rfl⟩ := written
    refine ⟨.text (String.ofList cs), s, ?_, ⟨?_, fun _ _ => ⟨rfl, rfl⟩, by simp, rfl, rfl⟩⟩
    · simp only [putInterval, overwrite, write]
      rfl
    · simp [elements?]
  · cases sequence
    cases other
    rw [Interval.write?_map, Option.map_eq_some_iff] at written
    obtain ⟨tokens, write, rfl⟩ := written
    refine ⟨.procedure p, s.setBody p tokens, ?_, ⟨?_, by simp, ?_, ?_, rfl⟩⟩
    · simp only [putInterval, overwrite, write]
      rfl
    · rw [elements?, body_setBody_of_length (Interval.length_write? write)]
    · rintro _ ⟨⟩
      exact ⟨rfl, fun q other => body_setBody_of_ne s tokens other⟩
    · simp [setBody]

theorem putInterval_of_write?_eq_none (operator : String) (sequence : s.elements? v = some xs)
    (other : s.elements? w = some ys) (same : w.kind = v.kind)
    (missing : Interval.write? start ys xs = none) :
    ∃ e, s.putInterval operator start v w = .error e := by
  rcases sequence_cases sequence same with ⟨t, u, rfl, rfl⟩ | ⟨p, q, rfl, rfl⟩
  all_goals
    cases sequence
    cases other
    rw [Interval.write?_map, Option.map_eq_none_iff] at missing
    simp only [putInterval, overwrite, missing]
    exact ⟨_, rfl⟩

theorem Revised.kind {s' : Store} {u : Value} (revised : s.Revised v result u s')
    (sequence : s.elements? v = some xs) : u.kind = v.kind := by
  cases v with
  | text t => exact (revised.text t rfl).1
  | procedure p => rw [(revised.procedure p rfl).1]
  | _ => cases sequence

theorem Revised.eq_of_elements {s' : Store} {u : Value} (revised : s.Revised v xs u s')
    (sequence : s.elements? v = some xs) : u = v := by
  cases v with
  | text t =>
      obtain ⟨kind, _⟩ := revised.text t rfl
      rcases sequence_cases sequence kind with ⟨_, r, ⟨⟩, rfl⟩ | ⟨_, _, ⟨⟩, _⟩
      have characters : r.toList.map Element.char = t.toList.map Element.char :=
        Option.some.inj (revised.elements.trans sequence.symm)
      have same : r.toList = t.toList :=
        (List.map_inj_right fun _ _ => Element.char.inj).mp characters
      exact congrArg Value.text (String.toList_inj.mp same)
  | procedure p => exact (revised.procedure p rfl).1
  | _ => cases sequence

theorem lawfulRead (operator : String) (sequence : s.elements? v = some xs) :
    s.LawfulRead operator start count v xs := by
  cases read : Interval.read? start count xs with
  | none =>
      obtain ⟨e, failed⟩ := getInterval_of_read?_eq_none operator sequence read
      refine ⟨?_, ?_, ?_⟩
      · rw [← Interval.exists_read?_iff, read, failed]
        simp
      all_goals
        intro u s' found
        cases failed.symm.trans found
  | some part =>
      obtain ⟨u, s', found, copied, kept⟩ :=
        getInterval_of_read? operator sequence read
      obtain ⟨u', s'', written, revised⟩ := putInterval_of_write? operator kept
        copied.elements copied.kind (Interval.write?_of_read? read)
      cases revised.eq_of_elements kept
      refine ⟨?_, ?_, ?_⟩
      · rw [← Interval.exists_read?_iff, read, found]
        simp
      · intro _ _ found'
        cases found.symm.trans found'
        exact ⟨part, copied, Interval.isPart_of_read? read⟩
      · intro _ _ found'
        cases found.symm.trans found'
        exact ⟨s'', written, revised.elements⟩

theorem lawfulWrite (operator : String) (sequence : s.elements? v = some xs)
    (other : s.elements? w = some ys) (same : w.kind = v.kind) :
    s.LawfulWrite operator start v xs w ys := by
  cases write : Interval.write? start ys xs with
  | none =>
      obtain ⟨e, failed⟩ :=
        putInterval_of_write?_eq_none operator sequence other same write
      refine ⟨?_, ?_, ?_⟩
      · rw [← Interval.exists_write?_iff, write, failed]
        simp
      all_goals
        intro u s' written
        cases failed.symm.trans written
  | some result =>
      obtain ⟨u, s', written, revised⟩ :=
        putInterval_of_write? operator sequence other same write
      obtain ⟨w', s'', found, copied, _⟩ := getInterval_of_read? operator
        revised.elements (Interval.read?_of_write? write)
      refine ⟨?_, ?_, ?_⟩
      · rw [← Interval.exists_write?_iff, write, written]
        simp
      · intro _ _ written'
        cases written.symm.trans written'
        exact ⟨result, revised, Interval.isOverwritten_of_write? write⟩
      · intro _ _ written'
        cases written.symm.trans written'
        have kind : w'.kind = w.kind := by rw [copied.kind, revised.kind sequence, same]
        exact ⟨w', s'', found, copied.elements, kind⟩

theorem getElement_toOption (s : Store) (operator : String) (i : Int) (t : String) :
    (s.getElement operator i (.text t)).toOption =
      (s.getInterval operator i 1 (.text t)).toOption := by
  simp only [getElement, getInterval, element, interval, ← Interval.element?_map_singleton]
  cases Interval.element? i t.toList with
  | none => rfl
  | some c => rfl

end Store

namespace Machine

/-- Whether a name puts one value in the place of operands, in every state in which they lie on top.
The value and the objects afterwards follow from the objects before; or the name fails, and then
only the operands are gone. -/
def Replaces (word : String) (operands : Stack)
    (answer : Store → Except RuntimeError (Value × Store)) : Prop :=
  ∀ (m : Machine) (mode : ScopingMode) (enter : List Token → Machine → Outcome × Machine)
    (rest : Stack),
    ({ m with stack := operands ++ rest } : Machine).step mode enter (.name word) =
      match answer m.store with
      | .ok (u, store) => (.ok .completed, { m with store := store, stack := u :: rest })
      | .error e => (.error e, { m with stack := rest })

theorem replaces_of_perform {α : Type} {word : String} (op : Operator)
    (operands : Operands op.signature) (listed : Operator.ofName? word = some op)
    {answer : Store → Except RuntimeError α} {effect : α → Effect}
    {settle : Store → α → Value × Store}
    (performed : ∀ m, op.perform m operands = (answer m.store).map effect)
    (settled : ∀ (enter : List Token → Machine → Outcome × Machine) (a : α) (m : Machine),
      perform enter (effect a) m = (.ok .completed,
        { m with store := (settle m.store a).2, stack := (settle m.store a).1 :: m.stack })) :
    Replaces word (Operands.values op.signature operands) fun s => (answer s).map (settle s) := by
  intro m mode enter rest
  rw [step, resolve_operator listed operands rfl, performed]
  dsimp only
  cases answer m.store with
  | ok a => exact settled enter a _
  | error e => rfl

theorem perform_ofDatum (enter : List Token → Machine → Outcome × Machine) (d : Datum)
    (m : Machine) :
    perform enter (.ofDatum d) m = (.ok .completed,
      { m with store := (m.store.realize d).2, stack := (m.store.realize d).1 :: m.stack }) := by
  cases d <;> rfl

theorem perform_ofRevision (enter : List Token → Machine → Outcome × Machine) (r : Revision)
    (m : Machine) :
    perform enter (.ofRevision r) m = (.ok .completed,
      { m with store := (m.store.revise r).2, stack := (m.store.revise r).1 :: m.stack }) := by
  cases r <;> rfl

variable (i n : Int64) (v part : Value)

theorem replaces_get :
    Replaces "get" [.int i, v] fun s => s.getElement "get" i.toInt v :=
  replaces_of_perform .element (i, v, ()) (by decide)
    (fun m => by simp only [Operator.perform]; cases m.store.element "get" i.toInt v <;> rfl)
    perform_ofDatum

theorem replaces_getinterval :
    Replaces "getinterval" [.int n, .int i, v]
      fun s => s.getInterval "getinterval" i.toInt n.toInt v :=
  replaces_of_perform .interval (n, i, v, ()) (by decide)
    (fun m => by
      simp only [Operator.perform]
      cases m.store.interval "getinterval" i.toInt n.toInt v <;> rfl)
    perform_ofDatum

theorem replaces_putinterval :
    Replaces "putinterval" [part, .int i, v]
      fun s => s.putInterval "putinterval" i.toInt v part :=
  replaces_of_perform .overwrite (part, i, v, ()) (by decide)
    (fun m => by
      simp only [Operator.perform]
      cases m.store.overwrite "putinterval" i.toInt v part <;> rfl)
    perform_ofRevision

end Machine

/-- Reading and overwriting parts of sequences. A part is read exactly if it lies in the sequence;
it is then a copy of those elements, and writing it back gives the sequence again. A sequence of the
same kind, which can be the same object, is written exactly if it fits in the other; it then stands
there, all else is as before, and reading it back gives its elements. An element of a text is a part
of one character. The operators put these results in the place of their operands. Bounds computed in
machine words, with their checks, are these bounds, as long as the length of what is written is a
word. -/
theorem interval_reads_and_writes_lawful (s : Store) {v : Value} {xs : List Element}
    (sequence : s.elements? v = some xs) (operator : String) (start : Int) :
    (∀ count, s.LawfulRead operator start count v xs) ∧
    (∀ w ys, s.elements? w = some ys → w.kind = v.kind →
      s.LawfulWrite operator start v xs w ys) ∧
    (∀ t, v = .text t →
      (s.getElement operator start v).toOption = (s.getInterval operator start 1 v).toOption) ∧
    (∀ (i n : Int64) (part : Value),
      Machine.Replaces "get" [.int i, v] (·.getElement "get" i.toInt v) ∧
      Machine.Replaces "getinterval" [.int n, .int i, v]
        (·.getInterval "getinterval" i.toInt n.toInt v) ∧
      Machine.Replaces "putinterval" [part, .int i, v]
        (·.putInterval "putinterval" i.toInt v part)) ∧
    ∀ (i n : Int64) (ys : List Element),
      Interval.read? i.toInt n.toInt xs = (Interval.bounds? i n xs.length).map
        (fun (first, last) => xs.extract first last) ∧
      ((ys.length : Int) ≤ Int64.maxValue.toInt →
        Interval.write? i.toInt ys xs = (Interval.bounds? i (Int64.ofNat ys.length) xs.length).map
          fun (first, last) => Interval.splice first last ys xs) := by
  refine ⟨fun _ => Store.lawfulRead operator sequence,
    fun _ _ => Store.lawfulWrite operator sequence, ?_, ?_, fun i n ys => ?_⟩
  · rintro t rfl
    exact s.getElement_toOption operator start t
  · intro i n part
    exact ⟨Machine.replaces_get i v, Machine.replaces_getinterval i n v,
      Machine.replaces_putinterval i v part⟩
  · exact ⟨Interval.read?_eq_map_bounds? i n xs,
      fun short => Interval.write?_eq_map_bounds? i short xs⟩

/-- A procedure that is overwritten by itself, at its beginning and then one further on; a start so
large that the end would not fit in 64 bits; and a text of characters of one to three bytes. -/
theorem interval_reads_and_writes_lawful_aliased :
    let tokens : List Token := [.name "dup", .number (.int 3), .text "é"]
    let s : Store := (Store.empty.addProcedure tokens).2
    let p : Value := .procedure ⟨0⟩
    let t : Value := .text "aé日b"
    s.elements? p = some (tokens.map .token) ∧
      (∃ u s', s.putInterval "putinterval" 0 p p = .ok (u, s') ∧ u = p ∧
        ∃ w' s'', s'.getInterval "putinterval" 0 3 u = .ok (w', s'') ∧
          s''.elements? w' = some (tokens.map .token)) ∧
      (¬ ∃ result, s.putInterval "putinterval" 1 p p = .ok result) ∧
      (¬ ∃ result, s.getInterval "getinterval" Int64.maxValue.toInt Int64.maxValue.toInt p =
        .ok result) ∧
      s.putInterval "putinterval" 1 t (.text "ß€") = .ok (.text "aß€b", s) ∧
      Interval.IsPart 1 2 (("aé日b".toList).map Element.char)
        (("é日".toList).map Element.char) := by
  intro tokens s p t
  have held : s.elements? p = some (tokens.map .token) := rfl
  have whole := (interval_reads_and_writes_lawful s held "putinterval" 0).2.1 p _ held rfl
  have further := (interval_reads_and_writes_lawful s held "putinterval" 1).2.1 p _ held rfl
  have distant :=
    (interval_reads_and_writes_lawful s held "getinterval" Int64.maxValue.toInt).1
      Int64.maxValue.toInt
  refine ⟨held, ?_, ?_, ?_, ?_, ?_⟩
  · obtain ⟨⟨u, s'⟩, written⟩ := whole.succeeds.mpr (by decide)
    obtain ⟨_, revised, _⟩ := whole.overwrites u s' written
    obtain ⟨w', s'', found, elements, _⟩ := whole.restores u s' written
    exact ⟨u, s', written, (revised.procedure ⟨0⟩ rfl).1, w', s'', found, elements⟩
  · rw [further.succeeds]
    decide
  · rw [distant.succeeds]
    decide
  · rfl
  · have characters : s.elements? t = some (("aé日b".toList).map Element.char) := rfl
    have read := (interval_reads_and_writes_lawful s characters "getinterval" 1).1 2
    obtain ⟨part, copied, isPart⟩ := read.copies (.text "é日") s rfl
    cases copied.elements
    exact isPart

end Stacklet
