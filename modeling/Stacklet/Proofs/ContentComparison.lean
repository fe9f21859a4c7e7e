import Stacklet.Proofs.EqualityBisimulation

set_option autoImplicit false
set_option relaxedAutoImplicit false

/-!
Dictionaries compared by their contents. The comparison of two contents starts without the pair that
the comparison of the two dictionaries takes as equal from the beginning. The verdict is the same:
a bisimulation that makes the contents agree stays one with that pair added. For one dictionary they
differ, since a dictionary equals itself without a look at its contents, and a NaN is not equal to
itself.
-/

namespace Stacklet

private theorem unpacked_beq_self (x : Float.Model.UnpackedFloat) : x.beq x = !x.isNaN := by
  cases x with
  | infinity sign => cases sign <;> rfl
  | notANumber => rfl
  | zero sign => rfl
  | finite sign mantissa exponent positive =>
      have equal : (compare exponent exponent).then (compare mantissa mantissa) = .eq := by simp
      cases sign with
      | negative => exact congrArg (fun order : Ordering => some order.swap == some .eq) equal
      | positive => exact congrArg (fun order : Ordering => some order == some .eq) equal

theorem Number.same_self_eq_false_iff (n : Number) :
    n.same n = false ↔ ∃ x, n = .real x ∧ x.isNaN = true := by
  cases n with
  | int m => simp [same]
  | real x =>
      have equal : (x == x) = !x.isNaN := unpacked_beq_self _
      simp [same, widen, equal]

namespace Store

variable {s : Store} {R R' : DictionaryId → DictionaryId → Prop}

theorem related_mono (weaker : ∀ x y, R x y → R' x y) {v w : Value} (related : s.Related R v w) :
    s.Related R' v w := by
  cases v <;> cases w <;> try exact related
  exact related.imp_right (weaker _ _)

theorem agree_mono (weaker : ∀ x y, R x y → R' x y) {d e : Dictionary} (agree : s.Agree R d e) :
    s.Agree R' d e := by
  refine ⟨agree.1, ?_⟩
  intro key v w left right
  exact related_mono weaker (agree.2 key v w left right)

theorem sameEntries_iff_agree (s : Store) (d e : Dictionary) :
    s.sameEntries d e = true ↔ ∃ R, s.Bisimulation R ∧ s.Agree R d e := by
  constructor
  · intro equal
    unfold sameEntries at equal
    split at equal
    · cases equal
    · rename_i pairs paired
      obtain ⟨R, bisimulation, related⟩ := (s.search_nil_iff_bisimilar pairs).mp equal
      exact ⟨R, bisimulation, agree_of_pairs? paired related⟩
  · rintro ⟨R, bisimulation, agree⟩
    obtain ⟨pairs, paired, related⟩ := exists_pairs?_of_agree agree
    simp only [sameEntries, paired]
    exact (s.search_nil_iff_bisimilar pairs).mpr ⟨R, bisimulation, related⟩

/-- Dictionaries whose contents agree can be added to a bisimulation. -/
theorem bisimulation_with (bisimulation : s.Bisimulation R) {x y : DictionaryId}
    (agree : s.Agree R (s.dictionary x) (s.dictionary y)) :
    s.Bisimulation fun x' y' => R x' y' ∨ x' = x ∧ y' = y := by
  have weaker (x' y' : DictionaryId) : R x' y' → R x' y' ∨ x' = x ∧ y' = y := .inl
  rintro x' y' (held | ⟨rfl, rfl⟩)
  · exact agree_mono weaker (bisimulation x' y' held)
  · exact agree_mono weaker agree

theorem sameEntries_eq_same (s : Store) {x y : DictionaryId} (distinct : x ≠ y) :
    s.sameEntries (s.dictionary x) (s.dictionary y) =
      s.same (.dictionary x) (.dictionary y) := by
  rw [Bool.eq_iff_iff, sameEntries_iff_agree, same_iff_bisimilar]
  constructor
  · rintro ⟨R, bisimulation, agree⟩
    exact ⟨_, bisimulation_with bisimulation agree, .inr (.inr ⟨rfl, rfl⟩)⟩
  · rintro ⟨R, bisimulation, related⟩
    exact ⟨R, bisimulation, bisimulation x y (related.resolve_left distinct)⟩

theorem related_self {v : Value} (equal : ∀ n, v = .number n → n.same n = true) :
    s.Related R v v := by
  cases v with
  | number n => exact equal n rfl
  | procedure p => exact .inl rfl
  | dictionary d => exact .inl rfl
  | _ => rfl

theorem sameEntries_self_iff (s : Store) (d : Dictionary) :
    s.sameEntries d d = true ↔
      ¬ ∃ key n, d.get? key = some (.number n) ∧ n.same n = false := by
  rw [sameEntries_iff_agree]
  constructor
  · rintro ⟨R, _, _, values⟩ ⟨key, n, found, differs⟩
    have equal : n.same n = true := values key _ _ found found
    rw [differs] at equal
    cases equal
  · intro none
    refine ⟨fun _ _ => False, nofun, fun _ => Iff.rfl, ?_⟩
    intro key v w left right
    cases left.symm.trans right
    refine related_self fun n number => ?_
    subst number
    by_contra differs
    exact none ⟨key, n, left, by simpa using differs⟩

/-- The two comparisons of dictionaries agree. The contents of two different dictionaries are equal
exactly when the dictionaries are, however these contain each other and themselves. The contents of
one dictionary are equal to themselves unless there is a number among them that differs from itself,
which a NaN does and nothing else; the dictionary is equal to itself in any case. -/
theorem contents_compared_as_dictionaries (s : Store) :
    (∀ x y : DictionaryId, x ≠ y →
      s.sameEntries (s.dictionary x) (s.dictionary y) =
        s.same (.dictionary x) (.dictionary y)) ∧
    (∀ x : DictionaryId,
      (s.sameEntries (s.dictionary x) (s.dictionary x) = true ↔
        ¬ ∃ key n, (s.dictionary x).get? key = some (.number n) ∧ n.same n = false) ∧
      s.same (.dictionary x) (.dictionary x) = true) ∧
    ∀ n : Number, n.same n = false ↔ ∃ x, n = .real x ∧ x.isNaN = true := by
  refine ⟨fun x y => s.sameEntries_eq_same, fun x => ⟨s.sameEntries_self_iff _, ?_⟩,
    Number.same_self_eq_false_iff⟩
  simp [same, compare]

private def knots : Store :=
  ⟨#[], #[(Dictionary.empty 0).insert "other" (.dictionary ⟨1⟩),
    (Dictionary.empty 3).insert "other" (.dictionary ⟨0⟩),
    ((Dictionary.empty 0).insert "self" (.dictionary ⟨2⟩)).insert "n" (.real (0.0 / 0.0))]⟩

theorem contents_compared_as_dictionaries_knots :
    knots.sameEntries (knots.dictionary ⟨0⟩) (knots.dictionary ⟨1⟩) = true ∧
      knots.sameEntries (knots.dictionary ⟨2⟩) (knots.dictionary ⟨2⟩) = false ∧
      knots.same (.dictionary ⟨2⟩) (.dictionary ⟨2⟩) = true := by
  obtain ⟨distinct, one, _⟩ := contents_compared_as_dictionaries knots
  have swapped : knots.same (.dictionary ⟨0⟩) (.dictionary ⟨1⟩) = true := by
    rw [same_iff_bisimilar]
    refine ⟨fun x y => x = ⟨0⟩ ∧ y = ⟨1⟩ ∨ x = ⟨1⟩ ∧ y = ⟨0⟩, ?_, .inr (.inl ⟨rfl, rfl⟩)⟩
    have first : (knots.dictionary ⟨0⟩).entries = [("other", .dictionary ⟨1⟩)] := rfl
    have second : (knots.dictionary ⟨1⟩).entries = [("other", .dictionary ⟨0⟩)] := rfl
    rintro _ _ (⟨rfl, rfl⟩ | ⟨rfl, rfl⟩) <;>
    · refine ⟨fun key => by simp [Dictionary.keys, first, second], ?_⟩
      intro key v w left right
      simp only [Dictionary.get?_eq_some_iff, first, second, List.mem_singleton,
        Prod.mk.injEq] at left right
      obtain ⟨⟨_, rfl⟩, _, rfl⟩ := And.intro left right
      simp [Related]
  have differs : ∃ key n, (knots.dictionary ⟨2⟩).get? key = some (.number n) ∧ n.same n = false :=
    ⟨"n", .real (0.0 / 0.0), rfl, by decide⟩
  refine ⟨?_, ?_, (one ⟨2⟩).2⟩
  · rw [distinct ⟨0⟩ ⟨1⟩ (by decide), swapped]
  · rw [← Bool.not_eq_true, (one ⟨2⟩).1]
    exact fun none => none differs

end Store

end Stacklet
