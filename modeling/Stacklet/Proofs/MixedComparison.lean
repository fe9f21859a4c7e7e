import Stacklet.Proofs.EqualityBisimulation
import Stacklet.Proofs.IntegerWidening
import Stacklet.Proofs.IntervalLaws

set_option autoImplicit false
set_option relaxedAutoImplicit false

/-!
Comparisons of an integer with a real. The integer is widened to the nearest double first, so that
it is equal to that double and to no other, and is ordered with all others as by its own value.
Only beyond `2 ^ 53` is the nearest double another number; there two integers can both be equal to
one real and not to each other.
-/

namespace Stacklet

namespace Number

open Binary64

theorem widen_beq_of_same {a b : Number} (equal : a.same b = true) :
    (a.widen == b.widen) = true := by
  rcases a with m | x <;> rcases b with n | y
  · obtain rfl : m = n := eq_of_beq equal
    obtain ⟨w, read, _⟩ := exists_content_widen m
    rw [beq_of_content read read, compare_eq_iff_eq.mpr rfl]
    rfl
  · exact equal
  · exact equal
  · exact equal

theorem eq_of_widen_beq {m n : Int64}
    (equal : ((Number.int m).widen == (Number.int n).widen) = true)
    (left : m.toInt.natAbs ≤ 2 ^ 53) (right : n.toInt.natAbs ≤ 2 ^ 53) : m = n := by
  obtain ⟨w, read, _, exact⟩ := exists_content_widen m
  obtain ⟨w', read', _, exact'⟩ := exists_content_widen n
  rw [beq_of_content read read', exact left, exact' right, Ordering.isEq_iff_eq_eq,
    compare_eq_iff_eq] at equal
  exact Int64.toInt_inj.mp (Int.cast_injective equal)

/-- Equality of numbers carries over a third one, unless that is a real between two different
integers, of which one is beyond `2 ^ 53`. -/
theorem same_trans_or {a b c : Number} (left : a.same b = true) (right : b.same c = true) :
    a.same c = true ∨ ∃ m n x, a = .int m ∧ b = .real x ∧ c = .int n ∧ m ≠ n ∧
      ¬ (m.toInt.natAbs ≤ 2 ^ 53 ∧ n.toInt.natAbs ≤ 2 ^ 53) := by
  -- As doubles all three are equal; only two integers are compared in another way.
  have equal := PartialEquivBEq.trans (widen_beq_of_same left) (widen_beq_of_same right)
  rcases a with m | x <;> rcases c with n | z
  · by_cases same : m = n
    · exact .inl (beq_iff_eq.mpr same)
    · rcases b with k | y
      · exact absurd ((eq_of_beq left).trans (eq_of_beq right)) same
      · exact .inr ⟨m, n, y, rfl, rfl, rfl, same, fun small =>
          same (eq_of_widen_beq equal small.1 small.2)⟩
  · exact .inl equal
  · exact .inl equal
  · exact .inl equal

end Number

namespace Machine

open Binary64

/-- Whether a name that compares two numbers gives a verdict, in every state in which they lie on
top, the second one above the first. -/
def Judges (word : String) (a b : Number) (verdict : Bool) : Prop :=
  Replaces word [.number b, .number a] fun s => .ok (.bool verdict, s)

def comparisons : List (String × (Ordering → Bool)) :=
  [("eq", Ordering.isEq), ("ne", Ordering.isNe), ("lt", Ordering.isLT), ("le", Ordering.isLE),
    ("gt", Ordering.isGT), ("ge", Ordering.isGE)]

def Compared (a b : Number) (o : Ordering) : Prop :=
  ∀ c ∈ comparisons, Judges c.1 a b (c.2 o) ∧ Judges c.1 b a (c.2 o.swap)

theorem judges_of_perform {word : String} {a b : Number} {verdict : Bool} (op : Operator)
    (operands : Operands op.signature) (listed : Operator.ofName? word = some op)
    (taken : Operands.values op.signature operands = [.number b, .number a])
    (performed : ∀ m, op.perform m operands = .ok (.push (.bool verdict))) :
    Judges word a b verdict := by
  unfold Judges
  rw [← taken]
  exact @replaces_of_perform Bool word op operands listed (fun _ => .ok verdict)
    (fun v => .push (.bool v)) (fun s v => (.bool v, s)) performed (fun _ _ _ => rfl)

theorem judges_eq (a b : Number) : Judges "eq" a b (a.same b) :=
  judges_of_perform .equal (.number b, .number a, ()) (by decide) rfl fun _ => rfl

theorem judges_ne (a b : Number) : Judges "ne" a b (!a.same b) :=
  judges_of_perform .notEqual (.number b, .number a, ()) (by decide) rfl fun _ => rfl

theorem judges_relation (r : Relation) (a b : Number) :
    Judges r.label a b (r.holds (a.compare? b)) :=
  judges_of_perform (.relation r) (.number b, .number a, ()) (by cases r <;> decide) rfl
    fun _ => rfl

theorem Judges.unique {word : String} {a b : Number} {v v' : Bool} (first : Judges word a b v)
    (second : Judges word a b v') : v = v' := by
  have one := first .fresh .dynamic (fun _ m => (.ok .completed, m)) []
  have other := second .fresh .dynamic (fun _ m => (.ok .completed, m)) []
  have tops := congrArg (·.2.stack) (one.symm.trans other)
  simpa using tops

theorem judges_of_order {a b : Number} {o : Ordering} (order : a.compare? b = some o)
    (equal : a.same b = o.isEq) : ∀ c ∈ comparisons, Judges c.1 a b (c.2 o) := by
  have eq := judges_eq a b
  have ne := judges_ne a b
  have related (r : Relation) := judges_relation r a b
  rw [equal] at eq ne
  rw [order] at related
  intro c listed
  simp only [comparisons, List.mem_cons, List.not_mem_nil, or_false] at listed
  rcases listed with rfl | rfl | rfl | rfl | rfl | rfl
  · exact eq
  · cases o <;> exact ne
  · cases o <;> exact related .lt
  · cases o <;> exact related .le
  · cases o <;> exact related .gt
  · cases o <;> exact related .ge

/-- An integer and a finite real are compared as the numbers that the two doubles stand for. -/
theorem compared_widened {n : Int64} {x : Float} {w d : Scaled}
    (left : content (Number.int n).widen = .finite w) (right : content x = .finite d) :
    Compared (.int n) (.real x) (compare w.value d.value) := by
  have forth : (Number.int n).compare? (.real x) = some (compare w.value d.value) :=
    Number.order?_of_content left right
  have back : (Number.real x).compare? (.int n) = some (compare d.value w.value) :=
    Number.order?_of_content right left
  have equal : (Number.int n).same (.real x) = (compare w.value d.value).isEq :=
    Number.beq_of_content left right
  have equal' : (Number.real x).same (.int n) = (compare d.value w.value).isEq :=
    Number.beq_of_content right left
  have swapped : (compare w.value d.value).swap = compare d.value w.value := by
    rw [← cmp_eq_compare, ← cmp_eq_compare, cmp_swap]
  intro c listed
  rw [swapped]
  exact ⟨judges_of_order forth equal c listed, judges_of_order back equal' c listed⟩

end Machine

open Binary64 Machine

/-- Comparison of integers with reals. A finite real that is the double nearest to an integer, the
even one of two, is compared as equal to it; any other finite real is compared by its exact value,
and up to `2 ^ 53` all are. Equality is transitive, but for two different integers that are equal to
one real, of which one is beyond `2 ^ 53`. -/
theorem integers_compared_as_nearest_doubles :
    (∀ (n : Int64) (x : Float) (d : Scaled), content x = .finite d →
      ∃ w, content (Number.int n).widen = .finite w ∧ w.IsNearest n.toInt ∧
        (d.value = w.value → Compared (.int n) (.real x) .eq) ∧
        (d.value ≠ w.value ∨ n.toInt.natAbs ≤ 2 ^ 53 →
          Compared (.int n) (.real x) (compare (n.toInt : ℚ) d.value))) ∧
    ∀ a b c : Number, Judges "eq" a b true → Judges "eq" b c true →
      Judges "eq" a c true ∨ ∃ m n x, a = .int m ∧ b = .real x ∧ c = .int n ∧ m ≠ n ∧
        ¬ (m.toInt.natAbs ≤ 2 ^ 53 ∧ n.toInt.natAbs ≤ 2 ^ 53) := by
  constructor
  · intro n x d read
    obtain ⟨w, wide, nearest, exact⟩ := Number.exists_content_widen n
    have compared := compared_widened wide read
    refine ⟨w, wide, nearest, ?_, ?_⟩
    · intro same
      rw [compare_eq_iff_eq.mpr same.symm] at compared
      exact compared
    · rintro (other | small)
      · rw [nearest.compare_eq (regular_of_content read).1 other] at compared
        exact compared
      · rw [exact small] at compared
        exact compared
  · intro a b c left right
    have same := (judges_eq a b).unique left
    have same' := (judges_eq b c).unique right
    rcases Number.same_trans_or same same' with equal | apart
    · exact .inl (equal ▸ judges_eq a c)
    · exact .inr apart

/-- An integer half way between two doubles is equal to the one with the even significand, and
exceeds the other; and an integer is equal to both zeros, which are equal to each other. -/
theorem integers_compared_as_nearest_doubles_half_way :
    content 9007199254740996.0 = .finite ⟨false, 4503599627370498, 1⟩ ∧
      content 9007199254740994.0 = .finite ⟨false, 4503599627370497, 1⟩ ∧
      Compared (.int 9007199254740995) (.real 9007199254740996.0) .eq ∧
      Compared (.int 9007199254740995) (.real 9007199254740994.0) .gt ∧
      Judges "eq" (.int 0) (.real (-0.0)) true ∧
      Judges "eq" (.real (-0.0)) (.real 0.0) true ∧
      Judges "eq" (.int 0) (.real 0.0) true := by
  obtain ⟨compared, transitive⟩ := integers_compared_as_nearest_doubles
  have even : content 9007199254740996.0 = .finite ⟨false, 4503599627370498, 1⟩ := by decide
  have odd : content 9007199254740994.0 = .finite ⟨false, 4503599627370497, 1⟩ := by decide
  have wide : content (Number.int 9007199254740995).widen =
    .finite ⟨false, 4503599627370498, 1⟩ := by decide
  have negative : Judges "eq" (.int 0) (.real (-0.0)) true := judges_eq _ _
  have positive : Judges "eq" (.real (-0.0)) (.real 0.0) true := judges_eq _ _
  refine ⟨even, odd, ?_, ?_, negative, positive, ?_⟩
  · obtain ⟨w, read, _, equal, _⟩ := compared 9007199254740995 _ _ even
    cases wide.symm.trans read
    exact equal rfl
  · obtain ⟨w, read, _, _, other⟩ := compared 9007199254740995 _ _ odd
    cases wide.symm.trans read
    have integer : (9007199254740995 : Int64).toInt = 9007199254740995 := by decide
    have below : Scaled.value ⟨false, 4503599627370497, 1⟩ = 9007199254740994 := by
      norm_num [Scaled.value_eq, Scaled.magnitude]
    have above : Scaled.value ⟨false, 4503599627370498, 1⟩ = 9007199254740996 := by
      norm_num [Scaled.value_eq, Scaled.magnitude]
    rw [integer, below, above, compare_gt_iff_gt.mpr (by norm_num)] at other
    exact other (.inl (by norm_num))
  · rcases transitive _ _ _ negative positive with equal | ⟨_, _, _, _, _, real, _⟩
    · exact equal
    · cases real

/-- Beyond `2 ^ 53` an integer is equal to a real of another value, and through that to another
integer. -/
theorem integer_equal_to_real_of_other_value :
    content 9007199254740992.0 = .finite ⟨false, 4503599627370496, 1⟩ ∧
      ¬ Compared (.int 9007199254740993) (.real 9007199254740992.0)
        (compare ((9007199254740993 : Int64).toInt : ℚ)
          (Scaled.value ⟨false, 4503599627370496, 1⟩)) ∧
      Judges "eq" (.int 9007199254740993) (.real 9007199254740992.0) true ∧
      Judges "eq" (.real 9007199254740992.0) (.int 9007199254740992) true ∧
      ¬ Judges "eq" (.int 9007199254740993) (.int 9007199254740992) true := by
  have equal : Judges "eq" (.int 9007199254740993) (.real 9007199254740992.0) true :=
    judges_eq _ _
  have different : Judges "eq" (.int 9007199254740993) (.int 9007199254740992) false :=
    judges_eq _ _
  refine ⟨by decide, ?_, equal, judges_eq _ _, ?_⟩
  · intro compared
    have integer : (9007199254740993 : Int64).toInt = 9007199254740993 := by decide
    have real : Scaled.value ⟨false, 4503599627370496, 1⟩ = 9007199254740992 := by
      norm_num [Scaled.value_eq, Scaled.magnitude]
    rw [integer, real, compare_gt_iff_gt.mpr (by norm_num)] at compared
    have unequal := (compared ("eq", Ordering.isEq) (.head _)).1
    exact absurd (unequal.unique equal) (by decide)
  · intro same
    exact absurd (different.unique same) (by decide)

end Stacklet
