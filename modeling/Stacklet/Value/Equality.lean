import Stacklet.Store

set_option autoImplicit false
set_option relaxedAutoImplicit false

/-!
Equality of values. Dictionaries can contain each other, so two of them are compared by a search:
a pair that has been met before is not compared again, and the two are equal unless some pair that
the search meets differs.
-/

namespace Stacklet

inductive Comparison where
  | settled (equal : Bool)
  | pending (x y : DictionaryId)

namespace Store

/-- Compares two values; two different dictionaries are left pending. Procedures are equal when they
are one object or hold equal tokens. -/
def compare (s : Store) : Value → Value → Comparison
  | .number m, .number n => .settled (m.same n)
  | .bool b, .bool c => .settled (b == c)
  | .text t, .text u => .settled (t == u)
  | .name v, .name w => .settled (v == w)
  | .procedure p, .procedure q => .settled (p == q || Token.sameAll (s.body p) (s.body q))
  | .dictionary x, .dictionary y => if x = y then .settled true else .pending x y
  | _, _ => .settled false

def pairEntries? (d : Dictionary) : List (String × Value) → Option (List (Value × Value))
  | [] => some []
  | (key, v) :: rest =>
      match d.get? key, pairEntries? d rest with
      | some w, some pairs => some ((v, w) :: pairs)
      | _, _ => none

def pairs? (x y : Dictionary) : Option (List (Value × Value)) :=
  if x.size = y.size then pairEntries? y x.entries else none

/-- How many pairs of dictionaries of the store have not been met. -/
def unmet (s : Store) (met : List (DictionaryId × DictionaryId)) : Nat :=
  ((List.range s.dictionaries.size).flatMap fun i =>
    (List.range s.dictionaries.size).map fun j =>
      ((⟨i⟩, ⟨j⟩) : DictionaryId × DictionaryId)).countP fun pair => !met.contains pair

private theorem countP_unmet_le (pairs met : List (DictionaryId × DictionaryId))
    (pair : DictionaryId × DictionaryId) :
    pairs.countP (fun p => !(pair :: met).contains p) ≤ pairs.countP fun p => !met.contains p := by
  apply List.countP_mono_left
  intro p _ h
  simp_all

private theorem countP_unmet_lt (pairs met : List (DictionaryId × DictionaryId))
    {pair : DictionaryId × DictionaryId} (member : pair ∈ pairs) (fresh : pair ∉ met) :
    pairs.countP (fun p => !(pair :: met).contains p) < pairs.countP fun p => !met.contains p := by
  induction pairs with
  | nil => simp at member
  | cons head tail ih =>
      by_cases same : head = pair
      · subst same
        have := countP_unmet_le tail met head
        simp only [List.countP_cons]
        simp [fresh] at this ⊢
        omega
      · have inTail : pair ∈ tail := by
          rcases List.mem_cons.mp member with h | h
          · exact absurd h.symm same
          · exact h
        have := ih inTail
        simp only [List.countP_cons]
        have head_eq : (!(pair :: met).contains head) = !met.contains head := by
          simp [same]
        rw [head_eq]
        omega

theorem unmet_cons_le (s : Store) (met : List (DictionaryId × DictionaryId))
    (pair : DictionaryId × DictionaryId) : s.unmet (pair :: met) ≤ s.unmet met :=
  countP_unmet_le _ met pair

theorem unmet_cons_lt (s : Store) (met : List (DictionaryId × DictionaryId))
    {x y : DictionaryId} (hx : x.index < s.dictionaries.size) (hy : y.index < s.dictionaries.size)
    (fresh : (x, y) ∉ met) : s.unmet ((x, y) :: met) < s.unmet met := by
  apply countP_unmet_lt _ met _ fresh
  simp only [List.mem_flatMap, List.mem_map, List.mem_range]
  exact ⟨x.index, hx, y.index, hy, rfl⟩

private theorem index_lt_of_entries (s : Store) (d : DictionaryId)
    (nonempty : (s.dictionary d).entries ≠ []) : d.index < s.dictionaries.size := by
  rcases Nat.lt_or_ge d.index s.dictionaries.size with h | h
  · exact h
  · refine absurd ?_ nonempty
    simp [dictionary, Array.getD_eq_getD_getElem?, Nat.not_lt.mpr h, Dictionary.empty]

theorem bounds_of_pairs? (s : Store) {x y : DictionaryId} {pair : Value × Value}
    {rest : List (Value × Value)}
    (h : pairs? (s.dictionary x) (s.dictionary y) = some (pair :: rest)) :
    x.index < s.dictionaries.size ∧ y.index < s.dictionaries.size := by
  unfold pairs? at h
  split at h
  · rename_i sizes
    have left : (s.dictionary x).entries ≠ [] := by
      intro none
      simp [none, pairEntries?] at h
    refine ⟨index_lt_of_entries s x left, index_lt_of_entries s y ?_⟩
    intro none
    simp only [Dictionary.size, none, List.length_nil, List.length_eq_zero_iff] at sizes
    exact left sizes
  · simp at h

/-- Whether all pairs of `work` are equal, with the pairs of dictionaries `met` taken as equal. -/
def search (s : Store) (met : List (DictionaryId × DictionaryId)) :
    List (Value × Value) → Bool
  | [] => true
  | (v, w) :: work =>
      match s.compare v w with
      | .settled false => false
      | .settled true => search s met work
      | .pending x y =>
          if (x, y) ∈ met then search s met work
          else
            match _paired : pairs? (s.dictionary x) (s.dictionary y) with
            | none => false
            | some pairs => search s ((x, y) :: met) (pairs ++ work)
termination_by work => (s.unmet met, work.length)
decreasing_by
  · exact Prod.Lex.right _ (by simp)
  · exact Prod.Lex.right _ (by simp)
  · rename_i fresh
    cases pairs with
    | nil =>
        rcases Nat.lt_or_eq_of_le (s.unmet_cons_le met (x, y)) with less | same
        · exact Prod.Lex.left _ _ less
        · rw [same]
          exact Prod.Lex.right _ (by simp)
    | cons pair rest =>
        have bounds := s.bounds_of_pairs? _paired
        exact Prod.Lex.left _ _ (s.unmet_cons_lt met bounds.1 bounds.2 fresh)

def same (s : Store) (v w : Value) : Bool :=
  match s.compare v w with
  | .settled equal => equal
  | .pending _ _ => s.search [] [(v, w)]

/-- Whether two dictionaries have the same keys and equal values under them. What they have room
for does not matter. -/
def sameEntries (s : Store) (x y : Dictionary) : Bool :=
  match pairs? x y with
  | none => false
  | some pairs => s.search [] pairs

end Store

end Stacklet
