import Mathlib.Data.List.Nodup
import Mathlib.Data.List.Perm.Subperm
import Stacklet.Value.Equality

set_option autoImplicit false
set_option relaxedAutoImplicit false

/-!
Equality of values is bisimilarity. The search takes every pair of dictionaries that it has met as
equal in all the work that is left. What it has taken as equal when it succeeds is a bisimulation,
and a bisimulation leaves it no pair to fail on.
-/

namespace Stacklet

private theorem finite_compare_comm (e₁ e₂ : Int) (m₁ m₂ : Nat) :
    (compare e₁ e₂).then (compare m₁ m₂) = .eq ↔
      (compare e₂ e₁).then (compare m₂ m₁) = .eq := by
  simp only [Ordering.then_eq_eq, Std.compare_eq_iff_eq]
  constructor <;> rintro ⟨rfl, rfl⟩ <;> exact ⟨rfl, rfl⟩

private theorem unpacked_beq_comm (x y : Float.Model.UnpackedFloat) : x.beq y = y.beq x := by
  unfold Float.Model.UnpackedFloat.beq
  rw [Bool.eq_iff_iff, beq_iff_eq, beq_iff_eq]
  rcases x with (_ | _) | _ | _ | ⟨_ | _, m₁, e₁, _⟩ <;>
    rcases y with (_ | _) | _ | _ | ⟨_ | _, m₂, e₂, _⟩ <;>
    dsimp only [Float.Model.UnpackedFloat.compare] <;>
    simp only [Option.some.injEq, Ordering.swap_eq_eq, finite_compare_comm _ _, reduceCtorEq]

theorem Number.same_comm (a b : Number) : a.same b = b.same a := by
  have widened (x y : Float) : (x == y) = (y == x) := unpacked_beq_comm _ _
  rcases a with m | x <;> rcases b with n | y
  · exact BEq.comm
  · exact widened _ _
  · exact widened _ _
  · exact widened _ _

namespace Token

mutual

private theorem same_comm : ∀ t u : Token, t.same u = u.same t
  | .number m, u => by cases u <;> simp [same, Number.same_comm m]
  | .bool b, u => by cases u <;> simp [same, BEq.comm (a := b)]
  | .text s, u => by cases u <;> simp [same, BEq.comm (a := s)]
  | .name v, u => by cases u <;> simp [same, BEq.comm (a := v)]
  | .define v, u => by cases u <;> simp [same, BEq.comm (a := v)]
  | .inline ts, u => by cases u <;> simp [same, sameAll_comm ts]
  | .procedure ts, u => by cases u <;> simp [same, sameAll_comm ts]

theorem sameAll_comm : ∀ ts us : List Token, sameAll ts us = sameAll us ts
  | [], us => by cases us <;> simp [sameAll]
  | t :: ts, us => by
      cases us with
      | nil => simp [sameAll]
      | cons u us => simp [sameAll, same_comm t u, sameAll_comm ts us]

end

end Token

namespace Dictionary

def keys (d : Dictionary) : List String := d.entries.map Prod.fst

theorem get?_eq_some_iff (d : Dictionary) (key : String) (v : Value) :
    d.get? key = some v ↔ (key, v) ∈ d.entries := by
  obtain ⟨_, entries, nodup⟩ := d
  simp only [get?]
  induction entries with
  | nil => simp
  | cons entry rest ih =>
      obtain ⟨name, w⟩ := entry
      simp only [List.map_cons, List.nodup_cons] at nodup
      by_cases same : key = name
      · subst same
        have absent : (key, v) ∉ rest := fun member =>
          nodup.1 (List.mem_map.mpr ⟨(key, v), member, rfl⟩)
        simp [absent, eq_comm]
      · have apart : (key == name) = false := by simpa using same
        simp [List.lookup_cons, apart, same, ih nodup.2]

theorem mem_keys_iff (d : Dictionary) (key : String) :
    key ∈ d.keys ↔ ∃ v, d.get? key = some v := by
  simp [keys, get?_eq_some_iff]

private theorem get?_eq_of_perm {d e : Dictionary} (perm : e.entries.Perm d.entries)
    (key : String) : e.get? key = d.get? key := by
  apply Option.ext
  intro v
  rw [get?_eq_some_iff, get?_eq_some_iff]
  exact perm.mem_iff

end Dictionary

namespace Store

/-- Whether two values are equal once the dictionaries that `R` relates are taken as equal. -/
def Related (s : Store) (R : DictionaryId → DictionaryId → Prop) : Value → Value → Prop
  | .number m, .number n => m.same n
  | .bool b, .bool c => b = c
  | .text t, .text u => t = u
  | .name v, .name w => v = w
  | .procedure p, .procedure q => p = q ∨ Token.sameAll (s.body p) (s.body q)
  | .dictionary x, .dictionary y => x = y ∨ R x y
  | _, _ => False

def Agree (s : Store) (R : DictionaryId → DictionaryId → Prop) (d e : Dictionary) : Prop :=
  (∀ key, key ∈ d.keys ↔ key ∈ e.keys) ∧
    ∀ key v w, d.get? key = some v → e.get? key = some w → s.Related R v w

/-- A relation between dictionaries that agree as far as it goes itself. -/
def Bisimulation (s : Store) (R : DictionaryId → DictionaryId → Prop) : Prop :=
  ∀ x y, R x y → s.Agree R (s.dictionary x) (s.dictionary y)

structure Reordered (s s' : Store) : Prop where
  body : ∀ p, s'.body p = s.body p
  entries : ∀ d, (s'.dictionary d).entries.Perm (s.dictionary d).entries

private theorem compare_settled {s : Store} {v w : Value} {equal : Bool}
    (settled : s.compare v w = .settled equal) (R : DictionaryId → DictionaryId → Prop) :
    s.Related R v w ↔ equal = true := by
  cases v <;> cases w <;> simp only [compare, Comparison.settled.injEq] at settled
  case dictionary.dictionary x y =>
    split at settled
    · rename_i same
      simp only [Comparison.settled.injEq] at settled
      simp [Related, same, ← settled]
    · cases settled
  all_goals simp [Related, ← settled]

private theorem compare_pending {s : Store} {v w : Value} {x y : DictionaryId}
    (pending : s.compare v w = .pending x y) :
    v = .dictionary x ∧ w = .dictionary y ∧ x ≠ y := by
  cases v <;> cases w <;> simp only [compare, reduceCtorEq] at pending
  split at pending
  · cases pending
  · rename_i differ
    cases pending
    exact ⟨rfl, rfl, differ⟩

private theorem pairEntries?_eq_some {e : Dictionary} {entries : List (String × Value)}
    {pairs : List (Value × Value)} (paired : pairEntries? e entries = some pairs) :
    ∀ key v, (key, v) ∈ entries → ∃ w, e.get? key = some w ∧ (v, w) ∈ pairs := by
  induction entries generalizing pairs with
  | nil => simp
  | cons entry rest ih =>
      obtain ⟨name, u⟩ := entry
      simp only [pairEntries?] at paired
      split at paired
      · rename_i w tail found restPaired
        cases paired
        intro key v member
        rcases List.mem_cons.mp member with same | inRest
        · cases same
          exact ⟨w, found, by simp⟩
        · obtain ⟨w', found', inTail⟩ := ih restPaired key v inRest
          exact ⟨w', found', by simp [inTail]⟩
      · cases paired

private theorem exists_pairEntries? {e : Dictionary} {entries : List (String × Value)}
    (covered : ∀ entry ∈ entries, ∃ w, e.get? entry.1 = some w) :
    ∃ pairs, pairEntries? e entries = some pairs ∧
      ∀ pair ∈ pairs, ∃ key, (key, pair.1) ∈ entries ∧ e.get? key = some pair.2 := by
  induction entries with
  | nil => exact ⟨[], rfl, by simp⟩
  | cons entry rest ih =>
      obtain ⟨name, u⟩ := entry
      obtain ⟨w, found⟩ := covered (name, u) (by simp)
      obtain ⟨pairs, paired, origin⟩ := ih fun entry member => covered entry (by simp [member])
      refine ⟨(u, w) :: pairs, by simp [pairEntries?, found, paired], ?_⟩
      intro pair member
      rcases List.mem_cons.mp member with rfl | inPairs
      · exact ⟨name, by simp, found⟩
      · obtain ⟨key, inRest, value⟩ := origin pair inPairs
        exact ⟨key, by simp [inRest], value⟩

/-- Values paired under the same keys, all of them related, make two dictionaries agree. The sizes
are the same, so the keys of the one being among those of the other is enough. -/
theorem agree_of_pairs? {s : Store} {R : DictionaryId → DictionaryId → Prop}
    {d e : Dictionary} {pairs : List (Value × Value)} (paired : pairs? d e = some pairs)
    (related : ∀ pair ∈ pairs, s.Related R pair.1 pair.2) : s.Agree R d e := by
  unfold pairs? at paired
  split at paired
  · rename_i sizes
    have found := pairEntries?_eq_some paired
    have among : d.keys ⊆ e.keys := by
      intro key member
      obtain ⟨v, value⟩ := (d.mem_keys_iff key).mp member
      obtain ⟨w, value', _⟩ := found key v ((d.get?_eq_some_iff key v).mp value)
      exact (e.mem_keys_iff key).mpr ⟨w, value'⟩
    have lengths : e.keys.length ≤ d.keys.length := by
      simp only [Dictionary.keys, List.length_map]
      exact Nat.le_of_eq sizes.symm
    have perm : d.keys.Perm e.keys := (List.Nodup.subperm d.nodup among).perm_of_length_le lengths
    refine ⟨fun key => perm.mem_iff, ?_⟩
    intro key v w left right
    obtain ⟨w', value', member⟩ := found key v ((d.get?_eq_some_iff key v).mp left)
    rw [right] at value'
    cases value'
    exact related (v, w) member
  · cases paired

theorem exists_pairs?_of_agree {s : Store} {R : DictionaryId → DictionaryId → Prop}
    {d e : Dictionary} (agree : s.Agree R d e) :
    ∃ pairs, pairs? d e = some pairs ∧ ∀ pair ∈ pairs, s.Related R pair.1 pair.2 := by
  obtain ⟨keys, values⟩ := agree
  have perm : d.keys.Perm e.keys := (List.perm_ext_iff_of_nodup d.nodup e.nodup).mpr keys
  have sizes : d.size = e.size := by
    simpa [Dictionary.keys, Dictionary.size] using perm.length_eq
  have covered : ∀ entry ∈ d.entries, ∃ w, e.get? entry.1 = some w := by
    intro entry member
    exact (e.mem_keys_iff entry.1).mp ((keys entry.1).mp (List.mem_map.mpr ⟨entry, member, rfl⟩))
  obtain ⟨pairs, paired, origin⟩ := exists_pairEntries? covered
  refine ⟨pairs, by simp [pairs?, sizes, paired], ?_⟩
  intro pair member
  obtain ⟨key, inEntries, value⟩ := origin pair member
  exact values key pair.1 pair.2 ((d.get?_eq_some_iff key pair.1).mpr inEntries) value

/-- What a successful search has taken as equal: the pairs met before, and pairs that agree. -/
private theorem exists_of_search {s : Store} {met : List (DictionaryId × DictionaryId)}
    {work : List (Value × Value)} (success : s.search met work = true) :
    ∃ R : DictionaryId → DictionaryId → Prop, (∀ x y, (x, y) ∈ met → R x y) ∧
      (∀ x y, R x y → (x, y) ∈ met ∨ s.Agree R (s.dictionary x) (s.dictionary y)) ∧
      ∀ pair ∈ work, s.Related R pair.1 pair.2 := by
  -- The relation is settled where the search ends and handed back unchanged; on the way back only
  -- the pair met last has still to be shown to agree.
  fun_induction search s met work with
  | case1 met => exact ⟨fun x y => (x, y) ∈ met, fun _ _ h => h, fun _ _ h => .inl h, by simp⟩
  | case2 => cases success
  | case3 met v w work settled ih =>
      obtain ⟨R, contains, closed, related⟩ := ih success
      refine ⟨R, contains, closed, List.forall_mem_cons.mpr ⟨?_, related⟩⟩
      exact (compare_settled settled R).mpr rfl
  | case4 met v w work x y pending member ih =>
      obtain ⟨R, contains, closed, related⟩ := ih success
      obtain ⟨rfl, rfl, _⟩ := compare_pending pending
      exact ⟨R, contains, closed, List.forall_mem_cons.mpr ⟨.inr (contains x y member), related⟩⟩
  | case5 => cases success
  | case6 met v w work x y pending fresh pairs paired ih =>
      obtain ⟨R, contains, closed, related⟩ := ih success
      obtain ⟨rfl, rfl, _⟩ := compare_pending pending
      obtain ⟨inPairs, inWork⟩ := List.forall_mem_append.mp related
      refine ⟨R, fun x' y' member => contains x' y' (by simp [member]), ?_,
        List.forall_mem_cons.mpr ⟨.inr (contains x y (by simp)), inWork⟩⟩
      intro x' y' held
      rcases closed x' y' held with member | agree
      · rcases List.mem_cons.mp member with same | old
        · cases same
          exact .inr (agree_of_pairs? paired inPairs)
        · exact .inl old
      · exact .inr agree

private theorem search_of_bisimulation {s : Store} {R : DictionaryId → DictionaryId → Prop}
    (bisimulation : s.Bisimulation R) (met : List (DictionaryId × DictionaryId))
    (work : List (Value × Value)) (related : ∀ pair ∈ work, s.Related R pair.1 pair.2) :
    s.search met work = true := by
  fun_induction search s met work with
  | case1 => rfl
  | case2 met v w work settled =>
      have first := (List.forall_mem_cons.mp related).1
      cases (compare_settled settled R).mp first
  | case3 met v w work settled ih => exact ih (List.forall_mem_cons.mp related).2
  | case4 met v w work x y pending member ih => exact ih (List.forall_mem_cons.mp related).2
  | case5 met v w work x y pending fresh unpaired =>
      obtain ⟨rfl, rfl, differ⟩ := compare_pending pending
      have held : R x y := (List.forall_mem_cons.mp related).1.resolve_left differ
      obtain ⟨pairs, paired, _⟩ := exists_pairs?_of_agree (bisimulation x y held)
      rw [unpaired] at paired
      cases paired
  | case6 met v w work x y pending fresh pairs paired ih =>
      obtain ⟨rfl, rfl, differ⟩ := compare_pending pending
      obtain ⟨first, rest⟩ := List.forall_mem_cons.mp related
      have held : R x y := first.resolve_left differ
      obtain ⟨pairs', paired', inPairs⟩ := exists_pairs?_of_agree (bisimulation x y held)
      rw [paired] at paired'
      cases paired'
      exact ih (List.forall_mem_append.mpr ⟨inPairs, rest⟩)

/-- The search succeeds exactly when a bisimulation relates all that is to be compared. -/
theorem search_nil_iff_bisimilar (s : Store) (work : List (Value × Value)) :
    s.search [] work = true ↔
      ∃ R, s.Bisimulation R ∧ ∀ pair ∈ work, s.Related R pair.1 pair.2 := by
  constructor
  · intro success
    obtain ⟨R, _, closed, related⟩ := exists_of_search success
    refine ⟨R, fun x y held => ?_, related⟩
    exact (closed x y held).resolve_left (by simp)
  · rintro ⟨R, bisimulation, related⟩
    exact search_of_bisimulation bisimulation [] work related

private theorem same_eq_search (s : Store) (a b : Value) : s.same a b = s.search [] [(a, b)] := by
  unfold same
  split
  · rename_i equal settled
    rw [search]
    cases equal <;> simp [settled, search]
  · rfl

theorem same_iff_bisimilar (s : Store) (a b : Value) :
    s.same a b = true ↔ ∃ R, s.Bisimulation R ∧ s.Related R a b := by
  rw [same_eq_search, search_nil_iff_bisimilar]
  simp

private theorem related_swap {s : Store} {R : DictionaryId → DictionaryId → Prop} {a b : Value}
    (related : s.Related R a b) : s.Related (fun x y => R y x) b a := by
  cases a <;> cases b <;> simp only [Related] at related ⊢
  case number.number m n => rwa [Number.same_comm]
  case procedure.procedure p q => rwa [eq_comm, Token.sameAll_comm]
  case dictionary.dictionary x y => rwa [eq_comm]
  all_goals exact related.symm

private theorem bisimulation_swap {s : Store} {R : DictionaryId → DictionaryId → Prop}
    (bisimulation : s.Bisimulation R) : s.Bisimulation fun x y => R y x := by
  intro x y held
  obtain ⟨keys, values⟩ := bisimulation y x held
  refine ⟨fun key => (keys key).symm, ?_⟩
  intro key v w left right
  exact related_swap (values key w v right left)

private theorem bisimilar_swap {s : Store} {a b : Value}
    (bisimilar : ∃ R, s.Bisimulation R ∧ s.Related R a b) :
    ∃ R, s.Bisimulation R ∧ s.Related R b a := by
  obtain ⟨R, bisimulation, related⟩ := bisimilar
  exact ⟨fun x y => R y x, bisimulation_swap bisimulation, related_swap related⟩

private theorem related_reordered {s s' : Store} (reordered : s.Reordered s')
    {R : DictionaryId → DictionaryId → Prop} {a b : Value} :
    s'.Related R a b ↔ s.Related R a b := by
  cases a <;> cases b <;> simp only [Related, reordered.body]

private theorem bisimulation_reordered {s s' : Store} (reordered : s.Reordered s')
    {R : DictionaryId → DictionaryId → Prop} : s'.Bisimulation R ↔ s.Bisimulation R := by
  have values (d : DictionaryId) := Dictionary.get?_eq_of_perm (reordered.entries d)
  simp only [Bisimulation, Agree, Dictionary.mem_keys_iff, values, related_reordered reordered]

/-- Two values are equal exactly when a bisimulation relates them. So the order of the entries
does not matter, and neither does the order of the two values. -/
theorem same_eq_true_iff_bisimilar (s : Store) (a b : Value) :
    (s.same a b = true ↔ ∃ R, s.Bisimulation R ∧ s.Related R a b) ∧
      (∀ s', s.Reordered s' → s'.same a b = s.same a b) ∧ s.same b a = s.same a b := by
  refine ⟨s.same_iff_bisimilar a b, ?_, ?_⟩
  · intro s' reordered
    rw [Bool.eq_iff_iff, same_iff_bisimilar, same_iff_bisimilar]
    simp only [bisimulation_reordered reordered, related_reordered reordered]
  · rw [Bool.eq_iff_iff, same_iff_bisimilar, same_iff_bisimilar]
    exact ⟨bisimilar_swap, bisimilar_swap⟩

private def loops : Store :=
  ⟨#[], #[((Dictionary.empty 0).insert "self" (.dictionary ⟨0⟩)).insert "n" (.int 1),
    ((Dictionary.empty 0).insert "n" (.int 1)).insert "self" (.dictionary ⟨1⟩)]⟩

theorem same_loops :
    loops.same (.dictionary ⟨0⟩) (.dictionary ⟨1⟩) = true ∧
      loops.same (.dictionary ⟨1⟩) (.dictionary ⟨0⟩) = true := by
  have first : (loops.dictionary ⟨0⟩).entries = [("self", .dictionary ⟨0⟩), ("n", .int 1)] := rfl
  have second : (loops.dictionary ⟨1⟩).entries = [("n", .int 1), ("self", .dictionary ⟨1⟩)] := rfl
  obtain ⟨bisimilar, _, comm⟩ :=
    loops.same_eq_true_iff_bisimilar (.dictionary ⟨0⟩) (.dictionary ⟨1⟩)
  have equal : loops.same (.dictionary ⟨0⟩) (.dictionary ⟨1⟩) = true := by
    refine bisimilar.mpr ⟨fun x y => x = ⟨0⟩ ∧ y = ⟨1⟩, ?_, .inr ⟨rfl, rfl⟩⟩
    rintro _ _ ⟨rfl, rfl⟩
    refine ⟨fun key => by simp [Dictionary.keys, first, second, or_comm], ?_⟩
    intro key v w left right
    rw [Dictionary.get?_eq_some_iff, first] at left
    rw [Dictionary.get?_eq_some_iff, second] at right
    simp only [List.mem_cons, Prod.mk.injEq, List.not_mem_nil, or_false] at left right
    rcases left with ⟨rfl, rfl⟩ | ⟨rfl, rfl⟩
    · obtain ⟨_, rfl⟩ := right.resolve_left (by simp)
      exact .inr ⟨rfl, rfl⟩
    · obtain ⟨_, rfl⟩ := right.resolve_right (by simp)
      rfl
  exact ⟨equal, comm.trans equal⟩

end Store

end Stacklet
