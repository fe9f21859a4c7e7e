import Stacklet.Proofs.DepthCounter
import Stacklet.Proofs.IntegerArithmetic

set_option autoImplicit false
set_option relaxedAutoImplicit false

/-!
What the loops run. The loop over integers is a fold over the words between its bounds, in their
order and both bounds included, and the other one over as many rounds as it is given. Each round
calls the procedure as it is by then, so a loop can be cut anywhere between its bounds even if the
procedure is overwritten on the way.
-/

namespace Stacklet

namespace Word

def between (a b : Int64) : List Int64 :=
  (List.range (b.toInt - a.toInt + 1).toNat).map fun k : Nat => Int64.ofInt (a.toInt + k)

variable {a b c : Int64}

theorem toInt_ofInt_add {k : Nat} (within : k < (b.toInt - a.toInt + 1).toNat) :
    (Int64.ofInt (a.toInt + k)).toInt = a.toInt + k := by
  have low := a.le_toInt
  have high := b.toInt_lt
  exact Int64.toInt_ofInt_of_le (by omega) (by omega)

theorem mem_between_iff (i : Int64) : i ∈ between a b ↔ a ≤ i ∧ i ≤ b := by
  rw [Int64.le_iff_toInt_le, Int64.le_iff_toInt_le]
  simp only [between, List.mem_map, List.mem_range]
  constructor
  · rintro ⟨k, within, rfl⟩
    rw [toInt_ofInt_add within]
    omega
  · rintro ⟨low, high⟩
    refine ⟨(i.toInt - a.toInt).toNat, by omega, ?_⟩
    have reached : a.toInt + ((i.toInt - a.toInt).toNat : Int) = i.toInt := by omega
    rw [reached, Int64.ofInt_toInt]

theorem pairwise_between (a b : Int64) : (between a b).Pairwise (· < ·) := by
  rw [between, List.pairwise_map]
  refine List.pairwise_lt_range.imp_of_mem ?_
  intro j k first second less
  rw [Int64.lt_iff_toInt_lt, toInt_ofInt_add (List.mem_range.mp first),
    toInt_ofInt_add (List.mem_range.mp second)]
  omega

theorem toInt_succ (below : c < b) : (c + 1).toInt = c.toInt + 1 := by
  rw [Int64.lt_iff_toInt_lt] at below
  have low := c.le_toInt
  have high := b.toInt_lt
  exact toInt_add_of_fits ⟨by change _ ≤ c.toInt + 1; omega, by change c.toInt + 1 ≤ _; omega⟩

theorem between_append (least : a ≤ c) (below : c < b) :
    between a b = between a c ++ between (c + 1) b := by
  have next := toInt_succ below
  rw [Int64.le_iff_toInt_le] at least
  rw [Int64.lt_iff_toInt_lt] at below
  have count : (b.toInt - a.toInt + 1).toNat =
      (c.toInt - a.toInt + 1).toNat + (b.toInt - (c + 1).toInt + 1).toNat := by omega
  rw [between, count, List.range_add, List.map_append, List.map_map, between, between]
  congr 1
  refine List.map_congr_left fun k _ => congrArg Int64.ofInt ?_
  push_cast
  omega

end Word

namespace Machine

/-- Carries out an action for each element in turn, as long as none fails or ends the program. -/
def inTurn {α : Type} (action : α → Machine → Outcome × Machine) (xs : List α) (m : Machine) :
    Outcome × Machine :=
  xs.foldl (fun result x => andThen result (action x)) (.ok .completed, m)

section Folds

variable {α : Type} (action : α → Machine → Outcome × Machine)

theorem foldl_andThen (xs : List α) (result : Outcome × Machine) :
    xs.foldl (fun result x => andThen result (action x)) result =
      andThen result (inTurn action xs) := by
  induction xs generalizing result with
  | nil => exact (andThen_done result).symm
  | cons x xs ih =>
      have after : inTurn action (x :: xs) = fun m => andThen (action x m) (inTurn action xs) :=
        funext fun m => ih (action x m)
      rw [List.foldl_cons, ih, after, andThen_assoc]

theorem inTurn_cons (x : α) (xs : List α) (m : Machine) :
    inTurn action (x :: xs) m = andThen (action x m) (inTurn action xs) :=
  foldl_andThen action xs (action x m)

theorem inTurn_append (xs ys : List α) (m : Machine) :
    inTurn action (xs ++ ys) m = andThen (inTurn action xs m) (inTurn action ys) := by
  rw [inTurn, List.foldl_append]
  exact foldl_andThen action ys (inTurn action xs m)

end Folds

theorem andThen_congr_of_depth {result : Outcome × Machine} {f g : Machine → Outcome × Machine}
    (same : ∀ m : Machine, m.depth = result.2.depth → f m = g m) :
    andThen result f = andThen result g := by
  obtain ⟨outcome, m⟩ := result
  by_cases completed : outcome = .ok .completed
  · subst completed
    exact same m rfl
  · rw [andThen_of_ne_completed completed, andThen_of_ne_completed completed]

def runFor (settings : Settings) (p : ProcedureId) (a b : Int64) (m : Machine) :
    Outcome × Machine :=
  (Task.token (.name "for")).result settings
    { m with stack := .procedure p :: .int b :: .int a :: m.stack }

def runRepeat (settings : Settings) (p : ProcedureId) (n : Int64) (m : Machine) :
    Outcome × Machine :=
  (Task.token (.name "repeat")).result settings
    { m with stack := .procedure p :: .int n :: m.stack }

variable {settings : Settings} {room : Nat}

def round (settings : Settings) (p : ProcedureId) (i : Int64) (m : Machine) : Outcome × Machine :=
  (m.push (.int i)).call settings p

/-- The room for more levels is the same in every round, because each hands the depth back. -/
theorem runRange_eq_inTurn (p : ProcedureId) (count : Nat) (i : Int) {m : Machine}
    (rooms : room = settings.limit - m.depth) :
    runRange (nested settings room) p count i m =
      inTurn (round settings p) ((List.range count).map fun k : Nat => Int64.ofInt (i + k)) m := by
  induction count generalizing i m with
  | zero => rfl
  | succ count ih =>
      have indices : (List.range (count + 1)).map (fun k : Nat => Int64.ofInt (i + k)) =
          Int64.ofInt i :: (List.range count).map fun k : Nat => Int64.ofInt (i + 1 + k) := by
        rw [List.range_succ_eq_map, List.map_cons, List.map_map, Nat.cast_zero, Int.add_zero]
        refine congrArg _ (List.map_congr_left fun k _ => congrArg Int64.ofInt ?_)
        push_cast
        omega
      have entered : nested settings room (m.store.body p) (m.push (.int (Int64.ofInt i))) =
          round settings p (Int64.ofInt i) m := by
        rw [rooms]
        rfl
      rw [indices, inTurn_cons, runRange, entered]
      refine andThen_congr_of_depth fun after depth => ih (i + 1) ?_
      rw [rooms, depth]
      exact congrArg (settings.limit - ·) (depth_execute settings _ (m.push _)).symm

theorem runTimes_eq_inTurn (p : ProcedureId) (count : Nat) {m : Machine}
    (rooms : room = settings.limit - m.depth) :
    runTimes (nested settings room) p count m =
      inTurn (fun _ => call settings p) (List.replicate count ()) m := by
  induction count generalizing m with
  | zero => rfl
  | succ count ih =>
      have entered : nested settings room (m.store.body p) m = m.call settings p := by
        rw [rooms]
        rfl
      rw [List.replicate_succ, inTurn_cons, runTimes, entered]
      refine andThen_congr_of_depth fun after depth => ih ?_
      rw [rooms, depth]
      exact congrArg (settings.limit - ·) (depth_execute settings _ m).symm

theorem runFor_eq_inTurn (p : ProcedureId) (a b : Int64) (m : Machine) :
    runFor settings p a b m = inTurn (round settings p) (Word.between a b) m := by
  have listed : Operator.ofName? "for" = some .forRange := by decide
  have asked : ({ m with stack := .procedure p :: .int b :: .int a :: m.stack } : Machine).resolve
      settings.mode (.name "for") = _ := resolve_forRange listed rfl
  simp only [runFor, Task.result, Task.run, step, asked, perform]
  exact runRange_eq_inTurn p _ a.toInt rfl

theorem runRepeat_eq_inTurn (p : ProcedureId) (n : Int64) (m : Machine) :
    runRepeat settings p n m =
      inTurn (fun _ => call settings p) (List.replicate (max n.toInt 0).toNat ()) m := by
  have listed : Operator.ofName? "repeat" = some .times := by decide
  have count : (max n.toInt 0).toNat = n.toInt.toNat := by omega
  have asked : ({ m with stack := .procedure p :: .int n :: m.stack } : Machine).resolve
      settings.mode (.name "repeat") = _ := resolve_times listed rfl
  simp only [runRepeat, Task.result, Task.run, step, asked, perform, count]
  exact runTimes_eq_inTurn p _ rfl

/-- Loops run exactly their range, in order, and call their procedure as it is by then. The loop
over integers is a fold over the words between its bounds, the last one included, of which each is
pushed before the call; the other loop is a fold over as many calls. Both end with the first round
that fails or ends the program. So a loop over integers that is cut in two runs the same, whatever
its rounds do to the procedure. -/
theorem loops_run_their_range (settings : Settings) (p : ProcedureId) (m : Machine) :
    (∀ a b : Int64,
      (Word.between a b).Pairwise (· < ·) ∧ (∀ i, i ∈ Word.between a b ↔ a ≤ i ∧ i ≤ b) ∧
      m.runFor settings p a b =
        m.inTurn (fun i before => (before.push (.int i)).call settings p) (Word.between a b)) ∧
    (∀ n : Int64, m.runRepeat settings p n =
      m.inTurn (fun _ before => before.call settings p)
        (List.replicate (max n.toInt 0).toNat ())) ∧
    ∀ a b c : Int64, a ≤ c → c < b →
      m.runFor settings p a b =
        andThen (m.runFor settings p a c) (runFor settings p (c + 1) b) := by
  refine ⟨?_, fun n => runRepeat_eq_inTurn p n m, ?_⟩
  · intro a b
    exact ⟨Word.pairwise_between a b, Word.mem_between_iff, runFor_eq_inTurn p a b m⟩
  · intro a b c least below
    have rest : runFor settings p (c + 1) b = inTurn (round settings p) (Word.between (c + 1) b) :=
      funext fun between => runFor_eq_inTurn p (c + 1) b between
    rw [runFor_eq_inTurn, runFor_eq_inTurn, rest, Word.between_append least below, inTurn_append]

/-- A procedure that overwrites its beginning in the first round and ends the program in the second
one, which is the one for the greatest integer. -/
theorem loops_run_their_range_overwrite :
    let body : List Token := [.name "exch", .number (.int 0),
      .procedure [.name "neg", .name "quit"], .name "putinterval", .name "exch"]
    let m : Machine := fresh.apply (.makeProcedure body)
    let settings : Settings := ⟨.dynamic, 1⟩
    let last := Int64.maxValue
    let whole := m.runFor settings ⟨0⟩ (last - 1) last
    let first := m.runFor settings ⟨0⟩ (last - 1) (last - 1)
    whole = andThen first (runFor settings ⟨0⟩ last last) ∧
      first.1 = .ok .completed ∧ first.2.stack = [.int (last - 1), .procedure ⟨0⟩] ∧
      (first.2.store.body ⟨0⟩).take 2 = [.name "neg", .name "quit"] ∧
      whole.1 = .ok .terminated ∧
      whole.2.stack = [.int (-last), .int (last - 1), .procedure ⟨0⟩] := by
  intro body m settings last whole first
  have cut : whole = andThen first (runFor settings ⟨0⟩ (last - 1 + 1) last) :=
    (loops_run_their_range settings ⟨0⟩ m).2.2 (last - 1) last (last - 1) (by decide) (by decide)
  have after : last - 1 + 1 = last := by decide
  rw [after] at cut
  refine ⟨cut, ?_⟩
  clear cut after
  subst first whole last settings m body
  refine ⟨?_, ?_, ?_, ?_, ?_⟩ <;> rfl

end Machine

end Stacklet
