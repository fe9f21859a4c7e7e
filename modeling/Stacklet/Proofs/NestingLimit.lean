import Stacklet.Proofs.PairedRuns

set_option autoImplicit false
set_option relaxedAutoImplicit false

/-!
The limit of nesting only ever cuts a run short: a run that stays within it is the same run under
every higher limit.
-/

namespace Stacklet.Machine

/-- A run beside a second one with more room, until the first runs out of it. -/
private def roomier (mode : ScopingMode) : Pairing mode mode where
  sim := Eq
  code := fun _ => True
  twin := Eq
  excused := fun e => e.kind = .stackOverflow
  twin_body := by
    rintro m _ p _ rfl rfl
    rfl
  code_body := fun _ _ _ _ => trivial
  push_int := by
    rintro m _ n rfl
    rfl
  set_depth := by
    rintro m _ f rfl
    rfl
  resolve := by
    rintro m _ t rfl -
    rcases m.resolve mode t with ⟨e | effect, rest⟩
    · exact .failure rfl
    · refine .effect ?_
      cases effect with
      | change c => exact .change rfl
      | quit => exact .quit rfl
      | run body => exact .run rfl fun _ _ => trivial
      | times count p => exact .times rfl rfl
      | range first count p => exact .range rfl rfl

/-- A run that does not overflow the limit ends in the same way and in the same state under every
higher limit. -/
theorem execute_eq_of_limit_le (mode : ScopingMode) {limit limit' : Nat} (le : limit ≤ limit')
    (tokens : List Token) (m : Machine)
    (within : ∀ e, (m.execute ⟨mode, limit⟩ tokens).1 = .error e → e.kind ≠ .stackOverflow) :
    m.execute ⟨mode, limit'⟩ tokens = m.execute ⟨mode, limit⟩ tokens := by
  have rooms : limit - m.depth ≤ limit' - m.depth := Nat.sub_le_sub_right le m.depth
  have matched : Matched Eq _ (m.execute ⟨mode, limit⟩ tokens) (m.execute ⟨mode, limit'⟩ tokens) :=
    (roomier mode).nested_matched (.inr ⟨rooms, rfl⟩) tokens m m (fun _ _ => trivial) rfl
  generalize m.execute ⟨mode, limit⟩ tokens = result at within matched ⊢
  generalize m.execute ⟨mode, limit'⟩ tokens = result' at matched ⊢
  cases matched with
  | same equal => rw [equal]
  | excuse overflow => exact absurd overflow (within _ rfl)

/-- A loop over a procedure that calls another one takes three levels; more room changes nothing. -/
theorem execute_loop_eq_of_limit_le :
    let tokens : List Token :=
      [.procedure [.number (.int 2), .name "mul"], .define "twice", .number (.int 3),
       .number (.int 2), .procedure [.name "twice"], .name "repeat"]
    (fresh.execute ⟨.dynamic, 2⟩ tokens).1 = .error (.nestingExceeded 2) ∧
      (fresh.execute ⟨.dynamic, 3⟩ tokens).1 = .ok .completed ∧
      fresh.execute ⟨.dynamic, 10000⟩ tokens = fresh.execute ⟨.dynamic, 3⟩ tokens := by
  intro tokens
  have completed : (fresh.execute ⟨.dynamic, 3⟩ tokens).1 = .ok .completed := by rfl
  refine ⟨by rfl, completed, execute_eq_of_limit_le .dynamic (by decide) tokens fresh ?_⟩
  intro e failed
  rw [completed] at failed
  cases failed

end Stacklet.Machine
