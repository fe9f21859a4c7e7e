import Stacklet.Proofs.OperandUse
import Stacklet.Proofs.PairedRuns

set_option autoImplicit false
set_option relaxedAutoImplicit false

/-!
Values below what a program takes off the stack are neither read nor changed. The operators that
count or clear the whole stack are the exceptions, and no code that runs may name them; all code
that runs comes from the program or from the store, so it is enough that these do not.
-/

namespace Stacklet

/-- The names of the operators that depend on the whole stack. -/
def wholeStackNames : List String := ["count", "clear"]

def Change.framed (below : Stack) : Change → Change
  | .restack stack => .restack (stack ++ below)
  | c => c

def Effect.framed (below : Stack) : Effect → Effect
  | .change c => .change (c.framed below)
  | e => e

def Machine.framed (below : Stack) (m : Machine) : Machine :=
  { m with stack := m.stack ++ below }

theorem Operands.take_append {operator : String} {os : List Operand} {s rest : Stack}
    {operands : Operands os} (taken : take operator os s = (.ok operands, rest)) (below : Stack) :
    take operator os (s ++ below) = (.ok operands, rest ++ below) := by
  induction os generalizing s with
  | nil =>
      cases taken
      rfl
  | cons o os ih =>
      cases s with
      | nil => cases taken
      | cons v s =>
          simp only [take] at taken
          split at taken
          · cases taken
          · rename_i x read
            split at taken
            · rename_i xs left inner
              cases taken
              simp [take, read, ih inner]
            · cases taken

namespace Stack

private theorem exchange_append {s s' : Stack} (exchanged : exchange s = .ok s') (below : Stack) :
    exchange (s ++ below) = .ok (s' ++ below) := by
  unfold exchange at exchanged
  split at exchanged
  · cases exchanged
    rfl
  · cases exchanged

private theorem copy_append {count : Int} {s s' : Stack} (copied : copy count s = .ok s')
    (below : Stack) : copy count (s ++ below) = .ok (s' ++ below) := by
  unfold copy at copied ⊢
  split at copied
  · cases copied
  · rename_i positive
    split at copied
    · cases copied
    · rename_i enough
      cases copied
      have within : count.toNat ≤ s.length := Nat.not_lt.mp enough
      have enough' : ¬ (s ++ below).length < count.toNat := by
        rw [List.length_append]
        omega
      rw [if_neg positive, if_neg enough', List.take_append_of_le_length within,
        List.append_assoc]

end Stack

namespace Operator

private theorem ofName?_ne_of_not_wholeStack {word : String} {op : Operator}
    (found : ofName? word = some op) (free : wholeStackNames.contains word = false) :
    op ≠ .count ∧ op ≠ .clear := by
  have listed : ∀ entry ∈ table, entry.2 = .count ∨ entry.2 = .clear →
      wholeStackNames.contains entry.1 = true := by decide
  constructor
  · intro same
    rw [listed _ (ofName?_mem found) (.inl same)] at free
    cases free
  · intro same
    rw [listed _ (ofName?_mem found) (.inr same)] at free
    cases free

private theorem perform_framed {op : Operator} (notCount : op ≠ .count) (notClear : op ≠ .clear)
    {m : Machine} {operands : Operands op.signature} {e : Effect}
    (success : op.perform m operands = .ok e) (below : Stack) :
    op.perform (m.framed below) operands = .ok (e.framed below) := by
  cases op with
  | count => exact absurd rfl notCount
  | clear => exact absurd rfl notClear
  | exchange =>
      obtain ⟨stack, exchanged, value⟩ := bind_eq_ok_iff.mp success
      cases value
      exact bind_eq_ok_iff.mpr ⟨stack ++ below, Stack.exchange_append exchanged below, rfl⟩
  | copy =>
      obtain ⟨stack, copied, value⟩ := bind_eq_ok_iff.mp success
      cases value
      exact bind_eq_ok_iff.mpr ⟨stack ++ below, Stack.copy_append copied below, rfl⟩
  | arithmetic | transform | relation | leaveScope =>
      obtain ⟨result, computed, value⟩ := bind_eq_ok_iff.mp success
      cases value
      exact bind_eq_ok_iff.mpr ⟨result, computed, rfl⟩
  | makeDictionary | define | length =>
      have kept : e.framed below = e := by
        simp only [perform] at success
        split at success <;> cases success
        rfl
      rw [kept]
      exact success
  | element | interval =>
      obtain ⟨datum, found, value⟩ := bind_eq_ok_iff.mp success
      cases value
      refine bind_eq_ok_iff.mpr ⟨datum, found, ?_⟩
      cases datum <;> rfl
  | overwrite =>
      obtain ⟨revision, written, value⟩ := bind_eq_ok_iff.mp success
      cases value
      refine bind_eq_ok_iff.mpr ⟨revision, written, ?_⟩
      cases revision <;> rfl
  | _ =>
      cases success
      rfl

end Operator

namespace Machine

private theorem apply_framed (m : Machine) (c : Change) (below : Stack) :
    (m.framed below).apply (c.framed below) = (m.apply c).framed below := by
  cases c <;> simp [apply, framed, Change.framed]

private theorem invoke_framed {op : Operator} (notCount : op ≠ .count) (notClear : op ≠ .clear)
    {m : Machine} {e : Effect} {rest : Stack} (success : op.invoke m = (.ok e, rest))
    (below : Stack) :
    op.invoke (m.framed below) = (.ok (e.framed below), rest ++ below) := by
  unfold Operator.invoke at success ⊢
  split at success
  · rename_i operands left taken
    obtain ⟨performed, rfl⟩ := Prod.mk.inj success
    have taken' := Operands.take_append taken below
    have performed' := Operator.perform_framed notCount notClear performed below
    simp only [framed] at performed' ⊢
    rw [taken']
    simp only [performed']
  · cases success

private theorem resolve_framed {mode : ScopingMode} {t : Token}
    (free : t.mentions wholeStackNames = false) {m : Machine} {e : Effect} {rest : Stack}
    (success : m.resolve mode t = (.ok e, rest)) (below : Stack) :
    (m.framed below).resolve mode t = (.ok (e.framed below), rest ++ below) := by
  cases t with
  | define word =>
      simp only [resolve] at success ⊢
      split at success
      · cases success
      · rename_i v left split
        cases success
        simp [framed, split, Effect.framed, Change.framed]
  | name word =>
      simp only [resolve] at success ⊢
      split at success
      · rename_i op found
        obtain ⟨notCount, notClear⟩ := Operator.ofName?_ne_of_not_wholeStack found free
        exact invoke_framed notCount notClear success below
      · cases success
        have kept : (m.meaning mode word).framed below = m.meaning mode word := by
          unfold meaning
          split <;> rfl
        rw [kept]
        rfl
  | _ =>
      cases success
      rfl

/-- A run beside one with the values `below` under the stack, as long as the first succeeds. -/
private def framing (mode : ScopingMode) (below : Stack) : Pairing mode mode where
  sim := fun m m' => m' = m.framed below ∧
    m.store.Holds fun t => t.mentions wholeStackNames = false
  code := fun t => t.mentions wholeStackNames = false
  twin := Eq
  excused := fun _ => True
  twin_body := by
    rintro m _ p _ ⟨rfl, _⟩ rfl
    rfl
  code_body := by
    rintro m _ p _ ⟨rfl, held⟩ rfl
    exact held p
  push_int := by
    rintro m _ n ⟨rfl, held⟩
    exact ⟨rfl, held⟩
  set_depth := by
    rintro m _ f ⟨rfl, held⟩
    exact ⟨rfl, held⟩
  resolve := by
    rintro m _ t ⟨rfl, held⟩ free
    rcases answer : m.resolve mode t with ⟨e | effect, rest⟩
    · exact .excuse trivial
    · rw [resolve_framed free answer below]
      have stored : effect.Holds fun t => t.mentions wholeStackNames = false :=
        resolve_holds (Token.hereditary_mentions wholeStackNames) held free answer
      refine .effect ?_
      cases effect with
      | change c =>
          exact .change ⟨apply_framed { m with stack := rest } c below, apply_holds held stored⟩
      | quit => exact .quit ⟨rfl, held⟩
      | run body => exact .run ⟨rfl, held⟩ stored
      | times count p => exact .times ⟨rfl, held⟩ rfl
      | range first count p => exact .range ⟨rfl, held⟩ rfl

/-- The frame rule of the operand stack. A program that succeeds on a stack does the same with any
values below it and leaves these where they are, provided that neither the program nor the store
names an operator that depends on the whole stack. -/
theorem execute_framed (settings : Settings) (below : Stack) {tokens : List Token}
    {m after : Machine} {flow : Flow}
    (program : Token.anyMentions ["count", "clear"] tokens = false)
    (stored : ∀ p, Token.anyMentions ["count", "clear"] (m.store.body p) = false)
    (success : m.execute settings tokens = (.ok flow, after)) :
    ({ m with stack := m.stack ++ below } : Machine).execute settings tokens =
      (.ok flow, { after with stack := after.stack ++ below }) := by
  obtain ⟨mode, limit⟩ := settings
  have held : m.store.Holds fun t => t.mentions wholeStackNames = false := fun p =>
    (Token.anyMentions_eq_false_iff _ _).mp (stored p)
  have start : (framing mode below).sim m (m.framed below) := ⟨rfl, held⟩
  have matched := (framing mode below).execute_matched limit
    ((Token.anyMentions_eq_false_iff _ _).mp program) start rfl
  rw [success] at matched
  obtain ⟨_, ended, rfl, _⟩ := matched.exists_of_ok
  exact ended

/-- Copying, adding and a call of a defined procedure above a value that stays. -/
theorem execute_framed_copy :
    let start : Machine := { fresh with stack := [.int 2, .int 1] }
    let tokens : List Token :=
      [.number (.int 2), .name "copy", .name "add", .procedure [.name "exch"], .define "swap",
       .name "swap"]
    ∃ after, start.execute ⟨.dynamic, 5⟩ tokens = (.ok .completed, after) ∧
      after.stack = [.int 2, .int 3, .int 1] ∧
      ({ start with stack := start.stack ++ [.text "kept"] } : Machine).execute ⟨.dynamic, 5⟩
          tokens =
        (.ok .completed, { after with stack := after.stack ++ [.text "kept"] }) := by
  intro start tokens
  have stored : ∀ p, Token.anyMentions ["count", "clear"] (start.store.body p) = false := by
    intro p
    simp [start, fresh, Scopes.create, Store.addDictionary, Store.empty, Store.body,
      Token.anyMentions]
  exact ⟨_, rfl, rfl, execute_framed ⟨.dynamic, 5⟩ [.text "kept"] rfl stored rfl⟩

end Machine

end Stacklet
