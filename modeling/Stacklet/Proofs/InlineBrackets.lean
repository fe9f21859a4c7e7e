import Stacklet.Proofs.PairedRuns
import Stacklet.Proofs.SourceJoin

set_option autoImplicit false
set_option relaxedAutoImplicit false

/-!
Square brackets can be left out. What stands in them runs where it stands, and all that a bracket
adds is a level of nesting: without it everything inside runs one level higher, where there is more
room. The depth is seen by nothing but the limit.
-/

namespace Stacklet

namespace Token

mutual

/-- The tokens that are left of a token without square brackets. A procedure keeps the brackets
inside it. -/
def unbracket : Token → List Token
  | .inline body => unbracketAll body
  | t => [t]

def unbracketAll : List Token → List Token
  | [] => []
  | t :: ts => t.unbracket ++ unbracketAll ts

end

theorem inline_induction {motive : List Token → Prop} (nil : motive [])
    (inline : ∀ body ts, motive body → motive ts → motive (.inline body :: ts))
    (other : ∀ t ts, t.unbracket = [t] → motive ts → motive (t :: ts)) : ∀ ts, motive ts
  | [] => nil
  | t :: ts => by
      have rest := inline_induction nil inline other ts
      cases t with
      | inline body => exact inline body ts (inline_induction nil inline other body) rest
      | _ => exact other _ ts rfl rest

end Token

namespace Machine

variable {settings : Settings}

theorem resolve_set_depth (m : Machine) (mode : ScopingMode) (depth : Nat) (t : Token) :
    ({ m with depth := depth } : Machine).resolve mode t = m.resolve mode t := by
  cases t with
  | name word =>
      simp only [resolve]
      split
      · rename_i op _
        cases op <;> rfl
      · rfl
  | _ => rfl

theorem apply_set_depth (m : Machine) (depth : Nat) (c : Change) :
    ({ m with depth := depth } : Machine).apply c = { m.apply c with depth := depth } := by
  cases c <;> rfl

/-- A run beside one on a higher level, until the first runs out of room. -/
private def higher (mode : ScopingMode) : Pairing mode mode where
  sim := fun m m' => ∃ depth, m' = { m with depth := depth }
  code := fun _ => True
  twin := Eq
  excused := fun e => e.kind = .stackOverflow
  twin_body := by
    rintro m _ p _ ⟨depth, rfl⟩ rfl
    rfl
  code_body := fun _ _ _ _ => trivial
  push_int := by
    rintro m _ n ⟨depth, rfl⟩
    exact ⟨depth, rfl⟩
  set_depth := by
    rintro m _ f ⟨depth, rfl⟩
    exact ⟨f depth, rfl⟩
  resolve := by
    rintro m _ t ⟨depth, rfl⟩ -
    rw [resolve_set_depth m mode depth t]
    rcases m.resolve mode t with ⟨e | effect, left⟩
    · exact .failure ⟨depth, rfl⟩
    · refine .effect ?_
      cases effect with
      | change c => exact .change ⟨depth, apply_set_depth { m with stack := left } depth c⟩
      | quit => exact .quit ⟨depth, rfl⟩
      | run body => exact .run ⟨depth, rfl⟩ fun _ _ => trivial
      | times count p => exact .times ⟨depth, rfl⟩ rfl
      | range first count p => exact .range ⟨depth, rfl⟩ rfl

private def Within (result : Outcome × Machine) : Prop :=
  ∀ e, result.1 = .error e → e.kind ≠ .stackOverflow

private theorem execute_of_depth_le {tokens : List Token} {m : Machine} {depth : Nat}
    (le : depth ≤ m.depth) (within : Within (m.execute settings tokens)) :
    ({ m with depth := depth } : Machine).execute settings tokens =
      ((m.execute settings tokens).1, { (m.execute settings tokens).2 with depth := depth }) := by
  have rooms : settings.limit - m.depth ≤ settings.limit - depth := by omega
  have matched : Matched (higher settings.mode).sim _ (m.execute settings tokens)
      (({ m with depth := depth } : Machine).execute settings tokens) :=
    (higher settings.mode).nested_matched (.inr ⟨rooms, rfl⟩) tokens m _ (fun _ _ => trivial)
      ⟨depth, rfl⟩
  have level := depth_execute settings tokens { m with depth := depth }
  generalize m.execute settings tokens = result at within matched ⊢
  generalize ({ m with depth := depth } : Machine).execute settings tokens = other
    at matched level ⊢
  cases matched with
  | same related =>
      obtain ⟨_, rfl⟩ := related
      cases level
      rfl
  | excuse overflow => exact absurd overflow (within _ rfl)

theorem execute_inline {m : Machine} (room : m.depth < settings.limit)
    (body : List Token) :
    m.execute settings [.inline body] =
      let (outcome, after) := ({ m with depth := m.depth + 1 } : Machine).execute settings body
      (outcome, { after with depth := m.depth }) := by
  rw [execute_singleton room]
  rfl

/-- A bracket can be left out around tokens that run within the limit inside it. -/
private theorem execute_body_eq_inline {m : Machine} {body : List Token}
    (within : Within (m.execute settings [.inline body])) :
    m.execute settings body = m.execute settings [.inline body] := by
  by_cases room : m.depth < settings.limit
  · rw [execute_inline room] at within ⊢
    exact execute_of_depth_le (m := { m with depth := m.depth + 1 }) (Nat.le_succ _) within
  · rw [execute_of_le (Nat.not_lt.mp room)] at within
    exact absurd rfl (within _ rfl)

theorem execute_cons (t : Token) (ts : List Token) (m : Machine) :
    m.execute settings (t :: ts) =
      andThen (m.execute settings [t]) fun n => n.execute settings ts :=
  execute_append settings [t] ts m

private theorem andThen_eq_of_within {result result' : Outcome × Machine}
    {next next' : Machine → Outcome × Machine} (within : Within (andThen result next))
    (first : Within result → result' = result)
    (rest : ∀ m, Within (next m) → next' m = next m) :
    andThen result' next' = andThen result next := by
  obtain ⟨outcome, m⟩ := result
  by_cases completed : outcome = .ok .completed
  · subst completed
    rw [first nofun]
    exact rest m within
  · rw [andThen_of_ne_completed completed] at within ⊢
    rw [first within, andThen_of_ne_completed completed]

/-- Square brackets can be left out. A program that runs within the limit ends in the same way and
in the same state without its square brackets, those inside procedures apart. -/
theorem execute_unbracketAll (settings : Settings) (tokens : List Token) (m : Machine)
    (within : ∀ e, (m.execute settings tokens).1 = .error e → e.kind ≠ .stackOverflow) :
    m.execute settings (Token.unbracketAll tokens) = m.execute settings tokens := by
  induction tokens using Token.inline_induction generalizing m with
  | nil => rfl
  | inline body ts inside rest =>
      rw [execute_cons] at within ⊢
      rw [Token.unbracketAll, execute_append]
      refine andThen_eq_of_within within (fun inner => ?_) rest
      -- The outer bracket goes first: only around the tokens as they stand is the run known to stay
      -- within the limit.
      have outside := execute_body_eq_inline inner
      rw [← outside] at inner ⊢
      exact inside m inner
  | other t ts alone rest =>
      rw [execute_cons] at within ⊢
      rw [Token.unbracketAll, alone, execute_append]
      exact andThen_eq_of_within within (fun _ => rfl) rest

/-- A program of three levels needs one when its brackets are left out. It ends itself inside them,
with the rest of each bracket and of the program not run. -/
theorem execute_unbracketAll_quit :
    let tokens : List Token :=
      [.number (.int 1), .inline [.define "x", .inline [.name "x", .name "quit"], .name "pop"],
       .procedure [.inline [.name "x"]]]
    let plain : List Token :=
      [.number (.int 1), .define "x", .name "x", .name "quit", .name "pop",
       .procedure [.inline [.name "x"]]]
    (fresh.execute ⟨.dynamic, 2⟩ tokens).1 = .error (.nestingExceeded 2) ∧
      (fresh.execute ⟨.dynamic, 3⟩ tokens).1 = .ok .terminated ∧
      Token.unbracketAll tokens = plain ∧
      fresh.execute ⟨.dynamic, 3⟩ plain = fresh.execute ⟨.dynamic, 3⟩ tokens := by
  intro tokens plain
  have terminated : (fresh.execute ⟨.dynamic, 3⟩ tokens).1 = .ok .terminated := by rfl
  refine ⟨by rfl, terminated, rfl, execute_unbracketAll ⟨.dynamic, 3⟩ tokens fresh ?_⟩
  intro e failed
  rw [terminated] at failed
  cases failed

end Machine

end Stacklet
