import Stacklet.Proofs.BaseDictionary
import Stacklet.Proofs.Renaming

set_option autoImplicit false
set_option relaxedAutoImplicit false

/-!
What a scope does to names is undone when it is left. Definitions go to the innermost scope, so as
long as the scopes above a level are dictionaries apart from those below it, nothing below the level
changes, and every lookup is back where it was once they are closed.
-/

namespace Stacklet

inductive ScopeAction where
  | define (word : String) (value : Value)
  | enter (d : DictionaryId)
  | leave
  | make (capacity : Nat)

namespace ScopeAction

def perform : Scopes × Store → ScopeAction → Except RuntimeError (Scopes × Store)
  | (scopes, s), .define word value => .ok (scopes, scopes.define s word value)
  | (scopes, s), .enter d => .ok (scopes.enter d, s)
  | (scopes, s), .leave => do
      let (_, outer) ← scopes.leave
      return (outer, s)
  | (scopes, s), .make capacity =>
      .ok (scopes, (s.addDictionary (Dictionary.empty capacity)).2)

def performAll (actions : List ScopeAction) (state : Scopes × Store) :
    Except RuntimeError (Scopes × Store) :=
  actions.foldlM perform state

/-- How many scopes are open above some level after an action, if `opened` were before; none if the
action leaves the scope on that level. -/
def level? (opened : Nat) : ScopeAction → Option Nat
  | .enter _ => some (opened + 1)
  | .leave => if opened = 0 then none else some (opened - 1)
  | _ => some opened

def levelAfter? (actions : List ScopeAction) (opened : Nat) : Option Nat :=
  actions.foldlM level? opened

end ScopeAction

namespace Scopes

variable {scopes : Scopes} {s s' : Store}

theorem searched_subset_frames (scopes : Scopes) (mode : ScopingMode) :
    scopes.searched mode ⊆ scopes.frames := by
  cases mode with
  | dynamic => exact fun _ member => member
  | lexical => simp [searched, frames]

theorem find?_eq_of_entries {word : String} (same : ∀ e ∈ scopes.frames,
      (s'.dictionary e).get? (Token.stripSign word) = (s.dictionary e).get? (Token.stripSign word))
    (mode : ScopingMode) : scopes.find? s' mode word = scopes.find? s mode word := by
  have searched := scopes.searched_subset_frames mode
  unfold find?
  generalize scopes.searched mode = frames at searched ⊢
  induction frames with
  | nil => rfl
  | cons e outer ih =>
      obtain ⟨first, rest⟩ := List.cons_subset.mp searched
      rw [List.findSome?_cons, List.findSome?_cons, same e first, ih rest]

theorem lookup_eq_of_find?_eq {scopes' : Scopes} {mode : ScopingMode} {word : String}
    (same : scopes'.find? s' mode word = scopes.find? s mode word) :
    scopes'.lookup s' mode word = scopes.lookup s mode word := by
  simp only [lookup, same]

/-- Whether a lookup through all scopes gives the binding of the innermost scope that has the name,
and fails if no scope has it. -/
def LooksInnermostFirst (scopes : Scopes) (s : Store) (word : String) : Prop :=
  let bound (e : DictionaryId) : Option Value := (s.dictionary e).get? (Token.stripSign word)
  (∀ v, scopes.lookup s .dynamic word = .ok v ↔
    ∃ inner e outer, scopes.frames = inner ++ e :: outer ∧ bound e = some v ∧
      ∀ e' ∈ inner, bound e' = none) ∧
  (scopes.lookup s .dynamic word = .error (.nameNotFound (Token.stripSign word)) ↔
    ∀ e ∈ scopes.frames, bound e = none)

theorem looksInnermostFirst (scopes : Scopes) (s : Store) (word : String) :
    scopes.LooksInnermostFirst s word := by
  let bound (e : DictionaryId) : Option Value := (s.dictionary e).get? (Token.stripSign word)
  have found : scopes.find? s .dynamic word = scopes.frames.findSome? bound := rfl
  constructor
  · intro v
    rw [← List.findSome?_eq_some_iff, ← found, lookup]
    cases scopes.find? s .dynamic word <;> simp
  · rw [← List.findSome?_eq_none_iff, ← found, lookup]
    cases scopes.find? s .dynamic word <;> simp

/-- How scopes stand above a level: the scope `d` on it and those opened since are dictionaries
apart from the scopes below, and the scopes below have the entries that they had in `s`. -/
structure StandAbove (below : Scopes) (s : Store) (d : DictionaryId) (opened : List DictionaryId)
    (now : Scopes × Store) : Prop where
  scopes : now.1 = ⟨below.base, opened ++ d :: below.inner⟩
  apart : ∀ e ∈ opened ++ [d], e ∉ below.frames
  entries : ∀ e ∈ below.frames, ∀ key,
    (now.2.dictionary e).get? key = (s.dictionary e).get? key

namespace StandAbove

variable {below : Scopes} {d : DictionaryId} {opened : List DictionaryId} {now : Scopes × Store}

private theorem current_not_mem (above : StandAbove below s d opened now) :
    now.1.current ∉ below.frames := by
  apply above.apart
  rw [above.scopes]
  cases opened with
  | nil => simp [current]
  | cons e rest => simp [current]

private theorem get?_make (s : Store) (capacity : Nat) (e : DictionaryId) (key : String) :
    ((s.addDictionary (Dictionary.empty capacity)).2.dictionary e).get? key =
      (s.dictionary e).get? key := by
  rw [Store.dictionary_addDictionary]
  split
  · rename_i same
    have beyond : s.dictionary e = Dictionary.empty 0 :=
      Store.dictionary_of_size_le (by simp [same])
    rw [beyond, Dictionary.get?_empty, Dictionary.get?_empty]
  · rfl

/-- The step lemma: an action above the level works, and the scopes still stand above it. -/
private theorem perform {action : ScopeAction} {level : Nat}
    (above : StandAbove below s d opened now)
    (foreign : ∀ e, action = .enter e → e ∉ below.frames)
    (risen : action.level? opened.length = some level) :
    ∃ opened' now', action.perform now = .ok now' ∧ opened'.length = level ∧
      StandAbove below s d opened' now' := by
  obtain ⟨current, store⟩ := now
  have shape : current = ⟨below.base, opened ++ d :: below.inner⟩ := above.scopes
  cases action with
  | define word value =>
      obtain rfl : opened.length = level := Option.some.inj risen
      refine ⟨opened, _, rfl, rfl, above.scopes, above.apart, ?_⟩
      intro e member key
      have other : e ≠ current.current := fun same => above.current_not_mem (same ▸ member)
      have kept : (current.define store word value).dictionary e = store.dictionary e :=
        Store.dictionary_insert_of_ne store word value other
      simp only [kept]
      exact above.entries e member key
  | enter e =>
      obtain rfl : opened.length + 1 = level := Option.some.inj risen
      refine ⟨e :: opened, _, rfl, rfl, ?_, ?_, above.entries⟩
      · simp [Scopes.enter, shape]
      · exact List.forall_mem_cons.mpr ⟨foreign e rfl, above.apart⟩
  | leave =>
      cases opened with
      | nil => cases risen
      | cons e rest =>
          obtain rfl : rest.length = level := Option.some.inj risen
          refine ⟨rest, (⟨below.base, rest ++ d :: below.inner⟩, store), ?_, rfl, rfl,
            (List.forall_mem_cons.mp above.apart).2, above.entries⟩
          rw [shape]
          rfl
  | make capacity =>
      obtain rfl : opened.length = level := Option.some.inj risen
      refine ⟨opened, _, rfl, rfl, above.scopes, above.apart, ?_⟩
      intro e member key
      rw [get?_make]
      exact above.entries e member key

/-- The run lemma: actions that never leave the scope on the level all work. -/
private theorem performAll {actions : List ScopeAction} {level : Nat}
    (above : StandAbove below s d opened now)
    (foreign : ∀ e, .enter e ∈ actions → e ∉ below.frames)
    (risen : ScopeAction.levelAfter? actions opened.length = some level) :
    ∃ opened' now', ScopeAction.performAll actions now = .ok now' ∧ opened'.length = level ∧
      StandAbove below s d opened' now' := by
  induction actions generalizing opened now with
  | nil => exact ⟨opened, now, rfl, Option.some.inj risen, above⟩
  | cons action rest ih =>
      rw [ScopeAction.levelAfter?, List.foldlM_cons] at risen
      obtain ⟨between, first, later⟩ := Option.bind_eq_some_iff.mp risen
      obtain ⟨opened', now', performed, rfl, above'⟩ :=
        above.perform (fun e same => foreign e (by simp [same])) first
      obtain ⟨opened'', now'', performed', length, above''⟩ :=
        ih above' (fun e member => foreign e (by simp [member])) later
      refine ⟨opened'', now'', ?_, length, above''⟩
      rw [ScopeAction.performAll, List.foldlM_cons, performed]
      exact performed'

private theorem lookup_lexical (above : StandAbove below s d opened now) (word : String) :
    now.1.lookup now.2 .lexical word = below.lookup s .lexical word := by
  apply lookup_eq_of_find?_eq
  rw [find?_lexical, find?_lexical, above.scopes]
  exact above.entries below.base (by simp [frames]) _

end StandAbove

/-- Leaving a scope brings every lookup back. Enter a dictionary that is no scope yet, and then
define names, enter dictionaries that are no scopes below it and leave them, without ever leaving
the first one and with as many scopes left as entered in the end. All of this works, and leaving
the first scope then gives the scopes that there were, with which every lookup in both modes gives
the value or the error that it gave before. At every point on the way the scopes from before lie
below the first one, a lookup through all scopes gives the binding of the innermost one that has the
name, and a lookup in the base dictionary gives what it gave before. -/
theorem lookups_restored_by_leaving (below : Scopes) (s : Store) {d : DictionaryId}
    (new : d ∉ below.frames) {actions : List ScopeAction}
    (foreign : ∀ e, .enter e ∈ actions → e ∉ below.frames)
    (balanced : ScopeAction.levelAfter? actions 0 = some 0) :
    (∃ inside after, ScopeAction.performAll actions (below.enter d, s) = .ok (inside, after) ∧
      inside.leave = .ok (d, below) ∧
      ∀ mode word, below.lookup after mode word = below.lookup s mode word) ∧
    ∀ earlier later, actions = earlier ++ later →
      ∃ now store, ScopeAction.performAll earlier (below.enter d, s) = .ok (now, store) ∧
        (∃ opened, now.frames = opened ++ d :: below.frames) ∧
        (∀ word, now.LooksInnermostFirst store word) ∧
        ∀ word, now.lookup store .lexical word = below.lookup s .lexical word := by
  have start : StandAbove below s d [] (below.enter d, s) :=
    ⟨rfl, by simpa using new, fun _ _ _ => rfl⟩
  constructor
  · obtain ⟨opened, ⟨inside, after⟩, performed, length, above⟩ := start.performAll foreign balanced
    obtain rfl : opened = [] := List.length_eq_zero_iff.mp length
    refine ⟨inside, after, performed, ?_, ?_⟩
    · have scopes : inside = below.enter d := above.scopes
      rw [scopes, leave_enter]
    · intro mode word
      exact lookup_eq_of_find?_eq
        (find?_eq_of_entries (fun e member => above.entries e member _) mode)
  · rintro earlier later rfl
    rw [ScopeAction.levelAfter?, List.foldlM_append] at balanced
    obtain ⟨level, risen, _⟩ := Option.bind_eq_some_iff.mp balanced
    obtain ⟨opened, ⟨now, store⟩, performed, _, above⟩ :=
      start.performAll (fun e member => foreign e (by simp [member])) risen
    refine ⟨now, store, performed, ⟨opened, ?_⟩, now.looksInnermostFirst store,
      above.lookup_lexical⟩
    have scopes : now = ⟨below.base, opened ++ d :: below.inner⟩ := above.scopes
    simp [scopes, frames]

/-- A scope that is entered a second time above itself, and one that is made on the way. The name
that all of them bind has its first value again in the end. -/
theorem lookups_restored_by_leaving_again :
    let s : Store := ⟨#[], #[(Dictionary.empty 0).insert "x" (.int 5), Dictionary.empty 1,
      Dictionary.empty 10, Dictionary.empty 10]⟩
    let below : Scopes := ⟨⟨0⟩, [⟨1⟩]⟩
    let actions : List ScopeAction :=
      [.define "x" (.int 20), .enter ⟨3⟩, .define "x" (.int 30), .make 10, .enter ⟨2⟩,
       .define "x" (.int 40), .leave, .enter ⟨4⟩, .define "y" (.text "x"), .leave, .leave]
    ∃ inside after, ScopeAction.performAll actions (below.enter ⟨2⟩, s) = .ok (inside, after) ∧
      inside.lookup after .dynamic "/x" = .ok (.int 40) ∧
      inside.lookup after .lexical "x" = .ok (.int 5) ∧
      inside.leave = .ok (⟨2⟩, below) ∧ below.lookup after .dynamic "x" = .ok (.int 5) ∧
      below.lookup after .dynamic "y" = .error (.nameNotFound "y") := by
  intro s below actions
  have foreign : ∀ e, .enter e ∈ actions → e ∉ below.frames := by
    intro e member
    simp only [actions, List.mem_cons, List.not_mem_nil, reduceCtorEq, ScopeAction.enter.injEq,
      false_or, or_false] at member
    rcases member with rfl | rfl | rfl <;> decide
  obtain ⟨⟨inside, after, performed, left, restored⟩, throughout⟩ :=
    lookups_restored_by_leaving below s (d := ⟨2⟩) (by decide) foreign rfl
  have found : inside.lookup after .dynamic "/x" = .ok (.int 40) := by
    cases performed
    rfl
  obtain ⟨_, _, performed', _, _, lexical⟩ := throughout actions [] (List.append_nil _).symm
  cases performed.symm.trans performed'
  refine ⟨inside, after, performed, found, ?_, left, ?_, ?_⟩
  · rw [lexical]
    rfl
  · rw [restored]
    rfl
  · rw [restored]
    rfl

-- A dictionary that is a scope already leaks: what is defined in it above is found below.
example :
    let s : Store := ⟨#[], #[Dictionary.empty 0]⟩
    let base : Scopes := ⟨⟨0⟩, []⟩
    (ScopeAction.performAll [.define "x" (.int 1)] (base.enter base.base, s)).map
        (fun now => base.lookup now.2 .dynamic "x") = .ok (.ok (.int 1)) ∧
      base.lookup s .dynamic "x" = .error (.nameNotFound "x") :=
  ⟨rfl, rfl⟩

end Scopes

end Stacklet
