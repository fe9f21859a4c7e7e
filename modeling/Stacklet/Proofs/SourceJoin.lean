import Stacklet.Interpreter
import Stacklet.Proofs.Evaluation
import Stacklet.Proofs.NewlineScan
import Stacklet.Proofs.TokenStructure

set_option autoImplicit false
set_option relaxedAutoImplicit false

/-!
Two sources joined by a newline. When the first reads by itself, the whole reads as the first and
then the second, with the errors of the second moved to where they now stand, and running the whole
is running one after the other.
-/

namespace Stacklet

def Span.shift (bytes : Nat) (s : Span) : Span := ⟨s.start + bytes, s.stop + bytes⟩

namespace SourceError

def shift (bytes : Nat) (e : SourceError) : SourceError := { e with span := e.span.shift bytes }

/-- What is read `bytes` further on: something made of the same, or the same error there. -/
def relocate {α β : Type} (bytes : Nat) (f : α → β) : Except SourceError α → Except SourceError β
  | .ok a => .ok (f a)
  | .error e => .error (e.shift bytes)

end SourceError

open SourceError (relocate)

namespace Lexeme

def shiftAll (bytes : Nat) (lexemes : List (Lexeme × Span)) : List (Lexeme × Span) :=
  lexemes.map fun entry => (entry.1, entry.2.shift bytes)

theorem spanOf_shift (bytes offset n : Nat) (cs : List Char) :
    spanOf (offset + bytes) n cs = (spanOf offset n cs).shift bytes := by
  simp only [spanOf, Span.shift, Span.mk.injEq, true_and]
  omega

theorem scanFrom_shift (bytes : Nat) (before found : List (Lexeme × Span)) (offset pending : Nat)
    (cs : List Char) :
    scanFrom (shiftAll bytes found ++ before.reverse) (offset + bytes) pending cs =
      relocate bytes (before ++ shiftAll bytes ·) (scanFrom found offset pending cs) := by
  induction cs generalizing found offset pending with
  | nil => simp [scanFrom, relocate, shiftAll]
  | cons c cs ih =>
      have further : offset + bytes + c.utf8Size = offset + c.utf8Size + bytes := by omega
      cases pending with
      | succ pending =>
          rw [scanFrom, scanFrom, further]
          exact ih found _ pending
      | zero =>
          rw [scanFrom, scanFrom, further]
          cases Piece.next c cs with
          | gap n => exact ih found _ _
          | lexeme l n =>
              simp only [spanOf_shift]
              exact ih ((l, spanOf offset n (c :: cs)) :: found) _ _
          | tooLarge n => simp only [relocate, SourceError.shift, spanOf_shift]
          | unexpected n => simp only [relocate, SourceError.shift, spanOf_shift]

theorem scan_join_newline {a : String} {lexemes : List (Lexeme × Span)}
    (scanned : scan a = .ok lexemes) (b : String) :
    scan (a ++ "\n" ++ b) =
      relocate (byteLength a.toList + 1)
        (lexemes ++ shiftAll (byteLength a.toList + 1) ·) (scan b) := by
  have characters : (a ++ "\n" ++ b).toList = a.toList ++ '\n' :: b.toList := by simp
  unfold scan at scanned ⊢
  rw [characters, scanFrom_append_newline scanned (Nat.zero_le _), scanFrom_of_blank rfl,
    scanFrom_pending_of_blank _ _ (Nat.le_refl _)]
  exact scanFrom_shift (byteLength a.toList + 1) lexemes [] 0 0 b.toList

end Lexeme

namespace Token

open Lexeme (shiftAll)

private theorem shiftAll_cons (bytes : Nat) (lexeme : Lexeme) (span : Span)
    (rest : List (Lexeme × Span)) :
    shiftAll bytes ((lexeme, span) :: rest) =
      (lexeme, span.shift bytes) :: shiftAll bytes rest := rfl

theorem overNested?_shiftAll (bytes depth : Nat) (lexemes : List (Lexeme × Span)) :
    overNested? depth (shiftAll bytes lexemes) =
      (overNested? depth lexemes).map (Span.shift bytes) := by
  induction lexemes generalizing depth with
  | nil => rfl
  | cons entry rest ih =>
      obtain ⟨lexeme, span⟩ := entry
      rw [shiftAll_cons]
      rcases lexeme_cases lexeme with ⟨b, rfl⟩ | ⟨b, rfl⟩ | ⟨t, word⟩
      · rw [overNested?_opening_eq, overNested?_opening_eq, ih]
        split <;> rfl
      · rw [overNested?_closing, overNested?_closing, ih]
      · rw [overNested?_word word, overNested?_word word, ih]

/-- Brackets that match leave none open: what follows is counted from the start again. -/
theorem overNested?_append {levels : List Level} {items : List Token} {stop : Nat}
    {part : List (Lexeme × Span)} {tokens : List Token}
    (read : readFrom levels items stop part = .ok tokens)
    (shallow : overNested? levels.length part = none) (rest : List (Lexeme × Span)) :
    overNested? levels.length (part ++ rest) = overNested? 0 rest := by
  induction part generalizing levels items stop with
  | nil =>
      cases levels with
      | nil => rfl
      | cons level outer => cases read
  | cons entry part ih =>
      obtain ⟨lexeme, span⟩ := entry
      rw [List.cons_append]
      rcases lexeme_cases lexeme with ⟨b, rfl⟩ | ⟨b, rfl⟩ | ⟨t, word⟩
      · rw [readFrom_opening] at read
        rw [overNested?_opening_eq] at shallow ⊢
        split at shallow
        · cases shallow
        · rename_i within
          rw [if_neg within]
          exact ih read shallow
      · obtain ⟨before, outer, rfl⟩ := levels_of_readFrom_closing read
        rw [readFrom_closing] at read
        rw [overNested?_closing] at shallow ⊢
        exact ih read shallow
      · rw [readFrom_word word] at read
        rw [overNested?_word word] at shallow ⊢
        exact ih read shallow

theorem readFrom_append {levels : List Level} {items : List Token} {stop : Nat}
    {part : List (Lexeme × Span)} {tokens : List Token}
    (read : readFrom levels items stop part = .ok tokens) (rest : List (Lexeme × Span)) :
    ∃ stop', readFrom levels items stop (part ++ rest) = readFrom [] tokens.reverse stop' rest := by
  induction part generalizing levels items stop with
  | nil =>
      cases levels with
      | nil =>
          cases read
          exact ⟨stop, by simp⟩
      | cons level outer => cases read
  | cons entry part ih =>
      obtain ⟨lexeme, span⟩ := entry
      rw [List.cons_append]
      rcases lexeme_cases lexeme with ⟨b, rfl⟩ | ⟨b, rfl⟩ | ⟨t, word⟩
      · rw [readFrom_opening] at read ⊢
        exact ih read
      · obtain ⟨before, outer, rfl⟩ := levels_of_readFrom_closing read
        rw [readFrom_closing] at read ⊢
        exact ih read
      · rw [readFrom_word word] at read ⊢
        exact ih read

/-- The open levels and the items so far, with the tokens `base` before everything. -/
def onto (base : List Token) : List Level → List Token → List Level × List Token
  | [], items => ([], items ++ base.reverse)
  | level :: outer, items =>
      let (below, before) := onto base outer level.before
      (⟨level.bracket, before⟩ :: below, items)

private theorem onto_cons (base : List Token) (levels : List Level) (t : Token)
    (items : List Token) :
    onto base levels (t :: items) =
      ((onto base levels items).1, t :: (onto base levels items).2) := by
  cases levels <;> rfl

private theorem innermost_onto (base : List Token) (levels : List Level) (items : List Token) :
    innermost (onto base levels items).1 = innermost levels := by
  cases levels <;> rfl

/-- Reading further on, with tokens before those read. Where the last lexeme ends matters only
inside a bracket. -/
theorem readFrom_onto (base : List Token) (bytes : Nat) (lexemes : List (Lexeme × Span))
    (levels : List Level) (items : List Token) (stop stop' : Nat)
    (stops : levels = [] ∨ stop' = stop + bytes) :
    readFrom (onto base levels items).1 (onto base levels items).2 stop' (shiftAll bytes lexemes) =
      relocate bytes (base ++ ·) (readFrom levels items stop lexemes) := by
  induction lexemes generalizing levels items stop stop' with
  | nil =>
      cases levels with
      | nil => simp [shiftAll, onto, readFrom, relocate]
      | cons level outer =>
          rcases stops with none | rfl
          · cases none
          · simp only [shiftAll, List.map_nil, onto, readFrom, relocate, SourceError.shift,
              Span.shift, Span.point]
            rw [Nat.add_right_comm]
  | cons entry rest ih =>
      obtain ⟨lexeme, span⟩ := entry
      rw [shiftAll_cons]
      rcases lexeme_cases lexeme with ⟨b, rfl⟩ | ⟨b, rfl⟩ | ⟨t, word⟩
      · rw [readFrom_opening, readFrom_opening]
        exact ih (⟨b, items⟩ :: levels) [] span.stop _ (.inr rfl)
      · by_cases same : innermost levels = some b
        · cases levels with
          | nil => cases same
          | cons level outer =>
              obtain ⟨kind, before⟩ := level
              obtain rfl : kind = b := Option.some.inj same
              have closed := ih outer (kind.token items.reverse :: before) span.stop _ (.inr rfl)
              rw [onto_cons] at closed
              simp only [onto, readFrom_closing]
              exact closed
        · rw [readFrom_closing_of_ne same, readFrom_closing_of_ne (by rwa [innermost_onto]),
            innermost_onto]
          rfl
      · rw [readFrom_word word, readFrom_word word]
        have pushed := ih levels (t :: items) span.stop _ (.inr rfl)
        rw [onto_cons] at pushed
        exact pushed

theorem ofLexemes_join {part : List (Lexeme × Span)} {tokens : List Token}
    (read : ofLexemes part = .ok tokens) (bytes : Nat) (lexemes : List (Lexeme × Span)) :
    ofLexemes (part ++ shiftAll bytes lexemes) =
      relocate bytes (tokens ++ ·) (ofLexemes lexemes) := by
  unfold ofLexemes at read
  split at read
  · cases read
  · rename_i shallow
    have counted : overNested? 0 (part ++ shiftAll bytes lexemes) =
        (overNested? 0 lexemes).map (Span.shift bytes) := by
      rw [← overNested?_shiftAll]
      exact overNested?_append read shallow _
    obtain ⟨stop, further⟩ := readFrom_append read (shiftAll bytes lexemes)
    have rest := readFrom_onto tokens bytes lexemes [] [] 0 stop (.inl rfl)
    unfold ofLexemes
    rw [counted]
    cases overNested? 0 lexemes with
    | some span => rfl
    | none =>
        dsimp only [Option.map_none]
        rw [further]
        exact rest

/-- A source that reads, a newline and another source: the tokens of both, or the error of the
second where it stands in the whole. -/
theorem ofSource_newline {a : String} {first : List Token} (read : ofSource a = .ok first)
    (b : String) :
    ofSource (a ++ "\n" ++ b) =
      relocate (Lexeme.byteLength a.toList + 1) (first ++ ·) (ofSource b) := by
  obtain ⟨lexemes, scanned, structured⟩ := bind_eq_ok_iff.mp read
  unfold ofSource
  rw [Lexeme.scan_join_newline scanned]
  cases Lexeme.scan b with
  | error e => rfl
  | ok rest => exact ofLexemes_join structured _ rest

end Token

namespace Machine

theorem andThen_assoc (result : Outcome × Machine) (f g : Machine → Outcome × Machine) :
    andThen (andThen result f) g = andThen result fun m => andThen (f m) g := by
  obtain ⟨outcome, m⟩ := result
  by_cases completed : outcome = .ok .completed
  · subst completed
    rfl
  · rw [andThen_of_ne_completed completed, andThen_of_ne_completed completed,
      andThen_of_ne_completed completed]

theorem andThen_done (result : Outcome × Machine) :
    (andThen result fun m => (.ok .completed, m)) = result := by
  rcases result with ⟨e | (_ | _), m⟩ <;> rfl

theorem runAll_append (mode : ScopingMode) (enter : List Token → Machine → Outcome × Machine)
    (ts us : List Token) (m : Machine) :
    runAll mode enter (ts ++ us) m = andThen (runAll mode enter ts m) (runAll mode enter us) := by
  induction ts generalizing m with
  | nil => rfl
  | cons t ts ih =>
      have tail : runAll mode enter (ts ++ us) =
          fun n => andThen (runAll mode enter ts n) (runAll mode enter us) := funext ih
      rw [List.cons_append, runAll, runAll, andThen_assoc, tail]

theorem execute_of_lt {settings : Settings} {m : Machine} (within : m.depth < settings.limit)
    (tokens : List Token) :
    m.execute settings tokens =
      let (outcome, after) := (Task.sequence tokens).run settings (settings.limit - (m.depth + 1))
        { m with depth := m.depth + 1 }
      (outcome, { after with depth := m.depth }) := by
  have rooms : settings.limit - m.depth = settings.limit - (m.depth + 1) + 1 := by omega
  have level : ((Task.sequence tokens).run settings (settings.limit - (m.depth + 1))
      { m with depth := m.depth + 1 }).2.depth - 1 = m.depth := by
    rw [depth_run settings (.sequence tokens) { m with depth := m.depth + 1 }]
    rfl
  calc m.execute settings tokens
      = (Task.execute tokens).run settings (settings.limit - m.depth) m := rfl
    _ = _ := by rw [rooms, Task.run_execute_succ]; simp only [level]

theorem execute_of_le {settings : Settings} {m : Machine} (full : settings.limit ≤ m.depth)
    (tokens : List Token) :
    m.execute settings tokens = (.error (.nestingExceeded settings.limit), m) := by
  unfold execute
  rw [Nat.sub_eq_zero_of_le full]
  rfl

theorem execute_singleton {settings : Settings} {m : Machine} (within : m.depth < settings.limit)
    (t : Token) :
    m.execute settings [t] =
      let (outcome, after) := (Task.token t).run settings (settings.limit - (m.depth + 1))
        { m with depth := m.depth + 1 }
      (outcome, { after with depth := m.depth }) := by
  have single : (Task.sequence [t]).run settings (settings.limit - (m.depth + 1)) =
      (Task.token t).run settings (settings.limit - (m.depth + 1)) := by
    funext n
    exact andThen_done _
  rw [execute_of_lt within, single]

/-- Running tokens and then others is running all of them: the level that is left and entered again
in between leaves no trace, because the depth is back where it was. -/
theorem execute_append (settings : Settings) (ts us : List Token) (m : Machine) :
    m.execute settings (ts ++ us) =
      andThen (m.execute settings ts) fun n => n.execute settings us := by
  by_cases within : m.depth < settings.limit
  · -- Both parts run one level down: the whole enters it once, the parts apart enter it twice.
    rcases ran : (Task.sequence ts).run settings (settings.limit - (m.depth + 1))
      { m with depth := m.depth + 1 } with ⟨outcome, store, stack, scopes, output, depth⟩
    obtain rfl : depth = m.depth + 1 := by
      have level := depth_run settings (.sequence ts) { m with depth := m.depth + 1 }
      rwa [ran] at level
    have both : (Task.sequence (ts ++ us)).run settings (settings.limit - (m.depth + 1))
        { m with depth := m.depth + 1 } = andThen (outcome, ⟨store, stack, scopes, output,
          m.depth + 1⟩) ((Task.sequence us).run settings (settings.limit - (m.depth + 1))) := by
      rw [← ran]
      exact runAll_append ..
    rw [execute_of_lt within, execute_of_lt within, ran, both]
    by_cases completed : outcome = .ok .completed
    · subst completed
      exact (execute_of_lt (m := ⟨store, stack, scopes, output, m.depth⟩) within us).symm
    · rw [andThen_of_ne_completed completed, andThen_of_ne_completed completed]
  · have full := Nat.not_lt.mp within
    rw [execute_of_le full, execute_of_le full]
    rfl

end Machine

namespace Interpreter

theorem execute_append (i : Interpreter) (ts us : List Token) :
    i.execute (ts ++ us) =
      match i.execute ts with
      | (.ok .completed, after) => after.execute us
      | ended => ended := by
  simp only [execute, Machine.execute_append]
  rcases i.machine.execute i.settings ts with ⟨e | (_ | _), m⟩
  · rfl
  · rfl
  · rfl

theorem runSource_newline {a b : String} {first second : List Token}
    (readFirst : Token.ofSource a = .ok first) (readSecond : Token.ofSource b = .ok second)
    (i : Interpreter) :
    i.runSource (a ++ "\n" ++ b) =
      match i.runSource a with
      | (.ok .completed, after) => after.runSource b
      | ended => ended := by
  have readBoth : Token.ofSource (a ++ "\n" ++ b) = .ok (first ++ second) := by
    rw [Token.ofSource_newline readFirst, readSecond]
    rfl
  rw [runSource_of_ok readBoth, runSource_of_ok readFirst, execute_append]
  rcases i.execute first with ⟨e | (_ | _), after⟩
  · rfl
  · exact (runSource_of_ok readSecond after).symm
  · rfl

/-- Sources compose at a newline. After a first source that reads by itself, a second one reads as
it would alone: to the tokens that it has, or to the error that it has, that many bytes further on.
When both read, the whole runs as the first, and as the second after it exactly when the first one
completed. -/
theorem reads_and_runs_across_newline {a : String} {first : List Token}
    (read : Token.ofSource a = .ok first) (b : String) :
    (∀ second, Token.ofSource b = .ok second →
      Token.ofSource (a ++ "\n" ++ b) = .ok (first ++ second)) ∧
    (∀ e, Token.ofSource b = .error e →
      Token.ofSource (a ++ "\n" ++ b) =
        .error (e.shift (Lexeme.byteLength a.toList + 1))) ∧
    ∀ second, Token.ofSource b = .ok second → ∀ i : Interpreter,
      i.runSource (a ++ "\n" ++ b) =
        match i.runSource a with
        | (.ok .completed, after) => after.runSource b
        | ended => ended := by
  have joined := Token.ofSource_newline read b
  refine ⟨fun second readSecond => ?_, fun e failed => ?_, fun second readSecond i => ?_⟩
  · rw [joined, readSecond]
    rfl
  · rw [joined, failed]
    rfl
  · exact runSource_newline read readSecond i

/-- A first source that ends inside a comment, before one that ends the program and before one that
does not read. -/
theorem reads_and_runs_across_newline_comment :
    let first : List Token := [.number (.int 4),
      .procedure [.number (.int 2), .name "mul"], .define "twice"]
    let second : List Token := [.name "twice", .name "quit", .number (.int 7)]
    let ran := (create ⟨.dynamic, 3⟩).runSource ("4 {2 mul} /twice % (" ++ "\n" ++ "twice quit 7")
    Token.ofSource "4 {2 mul} /twice % (" = .ok first ∧
      Token.ofSource "twice quit 7" = .ok second ∧
      Token.ofSource ("4 {2 mul} /twice % (" ++ "\n" ++ "twice quit 7") = .ok (first ++ second) ∧
      Token.ofSource ("4 {2 mul} /twice % (" ++ "\n" ++ "1 ]") =
        .error ⟨.unexpectedLexeme .closeBracket (Token.expectedIn none), ⟨23, 24⟩⟩ ∧
      ran.1 = .ok .terminated ∧ ran.2.machine.stack = [.number (.int 8)] := by
  intro first second ran
  have readFirst : Token.ofSource "4 {2 mul} /twice % (" = .ok first := by rfl
  have readSecond : Token.ofSource "twice quit 7" = .ok second := by rfl
  have unread : Token.ofSource "1 ]" =
      .error ⟨.unexpectedLexeme .closeBracket (Token.expectedIn none), ⟨2, 3⟩⟩ := by rfl
  obtain ⟨tokens, -, runs⟩ := reads_and_runs_across_newline readFirst "twice quit 7"
  obtain ⟨-, errors, -⟩ := reads_and_runs_across_newline readFirst "1 ]"
  have moved : Lexeme.byteLength "4 {2 mul} /twice % (".toList + 1 = 21 := by rfl
  have runs : ran = (create ⟨.dynamic, 3⟩ |>.runSource "4 {2 mul} /twice % (").2.runSource
      "twice quit 7" := runs second readSecond (create ⟨.dynamic, 3⟩)
  refine ⟨readFirst, readSecond, tokens second readSecond, ?_, ?_, ?_⟩
  · rw [errors _ unread, moved]
    rfl
  · rw [runs]
    rfl
  · rw [runs]
    rfl

end Interpreter

end Stacklet
