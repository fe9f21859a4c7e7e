import Stacklet.Proofs.TokenStructure

set_option autoImplicit false
set_option relaxedAutoImplicit false

/-!
Where an error in the structure of a program is reported. Lexemes that can be continued to lexemes
whose brackets match are those that leave some brackets open and close none that is not, so which
brackets are open decides how a text can go on. The reader keeps just them: it stops at the first
lexeme after which the text cannot be continued, and what it lists as expected is what could have
stood there.
-/

namespace Stacklet.Token

def BracketsMatch (lexemes : List Lexeme) : Prop := ∃ depth, WellBracketed depth lexemes

/-- Whether lexemes can be continued to lexemes whose brackets match. -/
def Viable (lexemes : List Lexeme) : Prop := ∃ rest, BracketsMatch (lexemes ++ rest)

/-- The count of levels after a lexeme: an opening bracket of either kind adds one, a closing one
takes one away unless there is none. -/
def countLevel (depth : Nat) : Lexeme → Nat
  | .openBrace => depth + 1
  | .openBracket => depth + 1
  | .closeBrace => depth - 1
  | .closeBracket => depth - 1
  | _ => depth

def levelsAfter (depth : Nat) (lexemes : List Lexeme) : Nat := lexemes.foldl countLevel depth

/-- The brackets that are open after a lexeme, innermost first; none where the lexeme closes a
bracket that is not the innermost open one. -/
def openAfter (brackets : List Bracket) : Lexeme → Option (List Bracket)
  | .openBrace => some (.brace :: brackets)
  | .openBracket => some (.square :: brackets)
  | .closeBrace => if brackets.head? = some .brace then some brackets.tail else none
  | .closeBracket => if brackets.head? = some .square then some brackets.tail else none
  | _ => some brackets

def openAfterAll (brackets : List Bracket) (lexemes : List Lexeme) : Option (List Bracket) :=
  lexemes.foldlM openAfter brackets

section Brackets

variable {brackets : List Bracket} {lexemes : List Lexeme}

theorem openAfter_word {lexeme : Lexeme} {t : Token} (word : lexeme.token? = some t) :
    openAfter brackets lexeme = some brackets := by
  cases lexeme <;> simp only [Lexeme.token?, reduceCtorEq] at word <;> rfl

theorem openAfter_opening (b : Bracket) : openAfter brackets b.opening = some (b :: brackets) := by
  cases b <;> rfl

theorem openAfter_closing_self (b : Bracket) :
    openAfter (b :: brackets) b.closing = some brackets := by
  cases b <;> rfl

theorem openAfter_closing_of_ne {b : Bracket} (differs : brackets.head? ≠ some b) :
    openAfter brackets b.closing = none := by
  cases b
  · exact if_neg differs
  · exact if_neg differs

@[simp] theorem openAfterAll_nil : openAfterAll brackets [] = some brackets := rfl

@[simp] theorem openAfterAll_cons (lexeme : Lexeme) :
    openAfterAll brackets (lexeme :: lexemes) =
      (openAfter brackets lexeme).bind fun inner => openAfterAll inner lexemes := by
  simp [openAfterAll]

theorem openAfterAll_append (rest : List Lexeme) :
    openAfterAll brackets (lexemes ++ rest) =
      (openAfterAll brackets lexemes).bind fun inner => openAfterAll inner rest := by
  simp [openAfterAll]

theorem openAfterAll_of_refused {inner : List Bracket} {lexeme : Lexeme}
    (read : openAfterAll brackets lexemes = some inner) (refused : openAfter inner lexeme = none)
    (rest : List Lexeme) : openAfterAll brackets (lexemes ++ lexeme :: rest) = none := by
  rw [openAfterAll_append, read, Option.bind_some, openAfterAll_cons, refused, Option.bind_none]

theorem openAfterAll_of_wellBracketed {depth : Nat} (matched : WellBracketed depth lexemes) :
    openAfterAll brackets lexemes = some brackets := by
  induction matched generalizing brackets with
  | nil => rfl
  | word word _ ih => rw [openAfterAll_cons, openAfter_word word, Option.bind_some, ih]
  | bracket b _ _ inside rest =>
      rw [openAfterAll_cons, openAfter_opening, Option.bind_some, openAfterAll_append, inside,
        Option.bind_some, openAfterAll_cons, openAfter_closing_self, Option.bind_some]
      exact rest

theorem openAfterAll_closing (brackets : List Bracket) :
    openAfterAll brackets (brackets.map Bracket.closing) = some [] := by
  induction brackets with
  | nil => rfl
  | cons b outer ih =>
      rw [List.map_cons, openAfterAll_cons, openAfter_closing_self, Option.bind_some]
      exact ih

end Brackets

private def endOf (stop : Nat) (lexemes : List (Lexeme × Span)) : Nat :=
  lexemes.foldl (fun _ entry => entry.2.stop) stop

/-- How reading ends with some brackets open, told by the brackets that are open on the way. -/
private inductive ReadsTo (brackets : List Bracket) (stop : Nat) (lexemes : List (Lexeme × Span)) :
    Except SourceError (List Token) → Prop
  | program {tokens : List Token}
      (closed : openAfterAll brackets (lexemes.map Prod.fst) = some []) :
      ReadsTo brackets stop lexemes (.ok tokens)
  | unclosed {b : Bracket} {outer : List Bracket}
      (left : openAfterAll brackets (lexemes.map Prod.fst) = some (b :: outer)) :
      ReadsTo brackets stop lexemes
        (.error ⟨.unexpectedEnd (expectedIn (some b)), Span.point (endOf stop lexemes)⟩)
  | misplaced {before after : List (Lexeme × Span)} {lexeme : Lexeme} {span : Span}
      {inner : List Bracket} (split : lexemes = before ++ (lexeme, span) :: after)
      (read : openAfterAll brackets (before.map Prod.fst) = some inner)
      (refused : openAfter inner lexeme = none) :
      ReadsTo brackets stop lexemes
        (.error ⟨.unexpectedLexeme lexeme (expectedIn inner.head?), span⟩)

/-- The step lemma: a lexeme that can stand where it does, and then the rest. -/
private theorem ReadsTo.cons {brackets inner : List Bracket} {stop : Nat} {lexeme : Lexeme}
    {span : Span} {rest : List (Lexeme × Span)} {result : Except SourceError (List Token)}
    (stands : openAfter brackets lexeme = some inner)
    (reads : ReadsTo inner span.stop rest result) :
    ReadsTo brackets stop ((lexeme, span) :: rest) result := by
  have further (lexemes : List Lexeme) :
      openAfterAll brackets (lexeme :: lexemes) = openAfterAll inner lexemes := by
    rw [openAfterAll_cons, stands, Option.bind_some]
  cases reads with
  | program closed => exact .program ((further _).trans closed)
  | unclosed left => exact .unclosed ((further _).trans left)
  | @misplaced before after _ _ _ split read refused =>
      have split' : (lexeme, span) :: rest = ((lexeme, span) :: before) ++ _ :: after :=
        congrArg _ split
      exact .misplaced split' ((further _).trans read) refused

/-- The run lemma: the reader knows which brackets are open, and that is all it goes by. -/
private theorem readFrom_readsTo (levels : List Level) (items : List Token) (stop : Nat)
    (lexemes : List (Lexeme × Span)) :
    ReadsTo (levels.map Level.bracket) stop lexemes (readFrom levels items stop lexemes) := by
  induction lexemes generalizing levels items stop with
  | nil =>
      cases levels with
      | nil => exact .program rfl
      | cons level outer =>
          have left : openAfterAll ((level :: outer).map Level.bracket) [] =
              some (level.bracket :: outer.map Level.bracket) := rfl
          exact .unclosed left
  | cons entry rest ih =>
      obtain ⟨lexeme, span⟩ := entry
      rcases lexeme_cases lexeme with ⟨b, rfl⟩ | ⟨b, rfl⟩ | ⟨t, word⟩
      · rw [readFrom_opening]
        exact .cons (openAfter_opening b) (ih (⟨b, items⟩ :: levels) [] span.stop)
      · by_cases same : innermost levels = some b
        · cases levels with
          | nil => cases same
          | cons level outer =>
              obtain ⟨kind, before⟩ := level
              obtain rfl : kind = b := Option.some.inj same
              rw [readFrom_closing]
              exact .cons (openAfter_closing_self kind) (ih outer _ span.stop)
        · rw [readFrom_closing_of_ne same]
          have head : (levels.map Level.bracket).head? = innermost levels := List.head?_map
          rw [← head] at same ⊢
          exact .misplaced (List.nil_append _).symm rfl (openAfter_closing_of_ne same)
      · rw [readFrom_word word]
        exact .cons (openAfter_word word) (ih levels (t :: items) span.stop)

theorem bracketsMatch_iff (lexemes : List Lexeme) :
    BracketsMatch lexemes ↔ openAfterAll [] lexemes = some [] := by
  constructor
  · rintro ⟨depth, matched⟩
    exact openAfterAll_of_wellBracketed matched
  · intro closed
    -- The spans do not matter, so any will do.
    let placed : List (Lexeme × Span) := lexemes.map fun lexeme => (lexeme, Span.point 0)
    have words : placed.map Prod.fst = lexemes := by simp [placed, Function.comp_def]
    have reads := readFrom_readsTo [] [] 0 placed
    generalize result : readFrom [] [] 0 placed = outcome at reads
    cases reads with
    | program _ =>
        obtain ⟨depth, matched⟩ := wellBracketed_of_readFrom result
        rw [words] at matched
        exact ⟨depth, matched⟩
    | unclosed left =>
        rw [words] at left
        cases closed.symm.trans left
    | misplaced split read refused =>
        have stuck := openAfterAll_of_refused read refused
        rw [← words, split, List.map_append, List.map_cons] at closed
        cases closed.symm.trans (stuck _)

/-- Lexemes can be continued exactly if each of them can stand where it does. -/
theorem viable_iff (lexemes : List Lexeme) :
    Viable lexemes ↔ ∃ brackets, openAfterAll [] lexemes = some brackets := by
  constructor
  · rintro ⟨rest, matched⟩
    have closed := (bracketsMatch_iff _).mp matched
    rw [openAfterAll_append] at closed
    obtain ⟨brackets, opened, _⟩ := Option.bind_eq_some_iff.mp closed
    exact ⟨brackets, opened⟩
  · rintro ⟨brackets, opened⟩
    refine ⟨brackets.map Bracket.closing, (bracketsMatch_iff _).mpr ?_⟩
    rw [openAfterAll_append, opened, Option.bind_some, openAfterAll_closing]

theorem viable_of_initial {part lexemes : List Lexeme} (initial : part <+: lexemes)
    (viable : Viable lexemes) : Viable part := by
  obtain ⟨more, rfl⟩ := initial
  obtain ⟨rest, matched⟩ := viable
  rw [List.append_assoc] at matched
  exact ⟨more ++ rest, matched⟩

theorem mem_expectedIn_iff (brackets : List Bracket) (lexeme : Lexeme) :
    lexeme.category ∈ expectedIn brackets.head? ↔
      ∃ next, openAfter brackets lexeme = some next := by
  rcases brackets with _ | ⟨_ | _, outer⟩ <;> cases lexeme <;>
    simp [expectedIn, Lexeme.category, openAfter]

/-- What is expected inside the innermost open bracket is what lexemes can be continued with. -/
theorem mem_expectedIn_iff_viable {lexemes : List Lexeme} {brackets : List Bracket}
    (opened : openAfterAll [] lexemes = some brackets) (lexeme : Lexeme) :
    lexeme.category ∈ expectedIn brackets.head? ↔ Viable (lexemes ++ [lexeme]) := by
  rw [mem_expectedIn_iff, viable_iff, openAfterAll_append, opened, Option.bind_some]
  simp

section Levels

variable {depth : Nat}

theorem overNested?_cons (within : depth ≤ nestingLimit) (lexeme : Lexeme) (span : Span)
    (rest : List (Lexeme × Span)) :
    overNested? depth ((lexeme, span) :: rest) =
      if nestingLimit < countLevel depth lexeme then some span
      else overNested? (countLevel depth lexeme) rest := by
  rcases lexeme_cases lexeme with ⟨b, rfl⟩ | ⟨b, rfl⟩ | ⟨t, word⟩
  · rw [overNested?_opening_eq]
    cases b <;> rfl
  · have counted : countLevel depth b.closing = depth - 1 := by cases b <;> rfl
    rw [overNested?_closing, counted, if_neg (by omega)]
  · have counted : countLevel depth lexeme = depth := by
      cases lexeme <;> simp only [Lexeme.token?, reduceCtorEq] at word <;> rfl
    rw [overNested?_word word, counted, if_neg (by omega)]

theorem countLevel_le (depth : Nat) (lexeme : Lexeme) : countLevel depth lexeme ≤ depth + 1 := by
  cases lexeme <;> simp only [countLevel] <;> omega

private inductive Counted (depth : Nat) (lexemes : List (Lexeme × Span)) : Option Span → Prop
  | within (low : ∀ part, part <+: lexemes → levelsAfter depth (part.map Prod.fst) ≤ nestingLimit) :
      Counted depth lexemes none
  | beyond {before after : List (Lexeme × Span)} {lexeme : Lexeme} {span : Span}
      (split : lexemes = before ++ (lexeme, span) :: after)
      (low : ∀ part, part <+: before → levelsAfter depth (part.map Prod.fst) ≤ nestingLimit)
      (high : levelsAfter depth ((before ++ [(lexeme, span)]).map Prod.fst) = nestingLimit + 1) :
      Counted depth lexemes (some span)

private theorem levelsAfter_cons_le (within : depth ≤ nestingLimit) {lexeme : Lexeme} {span : Span}
    {rest : List (Lexeme × Span)}
    (low : ∀ part, part <+: rest →
      levelsAfter (countLevel depth lexeme) (part.map Prod.fst) ≤ nestingLimit) :
    ∀ part, part <+: (lexeme, span) :: rest →
      levelsAfter depth (part.map Prod.fst) ≤ nestingLimit := by
  intro part initial
  rcases List.prefix_cons_iff.mp initial with rfl | ⟨tail, rfl, shorter⟩
  · exact within
  · exact low tail shorter

private theorem overNested?_counted (within : depth ≤ nestingLimit)
    (lexemes : List (Lexeme × Span)) : Counted depth lexemes (overNested? depth lexemes) := by
  induction lexemes generalizing depth with
  | nil =>
      refine .within ?_
      intro part initial
      rw [List.prefix_nil.mp initial]
      exact within
  | cons entry rest ih =>
      obtain ⟨lexeme, span⟩ := entry
      rw [overNested?_cons within]
      split
      · rename_i exceeds
        have next := countLevel_le depth lexeme
        refine .beyond (List.nil_append _).symm ?_ ?_
        · intro part initial
          rw [List.prefix_nil.mp initial]
          exact within
        · have counted : levelsAfter depth [lexeme] = countLevel depth lexeme := rfl
          simp only [List.nil_append, List.map_cons, List.map_nil]
          omega
      · rename_i stays
        have counted := ih (Nat.not_lt.mp stays)
        generalize overNested? (countLevel depth lexeme) rest = place at counted
        cases counted with
        | within low => exact .within (levelsAfter_cons_le within low)
        | @beyond before after _ _ split low high =>
            have split' : (lexeme, span) :: rest = ((lexeme, span) :: before) ++ _ :: after :=
              congrArg _ split
            exact .beyond split' (levelsAfter_cons_le within low) high

end Levels

private theorem endOf_concat (stop : Nat) (before : List (Lexeme × Span)) (lexeme : Lexeme)
    (span : Span) : endOf stop (before ++ [(lexeme, span)]) = span.stop := by
  simp [endOf]

private theorem concat_initial (before after : List (Lexeme × Span)) (entry : Lexeme × Span) :
    before ++ [entry] <+: before ++ entry :: after :=
  ⟨after, by simp⟩

private theorem readFrom_error_place {lexemes : List (Lexeme × Span)} {e : SourceError}
    (rejected : readFrom [] [] 0 lexemes = .error e) :
    ((∃ part, part <+: lexemes ∧ ¬ Viable (part.map Prod.fst)) →
      ∃ before lexeme span after expected, lexemes = before ++ (lexeme, span) :: after ∧
        ¬ Viable (before.map Prod.fst ++ [lexeme]) ∧
        (∀ part, part <+: before → Viable (part.map Prod.fst)) ∧
        e = ⟨.unexpectedLexeme lexeme expected, span⟩ ∧
        ∀ other, other.category ∈ expected ↔ Viable (before.map Prod.fst ++ [other])) ∧
    ((∀ part, part <+: lexemes → Viable (part.map Prod.fst)) →
      ∃ before lexeme span expected, lexemes = before ++ [(lexeme, span)] ∧
        e = ⟨.unexpectedEnd expected, ⟨span.stop, span.stop + 1⟩⟩ ∧
        ∀ other, other.category ∈ expected ↔ Viable (lexemes.map Prod.fst ++ [other])) := by
  have reads := readFrom_readsTo [] [] 0 lexemes
  rw [rejected] at reads
  cases reads with
  | unclosed left =>
      have viable : Viable (lexemes.map Prod.fst) := (viable_iff _).mpr ⟨_, left⟩
      constructor
      · rintro ⟨part, initial, stuck⟩
        exact absurd (viable_of_initial (initial.map Prod.fst) viable) stuck
      · rintro -
        rcases List.eq_nil_or_concat lexemes with rfl | ⟨before, ⟨lexeme, span⟩, shape⟩
        · cases left
        · rw [List.concat_eq_append] at shape
          subst shape
          rw [endOf_concat]
          exact ⟨before, lexeme, span, _, rfl, rfl, mem_expectedIn_iff_viable left⟩
  | @misplaced before after lexeme span inner split read refused =>
      have viable : Viable (before.map Prod.fst) := (viable_iff _).mpr ⟨_, read⟩
      have expects := mem_expectedIn_iff_viable read
      have stuck : ¬ Viable (before.map Prod.fst ++ [lexeme]) := by
        rw [← expects, mem_expectedIn_iff, refused]
        rintro ⟨_, absurdity⟩
        cases absurdity
      constructor
      · rintro -
        refine ⟨before, lexeme, span, after, _, split, stuck, ?_, rfl, expects⟩
        intro part initial
        exact viable_of_initial (initial.map Prod.fst) viable
      · intro all
        have initial : before ++ [(lexeme, span)] <+: lexemes := by
          rw [split]
          exact concat_initial ..
        have fine := all _ initial
        rw [List.map_append] at fine
        exact absurd fine stuck

/-- Where an error in the structure of a program is reported, and what is listed as expected. If the
count of levels passes the limit anywhere, it is reported at the first bracket that takes it there,
whatever stands before. If not, and the text has a part that cannot be continued, the last lexeme of
the shortest such part is reported. Otherwise the end is reported, just after the last lexeme. What
is listed is in both cases what the text before the place can be continued with. -/
theorem structure_error_place {lexemes : List (Lexeme × Span)} {e : SourceError}
    (rejected : ofLexemes lexemes = .error e) :
    ((∃ part, part <+: lexemes ∧ levelsAfter 0 (part.map Prod.fst) = 1001) →
      ∃ before lexeme span after, lexemes = before ++ (lexeme, span) :: after ∧
        levelsAfter 0 ((before ++ [(lexeme, span)]).map Prod.fst) = 1001 ∧
        (∀ part, part <+: before → levelsAfter 0 (part.map Prod.fst) ≠ 1001) ∧
        e = ⟨.nestingExceeded 1000, span⟩) ∧
    ((∀ part, part <+: lexemes → levelsAfter 0 (part.map Prod.fst) ≠ 1001) →
      ((∃ part, part <+: lexemes ∧ ¬ Viable (part.map Prod.fst)) →
        ∃ before lexeme span after expected, lexemes = before ++ (lexeme, span) :: after ∧
          ¬ Viable (before.map Prod.fst ++ [lexeme]) ∧
          (∀ part, part <+: before → Viable (part.map Prod.fst)) ∧
          e = ⟨.unexpectedLexeme lexeme expected, span⟩ ∧
          ∀ other, other.category ∈ expected ↔ Viable (before.map Prod.fst ++ [other])) ∧
      ((∀ part, part <+: lexemes → Viable (part.map Prod.fst)) →
        ∃ before lexeme span expected, lexemes = before ++ [(lexeme, span)] ∧
          e = ⟨.unexpectedEnd expected, ⟨span.stop, span.stop + 1⟩⟩ ∧
          ∀ other, other.category ∈ expected ↔ Viable (lexemes.map Prod.fst ++ [other]))) := by
  have counted := overNested?_counted (Nat.zero_le nestingLimit) lexemes
  unfold ofLexemes at rejected
  generalize overNested? 0 lexemes = place at counted rejected
  cases counted with
  | beyond split low high =>
      cases rejected
      constructor
      · rintro -
        refine ⟨_, _, _, _, split, high, ?_, rfl⟩
        intro part initial reached
        have bound := low part initial
        rw [reached] at bound
        exact absurd bound (by decide)
      · intro never
        refine absurd high (never _ ?_)
        rw [split]
        exact concat_initial ..
  | within low =>
      constructor
      · rintro ⟨part, initial, reached⟩
        have bound := low part initial
        rw [reached] at bound
        exact absurd bound (by decide)
      · rintro -
        exact readFrom_error_place rejected

/-- A bracket of the wrong kind is reported, and a bracket that closes nothing is not where the
brackets after it are nested too deep. -/
theorem structure_error_place_mismatch :
    let mixed : List (Lexeme × Span) := [(.openBrace, ⟨0, 1⟩), (.closeBracket, ⟨2, 3⟩)]
    let deep : List (Lexeme × Span) :=
      (.closeBrace, ⟨0, 1⟩) :: List.replicate 1001 (.openBracket, ⟨1, 2⟩)
    (¬ Viable (mixed.map Prod.fst) ∧
      ∃ before lexeme span after expected, mixed = before ++ (lexeme, span) :: after ∧
        ¬ Viable (before.map Prod.fst ++ [lexeme]) ∧
        ofLexemes mixed = .error ⟨.unexpectedLexeme lexeme expected, span⟩ ∧
        ∀ other, other.category ∈ expected ↔ Viable (before.map Prod.fst ++ [other])) ∧
    (levelsAfter 0 (deep.map Prod.fst) = 1001 ∧
      ∃ before lexeme span after, deep = before ++ (lexeme, span) :: after ∧
        levelsAfter 0 ((before ++ [(lexeme, span)]).map Prod.fst) = 1001 ∧
        ofLexemes deep = .error ⟨.nestingExceeded 1000, span⟩) := by
  intro mixed deep
  constructor
  · have rejected : ofLexemes mixed = .error _ := rfl
    have never : ∀ part, part <+: mixed → levelsAfter 0 (part.map Prod.fst) ≠ 1001 := by
      intro part initial
      rcases List.prefix_cons_iff.mp initial with rfl | ⟨_, rfl, shorter⟩
      · decide
      · rcases List.prefix_cons_iff.mp shorter with rfl | ⟨_, rfl, shortest⟩
        · decide
        · rw [List.prefix_nil.mp shortest]
          decide
    have stuck : ¬ Viable (mixed.map Prod.fst) := by
      rw [viable_iff]
      rintro ⟨_, opened⟩
      cases opened
    obtain ⟨before, lexeme, span, after, expected, split, ends, -, place, expects⟩ :=
      ((structure_error_place rejected).2 never).1 ⟨mixed, List.prefix_rfl, stuck⟩
    rw [place] at rejected
    exact ⟨stuck, before, lexeme, span, after, expected, split, ends, rejected, expects⟩
  · have reached : levelsAfter 0 (deep.map Prod.fst) = 1001 := by decide +kernel
    have exceeds : overNested? 0 deep = some ⟨1, 2⟩ := by decide +kernel
    have rejected : ofLexemes deep = .error ⟨.nestingExceeded nestingLimit, ⟨1, 2⟩⟩ := by
      simp only [ofLexemes, exceeds]
    obtain ⟨before, lexeme, span, after, split, high, -, place⟩ :=
      (structure_error_place rejected).1 ⟨deep, List.prefix_rfl, reached⟩
    rw [place] at rejected
    exact ⟨reached, before, lexeme, span, after, split, high, rejected⟩

end Stacklet.Token
