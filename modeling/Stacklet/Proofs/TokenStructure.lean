import Stacklet.Token.Reader

set_option autoImplicit false
set_option relaxedAutoImplicit false

/-!
Reading accepts exactly the lexemes that writing a program out gives. The count of open brackets
is a pass of its own over all lexemes, which knows neither the kinds of brackets nor whether they
match; on the lexemes of a program it is the depth of the tree.
-/

namespace Stacklet

/-- The token that a lexeme stands for by itself; a bracket stands for none. -/
def Lexeme.token? : Lexeme → Option Token
  | .real x => some (.number (.real x))
  | .int n => some (.number (.int n))
  | .text s => some (.text s)
  | .define word => some (.define word)
  | .name word => some (.name word)
  | _ => none

namespace Token

namespace Bracket

def opening : Bracket → Lexeme
  | .brace => .openBrace
  | .square => .openBracket

def closing : Bracket → Lexeme
  | .brace => .closeBrace
  | .square => .closeBracket

def token (body : List Token) : Bracket → Token
  | .brace => .procedure body
  | .square => .inline body

end Bracket

mutual

/-- The lexemes of a token. A boolean has none. -/
def flatten : Token → List Lexeme
  | .number (.int n) => [.int n]
  | .number (.real x) => [.real x]
  | .bool _ => []
  | .text s => [.text s]
  | .name word => [.name word]
  | .define word => [.define word]
  | .inline body => .openBracket :: (flattenAll body ++ [.closeBracket])
  | .procedure body => .openBrace :: (flattenAll body ++ [.closeBrace])

def flattenAll : List Token → List Lexeme
  | [] => []
  | t :: ts => t.flatten ++ flattenAll ts

end

mutual

def nesting : Token → Nat
  | .inline body => nestingAll body + 1
  | .procedure body => nestingAll body + 1
  | _ => 0

def nestingAll : List Token → Nat
  | [] => 0
  | t :: ts => max t.nesting (nestingAll ts)

end

mutual

def holdsBool : Token → Bool
  | .bool _ => true
  | .inline body => anyBool body
  | .procedure body => anyBool body
  | _ => false

def anyBool : List Token → Bool
  | [] => false
  | t :: ts => t.holdsBool || anyBool ts

end

/-- Lexemes whose brackets match, nested at most `depth` deep. -/
inductive WellBracketed : (depth : Nat) → List Lexeme → Prop
  | nil {depth : Nat} : WellBracketed depth []
  | word {depth : Nat} {lexeme : Lexeme} {t : Token} {rest : List Lexeme} :
      lexeme.token? = some t → WellBracketed depth rest → WellBracketed depth (lexeme :: rest)
  | bracket {depth : Nat} (b : Bracket) {inner rest : List Lexeme} :
      WellBracketed depth inner → WellBracketed (depth + 1) rest →
        WellBracketed (depth + 1) (b.opening :: (inner ++ b.closing :: rest))

@[simp] theorem flattenAll_append (ts us : List Token) :
    flattenAll (ts ++ us) = flattenAll ts ++ flattenAll us := by
  induction ts with
  | nil => rfl
  | cons t ts ih => simp [flattenAll, ih]

@[simp] theorem anyBool_append (ts us : List Token) :
    anyBool (ts ++ us) = (anyBool ts || anyBool us) := by
  induction ts with
  | nil => rfl
  | cons t ts ih => simp [anyBool, ih, Bool.or_assoc]

theorem flatten_token (b : Bracket) (body : List Token) :
    (b.token body).flatten = b.opening :: (flattenAll body ++ [b.closing]) := by
  cases b <;> rfl

theorem nesting_token (b : Bracket) (body : List Token) :
    (b.token body).nesting = nestingAll body + 1 := by
  cases b <;> rfl

theorem holdsBool_token (b : Bracket) (body : List Token) :
    (b.token body).holdsBool = anyBool body := by
  cases b <;> rfl

theorem flatten_of_token? {lexeme : Lexeme} {t : Token} (word : lexeme.token? = some t) :
    t.flatten = [lexeme] ∧ t.nesting = 0 ∧ t.holdsBool = false := by
  cases lexeme <;> simp only [Lexeme.token?, Option.some.injEq, reduceCtorEq] at word <;>
    subst word <;> exact ⟨rfl, rfl, rfl⟩

theorem lexeme_cases (lexeme : Lexeme) :
    (∃ b : Bracket, lexeme = b.opening) ∨ (∃ b : Bracket, lexeme = b.closing) ∨
      ∃ t, lexeme.token? = some t := by
  cases lexeme with
  | openBrace => exact .inl ⟨.brace, rfl⟩
  | openBracket => exact .inl ⟨.square, rfl⟩
  | closeBrace => exact .inr (.inl ⟨.brace, rfl⟩)
  | closeBracket => exact .inr (.inl ⟨.square, rfl⟩)
  | real x => exact .inr (.inr ⟨_, rfl⟩)
  | int n => exact .inr (.inr ⟨_, rfl⟩)
  | text s => exact .inr (.inr ⟨_, rfl⟩)
  | define word => exact .inr (.inr ⟨_, rfl⟩)
  | name word => exact .inr (.inr ⟨_, rfl⟩)

/-- Induction over tokens without booleans: a token is written as one lexeme, or it is a bracket
around tokens. -/
theorem plain_induction {motive : List Token → Prop} (nil : motive [])
    (word : ∀ (lexeme : Lexeme) {t : Token} {ts : List Token},
      lexeme.token? = some t → motive ts → motive (t :: ts))
    (bracket : ∀ (b : Bracket) {body ts : List Token},
      motive body → motive ts → motive (b.token body :: ts)) :
    ∀ ts, anyBool ts = false → motive ts
  | [], _ => nil
  | .bool _ :: _, plain => by simp [anyBool, holdsBool] at plain
  | .number (.int n) :: ts, plain =>
      word (.int n) rfl (plain_induction nil word bracket ts plain)
  | .number (.real x) :: ts, plain =>
      word (.real x) rfl (plain_induction nil word bracket ts plain)
  | .text s :: ts, plain =>
      word (.text s) rfl (plain_induction nil word bracket ts plain)
  | .name w :: ts, plain =>
      word (.name w) rfl (plain_induction nil word bracket ts plain)
  | .define w :: ts, plain =>
      word (.define w) rfl (plain_induction nil word bracket ts plain)
  | .inline body :: ts, plain => by
      simp only [anyBool, holdsBool, Bool.or_eq_false_iff] at plain
      exact bracket .square (plain_induction nil word bracket body plain.1)
        (plain_induction nil word bracket ts plain.2)
  | .procedure body :: ts, plain => by
      simp only [anyBool, holdsBool, Bool.or_eq_false_iff] at plain
      exact bracket .brace (plain_induction nil word bracket body plain.1)
        (plain_induction nil word bracket ts plain.2)

theorem readFrom_word {lexeme : Lexeme} {t : Token} (word : lexeme.token? = some t)
    (levels : List Level) (items : List Token) (stop : Nat) (span : Span)
    (rest : List (Lexeme × Span)) :
    readFrom levels items stop ((lexeme, span) :: rest) =
      readFrom levels (t :: items) span.stop rest := by
  cases lexeme <;> simp only [Lexeme.token?, Option.some.injEq, reduceCtorEq] at word <;>
    subst word <;> rfl

theorem readFrom_opening (b : Bracket) (levels : List Level) (items : List Token)
    (stop : Nat) (span : Span) (rest : List (Lexeme × Span)) :
    readFrom levels items stop ((b.opening, span) :: rest) =
      readFrom (⟨b, items⟩ :: levels) [] span.stop rest := by
  cases b <;> rfl

theorem readFrom_closing (b : Bracket) (before : List Token) (outer : List Level)
    (items : List Token) (stop : Nat) (span : Span) (rest : List (Lexeme × Span)) :
    readFrom (⟨b, before⟩ :: outer) items stop ((b.closing, span) :: rest) =
      readFrom outer (b.token items.reverse :: before) span.stop rest := by
  cases b <;> rfl

theorem levels_of_readFrom_closing {b : Bracket} {levels : List Level}
    {items : List Token} {stop : Nat} {span : Span} {rest : List (Lexeme × Span)}
    {tokens : List Token}
    (success : readFrom levels items stop ((b.closing, span) :: rest) = .ok tokens) :
    ∃ before outer, levels = ⟨b, before⟩ :: outer := by
  cases levels with
  | nil => cases b <;> cases success
  | cons level outer =>
      obtain ⟨kind, before⟩ := level
      cases kind <;> cases b
      · exact ⟨before, outer, rfl⟩
      · cases success
      · cases success
      · exact ⟨before, outer, rfl⟩

theorem readFrom_closing_of_ne {b : Bracket} {levels : List Level}
    (differs : innermost levels ≠ some b) (items : List Token) (stop : Nat) (span : Span)
    (rest : List (Lexeme × Span)) :
    readFrom levels items stop ((b.closing, span) :: rest) =
      .error ⟨.unexpectedLexeme b.closing (expectedIn (innermost levels)), span⟩ := by
  cases levels with
  | nil => cases b <;> rfl
  | cons level outer =>
      obtain ⟨kind, before⟩ := level
      cases kind <;> cases b
      · exact absurd rfl differs
      · rfl
      · rfl
      · exact absurd rfl differs

theorem overNested?_word {lexeme : Lexeme} {t : Token} (word : lexeme.token? = some t)
    (depth : Nat) (span : Span) (rest : List (Lexeme × Span)) :
    overNested? depth ((lexeme, span) :: rest) = overNested? depth rest := by
  cases lexeme <;> simp only [Lexeme.token?, reduceCtorEq] at word <;> rfl

theorem overNested?_opening_eq (b : Bracket) (depth : Nat) (span : Span)
    (rest : List (Lexeme × Span)) :
    overNested? depth ((b.opening, span) :: rest) =
      if nestingLimit < depth + 1 then some span else overNested? (depth + 1) rest := by
  cases b <;> rfl

private theorem overNested?_opening (b : Bracket) (depth : Nat) (span : Span)
    (rest : List (Lexeme × Span)) :
    overNested? depth ((b.opening, span) :: rest) = none ↔
      depth + 1 ≤ nestingLimit ∧ overNested? (depth + 1) rest = none := by
  rw [overNested?_opening_eq]
  split
  · rename_i exceeded
    simp [Nat.not_le.mpr exceeded]
  · rename_i within
    simp [Nat.not_lt.mp within]

theorem overNested?_closing (b : Bracket) (depth : Nat) (span : Span)
    (rest : List (Lexeme × Span)) :
    overNested? depth ((b.closing, span) :: rest) = overNested? (depth - 1) rest := by
  cases b <;> rfl

/-- What both passes make of the lexemes of some tokens, whatever stands before and after them. -/
private structure Reads (lexemes : List Lexeme) (tokens : List Token) : Prop where
  read : ∀ (levels : List Level) (items : List Token) (stop : Nat)
    (part rest : List (Lexeme × Span)), part.map Prod.fst = lexemes →
      ∃ stop', readFrom levels items stop (part ++ rest) =
        readFrom levels (tokens.reverse ++ items) stop' rest
  nests : ∀ (depth : Nat) (part rest : List (Lexeme × Span)), depth ≤ nestingLimit →
    part.map Prod.fst = lexemes → (overNested? depth (part ++ rest) = none ↔
      depth + nestingAll tokens ≤ nestingLimit ∧ overNested? depth rest = none)

private theorem Reads.nil : Reads [] [] where
  read := by
    intro levels items stop part rest written
    cases List.map_eq_nil_iff.mp written
    exact ⟨stop, rfl⟩
  nests := by
    intro depth part rest within written
    cases List.map_eq_nil_iff.mp written
    simp [nestingAll, within]

private theorem exists_of_map_eq_word {lexeme : Lexeme} {lexemes : List Lexeme}
    {part : List (Lexeme × Span)} (written : part.map Prod.fst = lexeme :: lexemes) :
    ∃ span after, part = (lexeme, span) :: after ∧ after.map Prod.fst = lexemes := by
  obtain ⟨⟨_, span⟩, after, split, rfl, afterWritten⟩ := List.map_eq_cons_iff.mp written
  exact ⟨span, after, split, afterWritten⟩

private theorem exists_of_map_eq_bracket {b : Bracket} {inner lexemes : List Lexeme}
    {part : List (Lexeme × Span)}
    (written : part.map Prod.fst = b.opening :: (inner ++ b.closing :: lexemes)) :
    ∃ first inside last after,
      part = (b.opening, first) :: (inside ++ (b.closing, last) :: after) ∧
        inside.map Prod.fst = inner ∧ after.map Prod.fst = lexemes := by
  obtain ⟨first, tail, rfl, tailWritten⟩ := exists_of_map_eq_word written
  obtain ⟨inside, tail', rfl, insideWritten, tailWritten'⟩ := List.map_eq_append_iff.mp tailWritten
  obtain ⟨last, after, rfl, afterWritten⟩ := exists_of_map_eq_word tailWritten'
  exact ⟨first, inside, last, after, rfl, insideWritten, afterWritten⟩

private theorem Reads.word {lexeme : Lexeme} {t : Token} {lexemes : List Lexeme}
    {ts : List Token} (word : lexeme.token? = some t) (reads : Reads lexemes ts) :
    Reads (lexeme :: lexemes) (t :: ts) where
  read := by
    intro levels items stop part rest written
    obtain ⟨span, after, rfl, afterWritten⟩ := exists_of_map_eq_word written
    obtain ⟨stop', equal⟩ := reads.read levels (t :: items) span.stop after rest afterWritten
    refine ⟨stop', ?_⟩
    rw [List.cons_append, readFrom_word word, equal]
    simp
  nests := by
    intro depth part rest within written
    obtain ⟨span, after, rfl, afterWritten⟩ := exists_of_map_eq_word written
    rw [List.cons_append, overNested?_word word, reads.nests depth after rest within afterWritten]
    simp [nestingAll, (flatten_of_token? word).2.1]

private theorem Reads.bracket (b : Bracket) {inner lexemes : List Lexeme}
    {body ts : List Token} (inside : Reads inner body) (reads : Reads lexemes ts) :
    Reads (b.opening :: (inner ++ b.closing :: lexemes)) (b.token body :: ts) where
  read := by
    intro levels items stop part rest written
    obtain ⟨first, within, last, after, rfl, withinWritten, afterWritten⟩ :=
      exists_of_map_eq_bracket written
    obtain ⟨stop₁, atClosing⟩ := inside.read (⟨b, items⟩ :: levels) [] first.stop within
      ((b.closing, last) :: (after ++ rest)) withinWritten
    obtain ⟨stop₂, atEnd⟩ :=
      reads.read levels (b.token body :: items) last.stop after rest afterWritten
    refine ⟨stop₂, ?_⟩
    simp only [List.cons_append, List.append_assoc]
    rw [readFrom_opening, atClosing, readFrom_closing]
    simpa using atEnd
  nests := by
    intro depth part rest shallow written
    obtain ⟨first, within, last, after, rfl, withinWritten, afterWritten⟩ :=
      exists_of_map_eq_bracket written
    have inner (deeper : depth + 1 ≤ nestingLimit) :
        overNested? (depth + 1) (within ++ (b.closing, last) :: (after ++ rest)) = none ↔
          depth + 1 + nestingAll body ≤ nestingLimit ∧
            depth + nestingAll ts ≤ nestingLimit ∧ overNested? depth rest = none := by
      rw [inside.nests (depth + 1) within _ deeper withinWritten, overNested?_closing,
        Nat.add_sub_cancel, reads.nests depth after rest shallow afterWritten]
    simp only [List.cons_append, List.append_assoc, overNested?_opening, nestingAll, nesting_token]
    constructor
    · rintro ⟨deeper, none⟩
      obtain ⟨bodyBound, restBound, none⟩ := (inner deeper).mp none
      exact ⟨by omega, none⟩
    · rintro ⟨bound, none⟩
      have deeper : depth + 1 ≤ nestingLimit := by omega
      exact ⟨deeper, (inner deeper).mpr ⟨by omega, by omega, none⟩⟩

theorem flattenAll_bracket (b : Bracket) (body ts : List Token) :
    flattenAll (b.token body :: ts) =
      b.opening :: (flattenAll body ++ b.closing :: flattenAll ts) := by
  simp [flattenAll, flatten_token]

theorem flattenAll_word {lexeme : Lexeme} {t : Token} (word : lexeme.token? = some t)
    (ts : List Token) : flattenAll (t :: ts) = lexeme :: flattenAll ts := by
  simp [flattenAll, (flatten_of_token? word).1]

private theorem reads_flattenAll (ts : List Token) (plain : anyBool ts = false) :
    Reads (flattenAll ts) ts := by
  refine plain_induction (motive := fun ts => Reads (flattenAll ts) ts) .nil ?_ ?_ ts plain
  · intro lexeme t ts word reads
    rw [flattenAll_word word]
    exact reads.word word
  · intro b body ts inside reads
    rw [flattenAll_bracket]
    exact .bracket b inside reads

private def consumed : List Level → List Token → List Lexeme
  | [], items => flattenAll items.reverse
  | level :: outer, items =>
      consumed outer level.before ++ level.bracket.opening :: flattenAll items.reverse

private theorem consumed_cons (levels : List Level) (t : Token) (items : List Token) :
    consumed levels (t :: items) = consumed levels items ++ t.flatten := by
  cases levels <;> simp [consumed, flattenAll]

private def PlainSoFar (levels : List Level) (items : List Token) : Prop :=
  anyBool items.reverse = false ∧ ∀ level ∈ levels, anyBool level.before.reverse = false

private theorem PlainSoFar.cons {levels : List Level} {items : List Token} {t : Token}
    (plain : PlainSoFar levels items) (head : t.holdsBool = false) :
    PlainSoFar levels (t :: items) := by
  obtain ⟨here, outside⟩ := plain
  exact ⟨by simp [anyBool, here, head], outside⟩

/-- Reading loses nothing: the program is written as what was read and what was left. -/
private theorem flattenAll_of_readFrom {levels : List Level} {items : List Token} {stop : Nat}
    {lexemes : List (Lexeme × Span)} {tokens : List Token}
    (success : readFrom levels items stop lexemes = .ok tokens) (plain : PlainSoFar levels items) :
    flattenAll tokens = consumed levels items ++ lexemes.map Prod.fst ∧ anyBool tokens = false := by
  -- `consumed` is what links the open levels to the lexemes already gone.
  induction lexemes generalizing levels items stop with
  | nil =>
      cases levels with
      | nil =>
          cases success
          exact ⟨by simp [consumed], plain.1⟩
      | cons level outer => cases success
  | cons entry rest ih =>
      obtain ⟨lexeme, span⟩ := entry
      rcases lexeme_cases lexeme with ⟨b, rfl⟩ | ⟨b, rfl⟩ | ⟨t, word⟩
      · rw [readFrom_opening] at success
        have opened : PlainSoFar (⟨b, items⟩ :: levels) [] := by
          refine ⟨rfl, ?_⟩
          intro level member
          rcases List.mem_cons.mp member with rfl | outside
          · exact plain.1
          · exact plain.2 level outside
        obtain ⟨written, free⟩ := ih success opened
        exact ⟨by simpa [consumed, flattenAll] using written, free⟩
      · obtain ⟨before, outer, rfl⟩ := levels_of_readFrom_closing success
        rw [readFrom_closing] at success
        have closed : PlainSoFar outer (b.token items.reverse :: before) := by
          refine PlainSoFar.cons ⟨plain.2 ⟨b, before⟩ (by simp), ?_⟩ ?_
          · intro level member
            exact plain.2 level (by simp [member])
          · rw [holdsBool_token]
            exact plain.1
        obtain ⟨written, free⟩ := ih success closed
        refine ⟨?_, free⟩
        rw [written, consumed_cons, flatten_token]
        simp [consumed]
      · rw [readFrom_word word] at success
        obtain ⟨flat, _, head⟩ := flatten_of_token? word
        obtain ⟨written, free⟩ := ih success (plain.cons head)
        refine ⟨?_, free⟩
        rw [written, consumed_cons, flat]
        simp

private theorem wellBracketed_flattenAll (ts : List Token) (plain : anyBool ts = false) :
    ∀ depth, nestingAll ts ≤ depth → WellBracketed depth (flattenAll ts) := by
  refine plain_induction
    (motive := fun ts => ∀ depth, nestingAll ts ≤ depth → WellBracketed depth (flattenAll ts))
    (fun _ _ => .nil) ?_ ?_ ts plain
  · intro lexeme t ts word ih depth bound
    rw [flattenAll_word word]
    exact .word word (ih depth (Nat.le_trans (Nat.le_max_right _ _) bound))
  · intro b body ts inside ih depth bound
    rw [flattenAll_bracket]
    simp only [nestingAll, nesting_token] at bound
    obtain ⟨inner, rfl⟩ : ∃ inner, depth = inner + 1 := ⟨depth - 1, by omega⟩
    exact .bracket b (inside inner (by omega)) (ih (inner + 1) (by omega))

private theorem wellBracketed_iff (depth : Nat) (lexemes : List Lexeme) :
    WellBracketed depth lexemes ↔
      ∃ ts, anyBool ts = false ∧ lexemes = flattenAll ts ∧ nestingAll ts ≤ depth := by
  constructor
  · intro matched
    induction matched with
    | nil => exact ⟨[], rfl, rfl, Nat.zero_le _⟩
    | @word depth lexeme t rest word _ ih =>
        obtain ⟨ts, plain, rfl, bound⟩ := ih
        obtain ⟨_, flatness, head⟩ := flatten_of_token? word
        refine ⟨t :: ts, by simp [anyBool, head, plain], (flattenAll_word word ts).symm, ?_⟩
        simpa [nestingAll, flatness] using bound
    | @bracket depth b inner rest _ _ inside ih =>
        obtain ⟨body, bodyPlain, rfl, bodyBound⟩ := inside
        obtain ⟨ts, plain, rfl, bound⟩ := ih
        refine ⟨b.token body :: ts, by simp [anyBool, holdsBool_token, bodyPlain, plain],
          (flattenAll_bracket b body ts).symm, ?_⟩
        simp only [nestingAll, nesting_token]
        omega
  · rintro ⟨ts, plain, rfl, bound⟩
    exact wellBracketed_flattenAll ts plain depth bound

theorem wellBracketed_of_readFrom {stop : Nat} {lexemes : List (Lexeme × Span)}
    {tokens : List Token} (success : readFrom [] [] stop lexemes = .ok tokens) :
    ∃ depth, WellBracketed depth (lexemes.map Prod.fst) := by
  have start : PlainSoFar [] [] := ⟨rfl, by simp⟩
  obtain ⟨written, plain⟩ := flattenAll_of_readFrom success start
  have matched := wellBracketed_flattenAll tokens plain (nestingAll tokens) (Nat.le_refl _)
  rw [written] at matched
  exact ⟨nestingAll tokens, matched⟩

theorem ofLexemes_iff (lexemes : List (Lexeme × Span)) (tokens : List Token) :
    ofLexemes lexemes = .ok tokens ↔
      anyBool tokens = false ∧ lexemes.map Prod.fst = flattenAll tokens ∧
        nestingAll tokens ≤ nestingLimit := by
  have counted (plain : anyBool tokens = false)
      (written : lexemes.map Prod.fst = flattenAll tokens) :
      overNested? 0 lexemes = none ↔ nestingAll tokens ≤ nestingLimit := by
    simpa [overNested?] using
      (reads_flattenAll tokens plain).nests 0 lexemes [] (Nat.zero_le _) written
  unfold ofLexemes
  constructor
  · intro success
    split at success
    · cases success
    · rename_i none
      have start : PlainSoFar [] [] := ⟨rfl, by simp⟩
      obtain ⟨written, plain⟩ := flattenAll_of_readFrom success start
      have written' : lexemes.map Prod.fst = flattenAll tokens := by
        simpa [consumed, flattenAll] using written.symm
      exact ⟨plain, written', (counted plain written').mp none⟩
  · rintro ⟨plain, written, bound⟩
    rw [(counted plain written).mpr bound]
    obtain ⟨stop, equal⟩ := (reads_flattenAll tokens plain).read [] [] 0 lexemes [] written
    rw [List.append_nil] at equal
    simp [equal, readFrom]

/-- Lexemes are read as a program exactly when they are how the program is written and its
brackets are nested at most 1000 deep. So exactly matched brackets of that depth are accepted,
spans do not matter, and a program is read from one sequence of lexemes only. -/
theorem ofLexemes_eq_ok_iff_flatten (lexemes : List (Lexeme × Span)) :
    (∀ tokens, ofLexemes lexemes = .ok tokens ↔
      anyBool tokens = false ∧ lexemes.map Prod.fst = flattenAll tokens ∧
        nestingAll tokens ≤ 1000) ∧
    ((∃ tokens, ofLexemes lexemes = .ok tokens) ↔ WellBracketed 1000 (lexemes.map Prod.fst)) ∧
    (∀ lexemes' tokens, lexemes'.map Prod.fst = lexemes.map Prod.fst →
      (ofLexemes lexemes' = .ok tokens ↔ ofLexemes lexemes = .ok tokens)) ∧
    (∀ lexemes' tokens, ofLexemes lexemes = .ok tokens → ofLexemes lexemes' = .ok tokens →
      lexemes'.map Prod.fst = lexemes.map Prod.fst) := by
  refine ⟨ofLexemes_iff lexemes, ?_, ?_, ?_⟩
  · rw [wellBracketed_iff]
    exact exists_congr (ofLexemes_iff lexemes)
  · intro lexemes' tokens same
    rw [ofLexemes_iff, ofLexemes_iff, same]
  · intro lexemes' tokens left right
    obtain ⟨_, written, _⟩ := (ofLexemes_iff lexemes tokens).mp left
    obtain ⟨_, written', _⟩ := (ofLexemes_iff lexemes' tokens).mp right
    rw [written, written']

end Token

end Stacklet
